import DirectTrade.Foundation.Replay

/-!
The life of one identity, from its enrollment through transitions, resolutions and moves
to other hosts, and the log that its accepted statements make. Replay reproduces the live
state at every entry, exactly as long as the latest acceptance that each transition's
window allows lies within the clock of the replay.
-/

namespace DirectTrade.Foundation

open Library Outcome

/-- The log so far, the live state at each entry when it was accepted, and the state now. -/
structure Course where
  log : IdentityLog
  passed : List IdentityState
  state : IdentityState

namespace Course

def push (r : Course) (e : IdentityLogEntry) (s : IdentityState) : Course :=
  ⟨r.log.push e, r.passed ++ [s], s⟩

/-- What a host of the identity accepts, at its own clock. -/
inductive Act where
  | transition (command : Signed Transition) (now : ℤ)
  | resolve (request : ResolutionRequest) (now : ℤ)
  | rehome (move : Signed Rehome) (now : ℤ)

variable [Crypto]

def enroll (genesis : Signed Genesis) (enrollment : Signed ResolverEnrollment)
    (resolverId : Uuid) (resolverKey : KeyId) (audience : String) (now : ℤ) : Checked Course := do
  let s ← createIdentity genesis resolverId resolverKey now
  verifyResolverEnrollment s enrollment audience now
  pure ⟨⟨.moves, genesis, enrollment, [⟨s.head.effectiveAt, none, some none, none⟩]⟩, [s], s⟩

/-- A transition and a lease at the host that holds the identity; a move is adopted from the
log that leaves the former host. -/
def next (r : Course) : Act → Checked Course
  | .transition c now => do
    let s ← transitionIdentity r.state c now
    pure (r.push ⟨s.head.effectiveAt, some c, some none, none⟩ s)
  | .resolve request now => do
    let (s, _) ← issueResolution r.state request r.state.resolverKey now
    pure { r with state := s }
  | .rehome m now => do
    let v ← verifyIdentityLog r.log false
    let s ← rehomeIdentity v.state m now
    pure (r.push ⟨s.head.effectiveAt, none, some (some m), none⟩ s)

inductive Reached : Course → Prop where
  | enroll {genesis : Signed Genesis} {enrollment : Signed ResolverEnrollment}
      {resolverId : Uuid} {resolverKey : KeyId} {audience : String} {now : ℤ} {r : Course} :
      enroll genesis enrollment resolverId resolverKey audience now = .ok r → Reached r
  | next {r t : Course} {a : Act} : Reached r → r.next a = .ok t → Reached t

end Course

def IdentityState.seen (s : IdentityState) : VerifiedHead :=
  ⟨s.head, s.headDigest, s.resolverEpoch, false⟩

/-- A replay that agrees with a live state in everything but the lease fields, and with
every live state before it in the head and the epoch. -/
structure Reproduces (v : VerifiedIdentityLog) (passed : List IdentityState)
    (s : IdentityState) : Prop where
  state : v.state = s.withLease v.state.lastLeaseExpiry v.state.lastUpdate
  heads : v.heads = passed.map IdentityState.seen
  binding : v.resolver.id = s.resolverId ∧ v.resolver.keyId = s.resolverKey ∧
    v.resolver.epoch = s.resolverEpoch
  sequence : s.head.sequence + 1 = passed.length

variable {v : VerifiedIdentityLog} {passed : List IdentityState} {s : IdentityState}

theorem Reproduces.head (h : Reproduces v passed s) : v.state.head = s.head := by
  have hstate := h.state
  rw [hstate]
  rfl

theorem Reproduces.retired (h : Reproduces v passed s) : v.state.retiredKeys = s.retiredKeys := by
  have hstate := h.state
  rw [hstate]
  rfl

theorem Reproduces.withLease (h : Reproduces v passed s) (lease update : ℤ) :
    Reproduces v passed (s.withLease lease update) :=
  { h with }

/-- Recording the head of a replay that has advanced with the live state. -/
theorem Reproduces.noted {w : VerifiedIdentityLog} {t : IdentityState} (lease update : ℤ)
    (hstate : w.state = t.withLease lease update)
    (hheads : w.heads = passed.map IdentityState.seen)
    (hbinding : w.resolver.id = t.resolverId ∧ w.resolver.keyId = t.resolverKey ∧
      w.resolver.epoch = t.resolverEpoch) (hsequence : t.head.sequence = passed.length) (n : ℕ) :
    Reproduces (w.noted n) (passed ++ [t]) t where
  state := by
    show w.state = t.withLease w.state.lastLeaseExpiry w.state.lastUpdate
    rw [hstate]
    rfl
  heads := by
    show w.heads ++ [_] = _
    rw [hheads, List.map_append, List.map_singleton, hstate, hbinding.2.2]
    rfl
  binding := hbinding
  sequence := by
    rw [List.length_append, List.length_singleton, hsequence]

section
variable [Crypto]

structure Course.Orderly (r : Course) : Prop where
  nonempty : r.log.entries ≠ []
  length : r.passed.length = r.log.entries.length
  timely : r.state.Timely
  format : r.log.format = .moves

theorem Course.Reached.orderly {r : Course} (h : r.Reached) : r.Orderly := by
  induction h with
  | enroll h =>
    simp only [Course.enroll, bind_eq_ok, pure_eq_ok] at h
    obtain ⟨s, hcreate, _, -, rfl⟩ := h
    exact ⟨by simp, rfl, (created_of_createIdentity hcreate).timely, rfl⟩
  | @next r t a _ h ih =>
    cases a with
    | transition c now =>
      simp only [Course.next, bind_eq_ok, pure_eq_ok] at h
      obtain ⟨s, haccept, rfl⟩ := h
      refine ⟨by simp [Course.push], ?_, timely_transitioned ih.timely haccept, ih.format⟩
      simp [Course.push, ih.length]
    | resolve request now =>
      simp only [Course.next, bind_eq_ok, pure_eq_ok] at h
      obtain ⟨⟨s, proof⟩, hissue, rfl⟩ := h
      exact { ih with timely := timely_resolved ih.timely hissue }
    | rehome m now =>
      simp only [Course.next, bind_eq_ok, pure_eq_ok] at h
      obtain ⟨v, -, s, hadopt, rfl⟩ := h
      refine ⟨by simp [Course.push], ?_, ?_, ih.format⟩
      · simp [Course.push, ih.length]
      · obtain ⟨-, -, -, -, rfl⟩ := (rehomeIdentity_eq_ok _ _ _ _).mp hadopt
        exact timely_rehomed _ _ _

theorem reproduces_enroll {genesis : Signed Genesis} {enrollment : Signed ResolverEnrollment}
    {resolverId : Uuid} {resolverKey : KeyId} {audience : String} {now : ℤ} {s : IdentityState}
    (hcreate : createIdentity genesis resolverId resolverKey now = .ok s)
    (henroll : verifyResolverEnrollment s enrollment audience now = .ok ()) :
    ∃ v, verifyIdentityLog
        ⟨.moves, genesis, enrollment, [⟨s.head.effectiveAt, none, some none, none⟩]⟩ false =
      .ok v ∧ Reproduces v [s] s := by
  have hcreated := created_of_createIdentity hcreate
  rw [hcreated.effective]
  obtain ⟨hid, hkey, haudience⟩ := enrollment_binding henroll
  obtain ⟨hresolver, hresolverKey, hepoch⟩ := hcreated.resolver
  have hopen : openLog genesis enrollment now = .ok ⟨[], bindingOf s audience, [], [], s⟩ := by
    simp only [openLog]
    rw [hid, hkey, haudience, hresolver, hresolverKey, hcreate, ok_bind, henroll, ok_bind, pure_eq]
  have hclock := hcreated.clock
  have hlimit : clockLimit ≤ maxSafeInteger := by decide
  refine ⟨_, (verifyIdentityLog_single _ _ _ _ rfl).mpr ⟨?_, ⟨rfl, rfl⟩, _, hopen,
    record_unattested 0 _ rfl⟩, ?_⟩
  · simp only [entryShape, bind_eq_ok, demand_eq_ok]
    exact ⟨(), by simp, hclock.1, by omega⟩
  · have hnone : ([] : List VerifiedHead) = ([] : List IdentityState).map IdentityState.seen := rfl
    have hfirst := Reproduces.noted s.lastLeaseExpiry s.lastUpdate
      (w := ⟨[], bindingOf s audience, [], [], s⟩) rfl hnone ⟨rfl, rfl, rfl⟩ hcreated.sequence 0
    exact hfirst

omit [Crypto] in
theorem entryShape_moves {effective : ℤ} (h : instant effective)
    (transition : Option (Signed Transition)) (move : Option (Signed Rehome))
    (attestation : Option (Signed HeadAttestation)) :
    entryShape .moves ⟨effective, transition, some move, attestation⟩ = .ok () := by
  simp only [entryShape, bind_eq_ok, demand_eq_ok]
  exact ⟨(), by simp, h⟩

theorem instant_of_transition {s t : IdentityState} {c : Signed Transition} {now : ℤ}
    (hs : s.Timely) (h : transitionIdentity s c now = .ok t) : instant t.head.effectiveAt := by
  obtain ⟨hnow, ⟨hupdate, -⟩, -, -, rfl⟩ := (transitionIdentity_eq_ok s t c now).mp h
  have hlease : s.lastLeaseExpiry ≤ s.lastUpdate + leaseMs := hs
  have hleaseMs : leaseMs = 30000 := rfl
  have hmargin : clockMarginMs = 5000 := rfl
  have hlimit : clockLimit = maxSafeInteger - 300000 := rfl
  show 0 ≤ max now (s.lastLeaseExpiry + clockMarginMs) ∧
    max now (s.lastLeaseExpiry + clockMarginMs) ≤ maxSafeInteger
  omega

/-- A transition that the live host accepted is the next entry of the replay. -/
theorem reproduces_transition {log : IdentityLog} {t : IdentityState} {c : Signed Transition}
    {now : ℤ} (hv : verifyIdentityLog log false = .ok v) (hr : Reproduces v passed s)
    (hformat : log.format = .moves) (hne : log.entries ≠ [])
    (hlength : passed.length = log.entries.length) (hroom : log.entries.length < maxLogEntries)
    (htimely : s.Timely) (haccept : transitionIdentity s c now = .ok t)
    (hclock : WithinClock c t.head.effectiveAt) :
    ∃ w, verifyIdentityLog (log.push ⟨t.head.effectiveAt, some c, some none, none⟩) false =
      .ok w ∧ Reproduces w (passed ++ [t]) t := by
  obtain ⟨lease, update, hreplay⟩ := replay_of_transition htimely haccept hclock
    v.state.lastLeaseExpiry v.state.lastUpdate
  rw [← hr.state] at hreplay
  have hsequence : t.head.sequence = s.head.sequence + 1 := by
    obtain ⟨-, -, -, hauth, rfl⟩ := (transitionIdentity_eq_ok s t c now).mp haccept
    exact hauth.sequence
  have hcount : t.head.sequence = log.entries.length := by
    rw [hsequence, hr.sequence, hlength]
  have hbinding : v.resolver.id = t.resolverId ∧ v.resolver.keyId = t.resolverKey ∧
      v.resolver.epoch = t.resolverEpoch := by
    obtain ⟨-, -, -, -, rfl⟩ := (transitionIdentity_eq_ok s t c now).mp haccept
    exact hr.binding
  refine ⟨VerifiedIdentityLog.noted { v with state := t.withLease lease update } log.entries.length,
    (verifyIdentityLog_push _ _ _ _ hne).mpr ⟨hroom, ?_, v, hv, ?_⟩, ?_⟩
  · rw [hformat]
    exact entryShape_moves (instant_of_transition htimely haccept) _ _ _
  · have hadvance : advance v log.entries.length ⟨t.head.effectiveAt, some c, some none, none⟩ =
        .ok { v with state := t.withLease lease update } :=
      (advance_transition rfl rfl _ _ _).mpr ⟨_, hreplay, ⟨rfl, hcount⟩, rfl⟩
    simp only [replayEntry, hadvance, ok_bind]
    exact record_unattested _ _ rfl
  · exact Reproduces.noted (w := { v with state := t.withLease lease update }) lease update rfl
      hr.heads hbinding (hcount.trans hlength.symm) _

/-- A rehome that a destination adopted is the next entry of the replay. -/
theorem reproduces_rehome {log : IdentityLog} {t : IdentityState} {m : Signed Rehome} {now : ℤ}
    (hv : verifyIdentityLog log false = .ok v) (hr : Reproduces v passed s)
    (hformat : log.format = .moves) (hne : log.entries ≠ [])
    (hlength : passed.length = log.entries.length) (hroom : log.entries.length < maxLogEntries)
    (hadopt : rehomeIdentity v.state m now = .ok t) :
    ∃ w, verifyIdentityLog (log.push ⟨t.head.effectiveAt, none, some (some m), none⟩) false =
      .ok w ∧ Reproduces w (passed ++ [t]) t := by
  have hreplay := replay_of_rehome hadopt v.state.lastLeaseExpiry v.state.lastUpdate
  rw [IdentityState.withLease_self] at hreplay
  obtain ⟨hclock, -, -, hauth, ht⟩ := (rehomeIdentity_eq_ok v.state t m now).mp hadopt
  have hcount : t.head.sequence = log.entries.length := by
    have hsequence : t.head.sequence = v.state.head.sequence + 1 := by
      rw [ht]
      exact hauth.sequence
    rw [hsequence, hr.head, hr.sequence, hlength]
  have hinstant : instant t.head.effectiveAt := by
    have hat : t.head.effectiveAt = now := by rw [ht]; rfl
    have hlimit : clockLimit ≤ maxSafeInteger := by decide
    rw [hat]
    exact ⟨hclock.1, by omega⟩
  refine ⟨VerifiedIdentityLog.noted (v.moved t m.body.destination.audience) log.entries.length,
    (verifyIdentityLog_push _ _ _ _ hne).mpr ⟨hroom, ?_, v, hv, ?_⟩, ?_⟩
  · rw [hformat]
    exact entryShape_moves hinstant _ _ _
  · have hadvance : advance v log.entries.length ⟨t.head.effectiveAt, none, some (some m), none⟩ =
        .ok (v.moved t m.body.destination.audience) :=
      (advance_rehome rfl rfl _ _ _).mpr ⟨t, hreplay, ⟨rfl, hcount⟩, rfl⟩
    simp only [replayEntry, hadvance, ok_bind]
    exact record_unattested _ _ rfl
  · exact Reproduces.noted (w := v.moved t m.body.destination.audience) t.lastLeaseExpiry
      t.lastUpdate rfl hr.heads ⟨rfl, rfl, rfl⟩ (hcount.trans hlength.symm) _

/-- Every transition of the log took effect within the clock of the replay. -/
def Course.WithinClock (r : Course) : Prop :=
  ∀ e ∈ r.log.entries, ∀ c ∈ e.transition, Foundation.WithinClock c e.effectiveAt

theorem Course.Reached.reproduced {r : Course} (h : r.Reached)
    (hlength : r.log.entries.length ≤ maxLogEntries) (hclock : r.WithinClock) :
    ∃ v, verifyIdentityLog r.log false = .ok v ∧ Reproduces v r.passed r.state := by
  induction h with
  | enroll h =>
    simp only [Course.enroll, bind_eq_ok, pure_eq_ok] at h
    obtain ⟨s, hcreate, _, henroll, rfl⟩ := h
    exact reproduces_enroll hcreate henroll
  | @next r t a hr h ih =>
    have horderly := hr.orderly
    cases a with
    | transition c now =>
      simp only [Course.next, bind_eq_ok, pure_eq_ok] at h
      obtain ⟨s, haccept, rfl⟩ := h
      simp only [Course.push, IdentityLog.push_entries, List.length_append,
        List.length_singleton] at hlength
      simp only [Course.WithinClock, Course.push, IdentityLog.push_entries,
        List.forall_mem_append, List.forall_mem_singleton] at hclock
      obtain ⟨hbefore, hlast⟩ := hclock
      obtain ⟨v, hv, hreproduces⟩ := ih (by omega) hbefore
      exact reproduces_transition hv hreproduces horderly.format horderly.nonempty
        horderly.length (by omega) horderly.timely haccept (hlast c rfl)
    | resolve request now =>
      simp only [Course.next, bind_eq_ok, pure_eq_ok] at h
      obtain ⟨⟨s, proof⟩, hissue, rfl⟩ := h
      obtain ⟨v, hv, hreproduces⟩ := ih hlength hclock
      obtain ⟨-, rfl⟩ := issueResolution_eq_ok _ _ _ _ _ _ hissue
      exact ⟨v, hv, hreproduces.withLease _ _⟩
    | rehome m now =>
      simp only [Course.next, bind_eq_ok, pure_eq_ok] at h
      obtain ⟨v, hverified, s, hadopt, rfl⟩ := h
      simp only [Course.push, IdentityLog.push_entries, List.length_append,
        List.length_singleton] at hlength
      simp only [Course.WithinClock, Course.push, IdentityLog.push_entries,
        List.forall_mem_append] at hclock
      obtain ⟨w, hw, hreproduces⟩ := ih (by omega) hclock.1
      obtain rfl : v = w := Except.ok.inj (hverified.symm.trans hw)
      exact reproduces_rehome hw hreproduces horderly.format horderly.nonempty horderly.length
        (by omega) hadopt

/-- Replay reproduces the live state: the whole log, and at every entry the log up to it. -/
def Course.Replayed (r : Course) : Prop :=
  (∃ v, verifyIdentityLog r.log false = .ok v ∧ Reproduces v r.passed r.state) ∧
    ∀ n s, r.passed[n]? = some s → ∃ v, verifyIdentityLog (r.log.upTo n) false = .ok v ∧
      Reproduces v (r.passed.take (n + 1)) s

/-- What holds of a course and of every course it extends holds at each of its entries. -/
theorem replayed_push {r : Course} {e : IdentityLogEntry} {s : IdentityState}
    (hlength : r.passed.length = r.log.entries.length)
    (hbefore : ∀ n s, r.passed[n]? = some s → ∃ v, verifyIdentityLog (r.log.upTo n) false = .ok v ∧
      Reproduces v (r.passed.take (n + 1)) s)
    (hwhole : ∃ v, verifyIdentityLog (r.push e s).log false = .ok v ∧
      Reproduces v (r.push e s).passed s) (n : ℕ) (t : IdentityState)
    (hn : (r.push e s).passed[n]? = some t) :
    ∃ v, verifyIdentityLog ((r.push e s).log.upTo n) false = .ok v ∧
      Reproduces v ((r.push e s).passed.take (n + 1)) t := by
  have hbound : n < (r.passed ++ [s]).length := (List.getElem?_eq_some_iff.mp hn).1
  rw [List.length_append, List.length_singleton] at hbound
  by_cases hlast : n < r.passed.length
  · have hold : r.passed[n]? = some t := by
      rw [← hn]
      exact (List.getElem?_append_left hlast).symm
    obtain ⟨v, hv, hreproduces⟩ := hbefore n t hold
    refine ⟨v, ?_, ?_⟩
    · show verifyIdentityLog ((r.log.push e).upTo n) false = .ok v
      rw [IdentityLog.upTo_push (by omega)]
      exact hv
    · show Reproduces v ((r.passed ++ [s]).take (n + 1)) t
      rw [List.take_append_of_le_length (by omega)]
      exact hreproduces
  · have hnew : n = r.passed.length := by omega
    obtain ⟨v, hv, hreproduces⟩ := hwhole
    have hts : t = s := by
      have hget : (r.passed ++ [s])[n]? = some t := hn
      rw [hnew, List.getElem?_append_right (by omega)] at hget
      simpa using hget.symm
    refine ⟨v, ?_, ?_⟩
    · rw [IdentityLog.upTo_last]
      · exact hv
      · show (r.log.entries ++ [e]).length ≤ n + 1
        rw [List.length_append, List.length_singleton]
        omega
    · rw [hts, List.take_of_length_le]
      · exact hreproduces
      · show (r.passed ++ [s]).length ≤ n + 1
        rw [List.length_append, List.length_singleton]
        omega

theorem Course.Reached.replayed {r : Course} (h : r.Reached)
    (hlength : r.log.entries.length ≤ maxLogEntries) (hclock : r.WithinClock) : r.Replayed := by
  refine ⟨h.reproduced hlength hclock, ?_⟩
  induction h with
  | enroll h =>
    have hwhole := (Reached.enroll h).reproduced hlength hclock
    simp only [Course.enroll, bind_eq_ok, pure_eq_ok] at h
    obtain ⟨s, -, _, -, rfl⟩ := h
    intro n t hn
    have hbound := (List.getElem?_eq_some_iff.mp hn).1
    rw [List.length_singleton] at hbound
    obtain rfl : n = 0 := by omega
    obtain rfl : s = t := by simpa using hn
    exact hwhole
  | @next r t a hr h ih =>
    have hwhole := (Reached.next hr h).reproduced hlength hclock
    cases a with
    | transition c now =>
      simp only [Course.next, bind_eq_ok, pure_eq_ok] at h
      obtain ⟨s, -, rfl⟩ := h
      simp only [Course.push, IdentityLog.push_entries, List.length_append] at hlength
      simp only [Course.WithinClock, Course.push, IdentityLog.push_entries,
        List.forall_mem_append] at hclock
      exact replayed_push hr.orderly.length (ih (by omega) hclock.1) hwhole
    | resolve request now =>
      simp only [Course.next, bind_eq_ok, pure_eq_ok] at h
      obtain ⟨_, -, rfl⟩ := h
      exact ih hlength hclock
    | rehome m now =>
      simp only [Course.next, bind_eq_ok, pure_eq_ok] at h
      obtain ⟨_, -, s, -, rfl⟩ := h
      simp only [Course.push, IdentityLog.push_entries, List.length_append] at hlength
      simp only [Course.WithinClock, Course.push, IdentityLog.push_entries,
        List.forall_mem_append] at hclock
      exact replayed_push hr.orderly.length (ih (by omega) hclock.1) hwhole

/-- A log that verifies stays within the clock of the replay. -/
theorem withinClock_of_verified {log : IdentityLog} {require : Bool} {v : VerifiedIdentityLog}
    (h : verifyIdentityLog log require = .ok v) :
    ∀ e ∈ log.entries, ∀ c ∈ e.transition, WithinClock c e.effectiveAt := by
  obtain ⟨-, -, first, later, hentries, hfirst, opened, recorded, -, -, hlater⟩ :=
    (verifyIdentityLog_eq_ok log require v).mp h
  intro e he c hc
  rw [hentries] at he
  rcases List.mem_cons.mp he with rfl | he
  · rw [hfirst.1] at hc
    cases hc
  · obtain ⟨n, hn⟩ := List.mem_iff_getElem?.mp he
    have hindexed : (e, 1 + n) ∈ later.zipIdx 1 := by
      rw [List.mk_mem_zipIdx_iff_le_and_getElem?_sub]
      simpa using hn
    obtain ⟨w, x, hstep⟩ := foldlM_each hlater _ hindexed
    simp only [replayEntry, bind_eq_ok] at hstep
    obtain ⟨y, hadvance, -⟩ := hstep
    simp only [advance, follow, bind_eq_ok] at hadvance
    obtain ⟨z, hfollow, -⟩ := hadvance
    have hc' : e.transition = some c := hc
    rw [hc'] at hfollow
    cases hmove : e.move with
    | some m =>
      rw [hmove] at hfollow
      cases hfollow
    | none =>
      rw [hmove] at hfollow
      simp only [bind_eq_ok] at hfollow
      obtain ⟨t, hreplay, -⟩ := hfollow
      exact withinClock_of_replay hreplay

/-- Within the length of a log, replay reproduces a course at every entry exactly when its
transitions stay within the clock of the replay. -/
theorem log_complete (r : Course) (h : r.Reached) (hlength : r.log.entries.length ≤ maxLogEntries) :
    r.Replayed ↔ r.WithinClock := by
  constructor
  · rintro ⟨⟨v, hv, -⟩, -⟩
    exact withinClock_of_verified hv
  · exact h.replayed hlength

end

def sampleGenesis : Signed Genesis :=
  sampleSign .genesis ⟨77, ⟨[1], 1⟩, ⟨[2], 1⟩⟩ [1, 2]

def sampleEnrollment (issuedAt : ℤ) : Signed ResolverEnrollment :=
  let digest := 2 ^ 128 * 78
  sampleSign .enrollment
    ⟨identityOf digest, digest, 5, 9, "https://resolver.example", 0, issuedAt, issuedAt + 300000⟩
    [1, 2]

def sampleRotation (s : IdentityState) (added : KeyId) (issuedAt : ℤ) : Signed Transition :=
  sampleSign .transition
    ⟨s.head.identityId, s.headDigest, s.head.sequence + 1, .rotate, ⟨[added], 1⟩,
      s.head.recovery, issuedAt, issuedAt + 300000⟩
    (s.head.operational.keys ++ [added])

/-- A move to resolver 8 with its key 19. -/
def sampleRehome (s : IdentityState) (issuedAt : ℤ) : Signed Rehome :=
  sampleSign .rehome
    ⟨s.head.identityId, s.headDigest, s.head.sequence + 1, ⟨s.resolverId, s.resolverEpoch⟩,
      ⟨8, 19, "https://next.example", s.resolverEpoch + 1⟩, issuedAt, issuedAt + 300000⟩
    s.head.recovery.keys

section
variable [Crypto]

/-- Enrollment, a lease, and at the same instant a rotation, which waits for the lease. -/
def courseAt (now : ℤ) : Checked Course := do
  let enrolled ← Course.enroll sampleGenesis (sampleEnrollment now) 5 9
    "https://resolver.example" now
  let request : ResolutionRequest :=
    ⟨enrolled.state.head.identityId, "https://party.example", 0⟩
  let leased ← enrolled.next (.resolve request now)
  leased.next (.transition (sampleRotation leased.state 3 now) now)

theorem courseAt_reached {now : ℤ} {r : Course} (h : courseAt now = .ok r) : r.Reached := by
  simp only [courseAt, bind_eq_ok] at h
  obtain ⟨enrolled, henroll, leased, hlease, hrotate⟩ := h
  exact .next (.next (.enroll henroll) hlease) hrotate

end

/-- Replay follows a course at an ordinary clock. -/
theorem log_complete_sample :
    letI := sampleCrypto
    ∃ r, courseAt 1000000 = .ok r ∧ r.log.entries.length = 2 ∧ r.Replayed := by
  let := sampleCrypto
  have hrun : (courseAt 1000000 >>= fun r => pure (r.log.entries.length,
      decide (r.log.entries.all fun e => e.transition.all fun c => WithinClock c e.effectiveAt))) =
      Except.ok (2, true) := by decide
  simp only [bind_eq_ok, pure_eq_ok, Prod.mk.injEq, decide_eq_true_eq] at hrun
  obtain ⟨r, hr, hlength, hclock⟩ := hrun
  refine ⟨r, hr, hlength, (log_complete r (courseAt_reached hr) ?_).mpr ?_⟩
  · rw [hlength]
    decide
  · intro e he c hc
    have hall := List.all_eq_true.mp hclock e he
    have hc' : e.transition = some c := hc
    rw [hc'] at hall
    exact of_decide_eq_true hall

/-- At the last instant of the host's clock a lease pushes the rotation past it: the host
accepts a rotation that its own log cannot replay. -/
theorem late_clock_unreplayed :
    letI := sampleCrypto
    ∃ r, courseAt clockLimit = .ok r ∧ r.Reached ∧ r.log.entries.length ≤ maxLogEntries ∧
      ¬r.Replayed := by
  let := sampleCrypto
  have hrun : (courseAt clockLimit >>= fun r => pure (r.log.entries.length,
      (verifyIdentityLog r.log false).toBool)) = Except.ok (2, false) := by decide
  simp only [bind_eq_ok, pure_eq_ok, Prod.mk.injEq] at hrun
  obtain ⟨r, hr, hlength, hrefused⟩ := hrun
  refine ⟨r, hr, courseAt_reached hr, ?_, ?_⟩
  · rw [hlength]
    decide
  · rintro ⟨⟨v, hv, -⟩, -⟩
    rw [hv] at hrefused
    exact Bool.noConfusion hrefused

end DirectTrade.Foundation
