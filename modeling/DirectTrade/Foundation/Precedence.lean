import DirectTrade.Foundation.KeySets
import DirectTrade.Foundation.Pins

/-!
Precedence between two histories of one person. Where one supersedes the other, the
recovery quorum of their last shared head leads its branch and is in force at the end of the
other; where they agree, they agree on every resolver but the first, which no head commits
to and which only the pin of a relying party holds fast.
-/

namespace DirectTrade.Foundation

open Library Outcome

/-- The kinds of entry that answer to the recovery quorum. -/
def IdentityLogEntry.recoveryAuthorized (e : IdentityLogEntry) : Bool :=
  e.move.isSome || e.transition.any fun c => c.body.kind ≠ .rotate

/-- The binding that a move leads to. -/
def RehomeTo.binding (t : RehomeTo) : ResolverBinding :=
  ⟨t.resolverEpoch, t.resolverId, t.resolverKey, t.audience⟩

def ResolverEnrollment.binding (b : ResolverEnrollment) : ResolverBinding :=
  ⟨0, b.resolverId, b.resolverKey, b.audience⟩

def IdentityLog.moves (log : IdentityLog) : List Rehome :=
  log.entries.filterMap fun e => e.move.map Signed.body

section
variable [Crypto]

/-- The signatures of an entry include a quorum of a key set. -/
inductive SignedBy (quorum : KeySet) (e : IdentityLogEntry) : Prop where
  | transition (c : Signed Transition) (signers : List KeyId) (carries : e.transition = some c)
      (signed : verified c.signatures (.transition c.body) = .ok signers)
      (reached : quorum.signedBy signers)
  | rehome (m : Signed Rehome) (signers : List KeyId) (carries : e.move = some m)
      (signed : verified m.signatures (.rehome m.body) = .ok signers)
      (reached : quorum.signedBy signers)

/-- An entry leaves the recovery quorum and the epoch as they are, or that quorum signed it. -/
inductive Entered (prior : VerifiedHead) (e : IdentityLogEntry) (h : VerifiedHead) : Prop where
  | rotated (quiet : e.recoveryAuthorized = false)
      (recovery : h.head.recovery = prior.head.recovery) (epoch : h.epoch = prior.epoch)
  | recovered (authorized : e.recoveryAuthorized = true)
      (signed : SignedBy prior.head.recovery e)

/-- What the entries of a verified log owe to the quorums, and the bindings they make. -/
structure Chronicle (log : IdentityLog) (v : VerifiedIdentityLog) : Prop where
  entered : HashChain.Linked Entered v.heads log.entries
  start : ∃ h, v.heads[0]? = some h ∧ h.head.recovery = log.genesis.body.recovery ∧ h.epoch = 0
  genesis : v.genesisDigest = Crypto.digest (.message (.genesis log.genesis.body))
  keys : KeySets v.state
  bindings : v.resolvers = log.enrollment.body.binding :: log.moves.map (·.destination.binding)

theorem chronicle_single {require : Bool} {log : IdentityLog} {first : IdentityLogEntry}
    {opened v : VerifiedIdentityLog} (hentries : log.entries = [first])
    (hmove : first.move = none)
    (hopen : openLog log.genesis log.enrollment first.effectiveAt = .ok opened)
    (hrecord : record require 0 first opened = .ok v) : Chronicle log v := by
  simp only [openLog, bind_eq_ok, pure_eq_ok] at hopen
  obtain ⟨s, hcreate, _, henrolled, rfl⟩ := hopen
  have hkeys := KeySets.created hcreate
  have hcreated := created_of_createIdentity hcreate
  obtain ⟨hid, hkey, hepoch⟩ := hcreated.resolver
  obtain ⟨unattested, -, rfl⟩ := record_eq_ok hrecord
  have hgenesis : s.genesisDigest = Crypto.digest (.message (.genesis log.genesis.body)) ∧
      s.head.recovery = log.genesis.body.recovery := by
    simp only [createIdentity, bind_eq_ok, pure_eq_ok] at hcreate
    obtain ⟨_, -, _, -, _, -, _, -, _, -, _, -, rfl⟩ := hcreate
    exact ⟨rfl, rfl⟩
  refine ⟨?_, ⟨_, rfl, hgenesis.2, hepoch⟩, hgenesis.1, hkeys, ?_⟩
  · intro n prior h _ hlast
    cases hlast
  · simp [VerifiedIdentityLog.resolvers, IdentityLog.moves, hentries, hmove, bindingOf,
      ResolverEnrollment.binding, hid, hkey, hepoch]

theorem opening_quiet {require : Bool} {log : IdentityLog} {v : VerifiedIdentityLog}
    (h : verifyIdentityLog log require = .ok v) :
    ∃ e, log.entries[0]? = some e ∧ e.recoveryAuthorized = false := by
  obtain ⟨-, -, first, later, hentries, ⟨htransition, hmove⟩, -⟩ :=
    (verifyIdentityLog_eq_ok _ _ _).mp h
  refine ⟨first, by rw [hentries]; rfl, ?_⟩
  simp [IdentityLogEntry.recoveryAuthorized, htransition, hmove]

/-- A transition that a replay follows is signed by the quorum of its kind. -/
theorem replayTransition_authorized {s t : IdentityState} {c : Signed Transition} {effective : ℤ}
    (h : replayTransition s c effective = .ok t) :
    TransitionAuthorized s c ∧ t.head.recovery = c.body.recovery ∧
      (KeySets s → KeySets t) := by
  simp only [replayTransition, bind_eq_ok, demand_eq_ok, transitionIdentity_eq_ok] at h
  obtain ⟨_, -, _, -, -, -, -, hauth, rfl⟩ := h
  have hlease := hauth.withLease s.lastLeaseExpiry s.lastUpdate
  exact ⟨hlease, rfl, fun hs => KeySets.transitioned (hs.withLease _ _) hauth _ _⟩

theorem replayRehome_authorized {s t : IdentityState} {m : Signed Rehome} {effective : ℤ}
    (h : replayRehome s m effective = .ok t) :
    RehomeAuthorized s m ∧ (KeySets s → KeySets t) := by
  simp only [replayRehome, bind_eq_ok, demand_eq_ok, rehomeIdentity_eq_ok] at h
  obtain ⟨_, -, _, -, -, -, -, hauth, rfl⟩ := h
  have hlease := hauth.withLease s.lastLeaseExpiry s.lastUpdate
  exact ⟨hlease, fun hs => KeySets.rehomed (hs.withLease _ _) hauth _⟩

/-- The head of a transition: by the recovery quorum, or with the recovery quorum kept. -/
theorem entered_transition {s t : IdentityState} {c : Signed Transition} {e : IdentityLogEntry}
    {prior h : VerifiedHead} (hcarries : e.transition = some c) (hmove : e.move = none)
    (hauth : TransitionAuthorized s c) (hrecovery : t.head.recovery = c.body.recovery)
    (hprior : prior.head = s.head) (hhead : h.head = t.head) (hepoch : h.epoch = prior.epoch) :
    Entered prior e h := by
  obtain ⟨signers, hsigned, hquorum, -⟩ := hauth.signed
  have hconfined := hauth.confined
  cases hkind : c.body.kind with
  | rotate =>
    refine .rotated ?_ ?_ hepoch
    · simp [IdentityLogEntry.recoveryAuthorized, hcarries, hmove, hkind]
    · simp only [Transition.confined, hkind, demand_eq_ok] at hconfined
      rw [hhead, hrecovery, hconfined, hprior]
  | recover | recoveryPolicy =>
    refine .recovered ?_ (.transition c signers hcarries hsigned ?_)
    · simp [IdentityLogEntry.recoveryAuthorized, hcarries, hkind]
    · rw [hkind] at hquorum
      rw [hprior]
      exact hquorum

theorem chronicle_of_verified {require : Bool} {log : IdentityLog} {v : VerifiedIdentityLog}
    (h : verifyIdentityLog log require = .ok v) : Chronicle log v := by
  refine verified_induction (P := Chronicle) ?_ ?_ h
  · intro log first opened v hentries hmove hopen hrecord
    exact chronicle_single hentries hmove hopen hrecord
  · intro log e v x hne hverified hv hstep
    have hlineage := lineage_of_verified hverified
    simp only [replayEntry, advance, bind_eq_ok, demand_eq_ok, pure_eq_ok] at hstep
    obtain ⟨_, ⟨w, hfollow, _, -, rfl⟩, hrecord⟩ := hstep
    obtain ⟨unattested, -, rfl⟩ := record_eq_ok hrecord
    obtain ⟨h₀, hstart, hrecovery₀, hepoch₀⟩ := hv.start
    have hlast : ∀ prior, v.heads.getLast? = some prior →
        prior.head = v.state.head ∧ prior.epoch = v.resolver.epoch := by
      intro prior hprior
      obtain ⟨last, hget, hhead, -, hepoch⟩ := hlineage.last
      have hlength := hlineage.sequence
      rw [List.getLast?_eq_getElem?, ← hlength, Nat.add_sub_cancel, hget] at hprior
      obtain rfl := Option.some.inj hprior
      exact ⟨hhead, hepoch⟩
    have hfirst : ∀ heads : List VerifiedHead, heads = v.heads → ∀ y : VerifiedHead,
        ∃ h, (heads ++ [y])[0]? = some h ∧ h.head.recovery = log.genesis.body.recovery ∧
          h.epoch = 0 := by
      rintro heads rfl y
      refine ⟨h₀, ?_, hrecovery₀, hepoch₀⟩
      rw [List.getElem?_append_left (List.getElem?_eq_some_iff.mp hstart).1]
      exact hstart
    unfold follow at hfollow
    split at hfollow
    · rename_i command hcommand hmove
      simp only [bind_eq_ok, pure_eq_ok] at hfollow
      obtain ⟨t, hreplay, rfl⟩ := hfollow
      obtain ⟨hauth, hrecovery, hkeys⟩ := replayTransition_authorized hreplay
      obtain ⟨-, -, -, hgenesis, -, -⟩ := replayTransition_eq_ok hreplay
      refine ⟨hv.entered.append hlineage.length ?_, hfirst _ rfl _,
        hgenesis.trans hv.genesis, hkeys hv.keys, ?_⟩
      · intro prior hprior
        obtain ⟨hhead, hepoch⟩ := hlast prior hprior
        exact entered_transition hcommand hmove hauth hrecovery hhead rfl hepoch.symm
      · have hmoves : (log.push e).moves = log.moves := by
          simp [IdentityLog.moves, hmove]
        rw [hmoves]
        exact hv.bindings
    · rename_i move hcommand hmove
      simp only [bind_eq_ok, pure_eq_ok] at hfollow
      obtain ⟨t, hreplay, rfl⟩ := hfollow
      obtain ⟨hauth, hkeys⟩ := replayRehome_authorized hreplay
      obtain ⟨-, -, -, -, hgenesis, -, hid, hkey, hepoch⟩ := replayRehome_eq_ok hreplay
      refine ⟨hv.entered.append hlineage.length ?_, hfirst _ rfl _,
        hgenesis.trans hv.genesis, hkeys hv.keys, ?_⟩
      · intro prior hprior
        obtain ⟨hhead, -⟩ := hlast prior hprior
        obtain ⟨signers, hsigned, hquorum⟩ := hauth.signed
        refine .recovered ?_ (.rehome move signers hmove hsigned ?_)
        · simp [IdentityLogEntry.recoveryAuthorized, hmove]
        · rw [hhead]
          exact hquorum
      · have hmoves : (log.push e).moves = log.moves ++ [move.body] := by
          simp [IdentityLog.moves, hmove]
        have hbinding : bindingOf t move.body.destination.audience =
            move.body.destination.binding := by
          simp only [bindingOf, RehomeTo.binding, hid, hkey, hepoch, hauth.advances]
        show v.resolvers ++ [bindingOf t move.body.destination.audience] = _
        rw [hmoves, List.map_append, hbinding, hv.bindings]
        rfl
    · cases hfollow

variable {D : Set Document} {log log' : IdentityLog} {v w : VerifiedIdentityLog}

/-- Up to a place, the heads of two logs have the same digests. -/
def AgreeTo (v w : VerifiedIdentityLog) (n : ℕ) : Prop :=
  ∀ m ≤ n, ∀ x y, v.heads[m]? = some x → w.heads[m]? = some y → x.headDigest = y.headDigest

omit [Crypto] in
theorem getElem?_of_lt {α : Type} {l : List α} {n : ℕ} (h : n < l.length) :
    ∃ a, l[n]? = some a := ⟨_, List.getElem?_eq_getElem h⟩

theorem Follows.epoch_eq {prior x : VerifiedHead} {e : IdentityLogEntry} (h : Follows prior e x) :
    x.epoch = prior.epoch + if (e.move.map Signed.body).isSome then 1 else 0 := by
  cases h with
  | transition hmove hepoch _ => simp [hmove, hepoch]
  | rehome hmove hepoch _ _ _ => simp [hmove, hepoch]

/-- Histories that agree up to a head are at one epoch there. -/
theorem epochs_agree (hD : D.InjOn Crypto.digest) (hv : Lineage log v) (hw : Lineage log' w)
    (hc : Chronicle log v) (hc' : Chronicle log' w) (hlog : ∀ d ∈ documents log v, d ∈ D)
    (hlog' : ∀ d ∈ documents log' w, d ∈ D) {n : ℕ} (hagree : AgreeTo v w n) {x y : VerifiedHead}
    (hx : v.heads[n]? = some x) (hy : w.heads[n]? = some y) : x.epoch = y.epoch := by
  induction n generalizing x y with
  | zero =>
    obtain ⟨h, hh, -, hepoch⟩ := hc.start
    obtain ⟨h', hh', -, hepoch'⟩ := hc'.start
    obtain rfl := Option.some.inj (hh.symm.trans hx)
    obtain rfl := Option.some.inj (hh'.symm.trans hy)
    rw [hepoch, hepoch']
  | succ n ih =>
    obtain ⟨prior, hprior⟩ := getElem?_of_lt
      (Nat.lt_of_succ_lt (List.getElem?_eq_some_iff.mp hx).1)
    obtain ⟨prior', hprior'⟩ := getElem?_of_lt
      (Nat.lt_of_succ_lt (List.getElem?_eq_some_iff.mp hy).1)
    have hepoch := ih (fun m hm => hagree m (by omega)) hprior hprior'
    obtain ⟨e, e', -, -, hfollows, hfollows', hmove⟩ := moves_agree hD hv hw hlog hlog' hprior hx
      hprior' hy (hagree (n + 1) (le_refl _) x y hx hy)
    rw [hfollows.epoch_eq, hfollows'.epoch_eq, hepoch, hmove]

/-- A branch that reaches a later epoch has a first entry by the recovery quorum, and that is
the quorum of the head it starts from. -/
theorem first_recovery (hv : Lineage log v) (hc : Chronicle log v) {j : ℕ} {h : VerifiedHead}
    (hh : v.heads[j]? = some h) (hepoch : h.epoch < v.resolver.epoch) :
    ∃ n e, j < n ∧ log.entries[n]? = some e ∧ e.recoveryAuthorized = true ∧
      (∀ m f, j < m → m < n → log.entries[m]? = some f → f.recoveryAuthorized = false) ∧
      SignedBy h.head.recovery e := by
  have hj := (List.getElem?_eq_some_iff.mp hh).1
  obtain ⟨k, hk⟩ := Nat.exists_eq_add_of_lt hj
  induction k generalizing j h with
  | zero =>
    obtain ⟨last, hget, -, -, hlast⟩ := hv.last
    have hend : v.state.head.sequence = j := by
      have hlength := hv.sequence
      omega
    rw [hend, hh] at hget
    obtain rfl := Option.some.inj hget
    omega
  | succ k ih =>
    obtain ⟨next, hnext⟩ := getElem?_of_lt (l := v.heads) (n := j + 1) (by omega)
    obtain ⟨e, he, hentered⟩ := hc.entered j h next hh hnext
    cases hentered with
    | recovered hauthorized hsigned =>
      refine ⟨j + 1, e, Nat.lt_succ_self j, he, hauthorized, ?_, hsigned⟩
      intro m f hlow hhigh _
      omega
    | rotated hquiet hrecovery hsame =>
      obtain ⟨n, f, hn, hf, hauthorized, hbetween, hsigned⟩ := ih hnext (by omega)
        (List.getElem?_eq_some_iff.mp hnext).1 (by omega)
      refine ⟨n, f, by omega, hf, hauthorized, ?_, hrecovery ▸ hsigned⟩
      intro m g hlow hhigh hg
      by_cases hm : m = j + 1
      · rw [hm, he] at hg
        exact Option.some.inj hg ▸ hquiet
      · exact hbetween m g (by omega) hhigh hg

omit [Crypto] in
theorem sameQuorum_eq_true {a b : KeySet} (h : sameQuorum a b = true) :
    a.threshold = b.threshold ∧ a.keys.Perm b.keys := by
  simpa [sameQuorum, List.isPerm_iff] using h

omit [Crypto] in
theorem signedBy_of_perm {a b : KeySet} (hthreshold : a.threshold = b.threshold)
    (hperm : a.keys.Perm b.keys) {signers : List KeyId} (h : a.signedBy signers) :
    b.signedBy signers := by
  have hlength := (hperm.filter (· ∈ signers)).length_eq
  show b.threshold ≤ (b.keys.filter (· ∈ signers)).length
  rw [← hthreshold, ← hlength]
  exact h

theorem SignedBy.perm {a b : KeySet} {e : IdentityLogEntry} (h : SignedBy a e)
    (hthreshold : a.threshold = b.threshold) (hperm : a.keys.Perm b.keys) : SignedBy b e := by
  cases h with
  | transition c signers hcarries hsigned hreached =>
    exact .transition c signers hcarries hsigned (signedBy_of_perm hthreshold hperm hreached)
  | rehome m signers hcarries hsigned hreached =>
    exact .rehome m signers hcarries hsigned (signedBy_of_perm hthreshold hperm hreached)

omit [Crypto] in
theorem forkPoint_eq_some {a b : List VerifiedHead} {fork : ℕ} (h : forkPoint a b = some fork) :
    (∃ x y, a[fork]? = some x ∧ b[fork]? = some y ∧ x.headDigest ≠ y.headDigest) ∧
      ∀ m < fork, ∀ x y, a[m]? = some x → b[m]? = some y → x.headDigest = y.headDigest := by
  induction a generalizing b fork with
  | nil => exact nomatch h
  | cons c cs ih =>
    cases b with
    | nil => exact nomatch h
    | cons d ds =>
      unfold forkPoint at h
      split at h
      · rename_i hcd
        obtain ⟨n, hn, rfl⟩ := Option.map_eq_some_iff.mp h
        obtain ⟨hparts, hshared⟩ := ih hn
        refine ⟨hparts, fun m hm x y hx hy => ?_⟩
        cases m with
        | zero =>
          obtain rfl := Option.some.inj hx
          obtain rfl := Option.some.inj hy
          exact hcd
        | succ m => exact hshared m (by omega) x y hx hy
      · rename_i hcd
        obtain rfl := Option.some.inj h
        exact ⟨⟨c, d, rfl, rfl, hcd⟩, fun m hm => absurd hm (Nat.not_lt_zero m)⟩

omit [Crypto] in
theorem forkPoint_comm (a b : List VerifiedHead) : forkPoint a b = forkPoint b a := by
  induction a generalizing b with
  | nil => cases b <;> rfl
  | cons c cs ih =>
    cases b with
    | nil => rfl
    | cons d ds =>
      unfold forkPoint
      by_cases hcd : c.headDigest = d.headDigest
      · rw [if_pos hcd, if_pos hcd.symm, ih ds]
      · rw [if_neg hcd, if_neg fun hdc => hcd hdc.symm]

/-- The verdict with the histories exchanged. -/
def Precedence.mirror : Precedence → Precedence
  | .equal => .equal
  | .aExtendsB => .bExtendsA
  | .bExtendsA => .aExtendsB
  | .aSupersedesB => .bSupersedesA
  | .bSupersedesA => .aSupersedesB
  | .conflict => .conflict

omit [Crypto] in
theorem precedence_mirror (a b : VerifiedIdentityLog) :
    precedence b a = Precedence.mirror <$> precedence a b := by
  unfold precedence
  by_cases hsame : a.identityId = b.identityId ∧ a.genesisDigest = b.genesisDigest
  · rw [demand_true _ _ hsame, demand_true _ _ ⟨hsame.1.symm, hsame.2.symm⟩, ok_bind, ok_bind,
      forkPoint_comm b.heads a.heads]
    cases forkPoint a.heads b.heads with
    | none =>
      rcases Nat.lt_trichotomy a.heads.length b.heads.length with hlt | heq | hgt
      · simp [hlt.ne, hlt.ne', hlt, Nat.lt_asymm hlt, pure_eq, Precedence.mirror]
      · simp [heq, pure_eq, Precedence.mirror]
      · simp [hgt.ne, hgt.ne', hgt, Nat.lt_asymm hgt, pure_eq, Precedence.mirror]
    | some fork =>
      rcases Nat.lt_trichotomy a.resolver.epoch b.resolver.epoch with hlt | heq | hgt
      · cases hstands : quorumStands b a fork <;>
          simp [hlt.ne, hlt.ne', hlt, Nat.lt_asymm hlt, hstands, pure_eq, Precedence.mirror]
      · simp [heq, pure_eq, Precedence.mirror]
      · cases hstands : quorumStands a b fork <;>
          simp [hgt.ne, hgt.ne', hgt, Nat.lt_asymm hgt, hstands, pure_eq, Precedence.mirror]
  · have hsame' : ¬(b.identityId = a.identityId ∧ b.genesisDigest = a.genesisDigest) :=
      fun h => hsame ⟨h.1.symm, h.2.symm⟩
    rw [demand, demand, if_neg hsame, if_neg hsame']
    rfl

/-- The recovery quorum in force where two histories part: that of the last shared head, or
of the common genesis when they share none. -/
def InForceAt (log log' : IdentityLog) (v w : VerifiedIdentityLog) (quorum : KeySet) : ℕ → Prop
  | 0 => log.genesis.body = log'.genesis.body ∧ log.genesis.body.recovery = quorum
  | n + 1 => ∃ x y, v.heads[n]? = some x ∧ w.heads[n]? = some y ∧ x.head = y.head ∧
      x.head.recovery = quorum

/-- One history outranks another from the place where they part. -/
structure Supersedes (log log' : IdentityLog) (winner loser : VerifiedIdentityLog) (fork : ℕ)
    (quorum : KeySet) : Prop where
  parts : ∃ x y, winner.heads[fork]? = some x ∧ loser.heads[fork]? = some y ∧
    x.headDigest ≠ y.headDigest
  shared : ∀ m < fork, ∀ x y, winner.heads[m]? = some x → loser.heads[m]? = some y →
    x.headDigest = y.headDigest
  epoch : loser.resolver.epoch < winner.resolver.epoch
  inForce : InForceAt log log' winner loser quorum fork
  stands : quorum.threshold = loser.head.recovery.threshold ∧
    quorum.keys.Perm loser.head.recovery.keys
  leads : ∃ n e, fork ≤ n ∧ log.entries[n]? = some e ∧ e.recoveryAuthorized = true ∧
    (∀ m f, fork ≤ m → m < n → log.entries[m]? = some f → f.recoveryAuthorized = false) ∧
    SignedBy quorum e ∧ SignedBy loser.head.recovery e
  unretired : ∀ k ∈ quorum.keys, k ∉ loser.state.retiredKeys

theorem supersedes_of_precedence (hD : D.InjOn Crypto.digest) {require require' : Bool}
    (hv : verifyIdentityLog log require = .ok v) (hw : verifyIdentityLog log' require' = .ok w)
    (hlog : ∀ d ∈ documents log v, d ∈ D) (hlog' : ∀ d ∈ documents log' w, d ∈ D)
    (hgenesis : .message (.genesis log.genesis.body) ∈ D)
    (hgenesis' : .message (.genesis log'.genesis.body) ∈ D)
    (h : precedence v w = .ok .aSupersedesB) :
    ∃ fork quorum, Supersedes log log' v w fork quorum := by
  have hl := lineage_of_verified hv
  have hl' := lineage_of_verified hw
  have hc := chronicle_of_verified hv
  have hc' := chronicle_of_verified hw
  simp only [precedence, bind_eq_ok, demand_eq_ok] at h
  obtain ⟨_, ⟨-, hsame⟩, h⟩ := h
  cases hfork : forkPoint v.heads w.heads with
  | none =>
    rw [hfork] at h
    dsimp only at h
    split at h
    · exact nomatch h
    · split at h <;> exact nomatch h
  | some fork =>
    rw [hfork] at h
    dsimp only at h
    split at h
    · exact nomatch h
    split at h
    · rename_i hepoch
      obtain ⟨hparts, hshared⟩ := forkPoint_eq_some hfork
      split at h
      · rename_i hstands
        obtain ⟨shared, hget, hquorum⟩ := (Option.any_eq_true _ _).mp hstands
        obtain ⟨hthreshold, hperm⟩ := sameQuorum_eq_true hquorum
        have hunretired : ∀ k ∈ shared.head.recovery.keys, k ∉ w.state.retiredKeys := by
          intro k hk hretired
          have hcontrol : k ∈ w.state.head.keys := List.mem_append_right _ (hperm.mem_iff.mp hk)
          exact hc'.keys.retired k hretired hcontrol
        obtain ⟨hinForce, hbefore, hquiet⟩ :
            InForceAt log log' v w shared.head.recovery fork ∧
              shared.epoch ≤ w.resolver.epoch ∧
              ∀ f, fork ≤ fork - 1 → log.entries[fork - 1]? = some f →
                f.recoveryAuthorized = false := by
          cases fork with
          | zero =>
            obtain ⟨first, hfirst, hrecovery, hzero⟩ := hc.start
            obtain rfl := Option.some.inj (hfirst.symm.trans hget)
            rw [hc.genesis, hc'.genesis] at hsame
            have hbodies := hD hgenesis hgenesis' hsame
            simp only [Document.message.injEq, Message.genesis.injEq] at hbodies
            refine ⟨⟨hbodies, hrecovery.symm⟩, by omega, fun f _ hf => ?_⟩
            obtain ⟨e, he, hquiet⟩ := opening_quiet hv
            exact Option.some.inj (he.symm.trans hf) ▸ hquiet
          | succ j =>
            obtain ⟨x, y, -, hy, -⟩ := hparts
            obtain ⟨prior, hprior⟩ := getElem?_of_lt
              (Nat.lt_of_succ_lt (List.getElem?_eq_some_iff.mp hy).1)
            have hhead := head_eq_of_digest hD hl hl' hlog hlog' hget hprior
              (hshared j (Nat.lt_succ_self j) _ _ hget hprior)
            have hagree : AgreeTo v w j := fun m hm => hshared m (by omega)
            have hsameEpoch := epochs_agree hD hl hl' hc hc' hlog hlog' hagree hget hprior
            have hbelow := hl'.below prior (List.mem_of_getElem? hprior)
            exact ⟨⟨shared, prior, hget, hprior, hhead, rfl⟩, by omega, fun f hle _ => by omega⟩
        obtain ⟨n, e, hn, he, hauthorized, hbetween, hsigned⟩ :=
          first_recovery hl hc hget (by omega)
        refine ⟨fork, shared.head.recovery, hparts, hshared, hepoch, hinForce,
          ⟨hthreshold, hperm⟩, ?_, hunretired⟩
        refine ⟨n, e, by omega, he, hauthorized, ?_, hsigned, hsigned.perm hthreshold hperm⟩
        intro m f hlow hhigh hf
        by_cases hm : fork - 1 < m
        · exact hbetween m f hm hhigh hf
        · obtain rfl : m = fork - 1 := by omega
          exact hquiet f hlow hf
      · exact nomatch h
    · split at h <;> exact nomatch h

/-- The two readings of a pair of histories mirror each other, and a history that supersedes
another does so by a recovery quorum that the other had not retired. -/
theorem precedence_coherent (hD : D.InjOn Crypto.digest) {require require' : Bool}
    (hv : verifyIdentityLog log require = .ok v) (hw : verifyIdentityLog log' require' = .ok w)
    (hlog : ∀ d ∈ documents log v, d ∈ D) (hlog' : ∀ d ∈ documents log' w, d ∈ D)
    (hgenesis : .message (.genesis log.genesis.body) ∈ D)
    (hgenesis' : .message (.genesis log'.genesis.body) ∈ D) :
    precedence w v = Precedence.mirror <$> precedence v w ∧
      (precedence v w = .ok .aSupersedesB →
        ∃ fork quorum, Supersedes log log' v w fork quorum) ∧
      (precedence v w = .ok .bSupersedesA →
        ∃ fork quorum, Supersedes log' log w v fork quorum) := by
  refine ⟨precedence_mirror v w,
    supersedes_of_precedence hD hv hw hlog hlog' hgenesis hgenesis', fun h => ?_⟩
  have hmirrored : precedence w v = .ok .aSupersedesB := by
    rw [precedence_mirror v w, h]
    rfl
  exact supersedes_of_precedence hD hw hv hlog' hlog hgenesis' hgenesis hmirrored

end

/-- A move that supersedes a rotation of the same head. -/
theorem precedence_coherent_sample :
    letI := sampleCrypto
    ∃ log log' v w, verifyIdentityLog log false = .ok v ∧ verifyIdentityLog log' false = .ok w ∧
      precedence v w = .ok .aSupersedesB ∧ ∃ fork quorum, Supersedes log log' v w fork quorum := by
  let := sampleCrypto
  have hrun : (do
      let enrolled ← enrolledSample
      let moved ← enrolled.next (.rehome (sampleRehome enrolled.state 1200000) 1200000)
      let rotated ← enrolled.next
        (.transition (sampleRotation enrolled.state 3 1100000) 1100000)
      let v ← verifyIdentityLog moved.log false
      let w ← verifyIdentityLog rotated.log false
      let docs := documents moved.log v ++ documents rotated.log w ++
        [.message (.genesis moved.log.genesis.body),
          .message (.genesis rotated.log.genesis.body)]
      pure (decide (precedence v w = .ok .aSupersedesB),
        decide (∀ d ∈ docs, ∀ d' ∈ docs, Crypto.digest d = Crypto.digest d' → d = d')) :
      Checked (Bool × Bool)) = .ok (true, true) := by decide
  simp only [bind_eq_ok, pure_eq_ok, Prod.mk.injEq, decide_eq_true_eq] at hrun
  obtain ⟨enrolled, -, moved, -, rotated, -, v, hv, w, hw, hverdict, hdistinct⟩ := hrun
  let D : Set Document := {d | d ∈ documents moved.log v ++ documents rotated.log w ++
    [.message (.genesis moved.log.genesis.body), .message (.genesis rotated.log.genesis.body)]}
  have hD : D.InjOn Crypto.digest := fun d hd d' hd' heq => hdistinct d hd d' hd' heq
  have hcoherent := precedence_coherent hD hv hw
    (fun d hd => List.mem_append_left _ (List.mem_append_left _ hd))
    (fun d hd => List.mem_append_left _ (List.mem_append_right _ hd))
    (List.mem_append_right _ (by simp)) (List.mem_append_right _ (by simp))
  exact ⟨moved.log, rotated.log, v, w, hv, hw, hverdict, hcoherent.2.1 hverdict⟩

/-- The binding of a history at an epoch. -/
def VerifiedIdentityLog.bindingAt (v : VerifiedIdentityLog) (epoch : ℕ) :
    Option ResolverBinding := v.resolvers.find? fun r => r.epoch = epoch

/-- The verdicts under which two histories are one. -/
def Precedence.oneHistory : Precedence → Bool
  | .equal | .aExtendsB | .bExtendsA => true
  | .aSupersedesB | .bSupersedesA | .conflict => false

section
variable [Crypto] {D : Set Document} {log log' : IdentityLog} {v w : VerifiedIdentityLog}

omit [Crypto] in
theorem agree_of_precedence {r : Precedence} (h : precedence v w = .ok r)
    (hr : r.oneHistory = true) (n : ℕ) : AgreeTo v w n := by
  simp only [precedence, bind_eq_ok] at h
  obtain ⟨_, -, h⟩ := h
  cases hfork : forkPoint v.heads w.heads with
  | none => exact fun m _ x y hx hy => agree_of_forkPoint hfork m hx hy
  | some fork =>
    rw [hfork] at h
    dsimp only at h
    split at h
    · obtain rfl := (pure_eq_ok _ _).mp h
      cases hr
    · split at h <;> obtain rfl := (pure_eq_ok _ _).mp h <;> split at hr <;> cases hr

/-- The moves of a history are the first moves of one that extends it. -/
theorem moves_prefix (hD : D.InjOn Crypto.digest) (hv : Lineage log v) (hw : Lineage log' w)
    (hlog : ∀ d ∈ documents log v, d ∈ D) (hlog' : ∀ d ∈ documents log' w, d ∈ D)
    (hagree : ∀ n, AgreeTo v w n) (hle : v.heads.length ≤ w.heads.length) :
    log.moves <+: log'.moves := by
  let body : IdentityLogEntry → Option Rehome := fun e => e.move.map Signed.body
  have hlength := hv.length
  have hlength' := hw.length
  have hprefix : log.entries.map body <+: log'.entries.map body := by
    rw [List.prefix_iff_eq_take]
    apply List.ext_getElem?
    intro n
    rw [List.length_map]
    by_cases hn : n < log.entries.length
    · rw [List.getElem?_take_of_lt hn, List.getElem?_map, List.getElem?_map]
      cases n with
      | zero =>
        obtain ⟨e, he, hmove⟩ := hv.genesis
        obtain ⟨e', he', hmove'⟩ := hw.genesis
        rw [he, he']
        show some (e.move.map Signed.body) = some (e'.move.map Signed.body)
        rw [hmove, hmove']
      | succ n =>
        obtain ⟨prior, hprior⟩ := getElem?_of_lt (l := v.heads) (n := n) (by omega)
        obtain ⟨x, hx⟩ := getElem?_of_lt (l := v.heads) (n := n + 1) (by omega)
        obtain ⟨prior', hprior'⟩ := getElem?_of_lt (l := w.heads) (n := n) (by omega)
        obtain ⟨y, hy⟩ := getElem?_of_lt (l := w.heads) (n := n + 1) (by omega)
        obtain ⟨e, e', he, he', -, -, hmove⟩ := moves_agree hD hv hw hlog hlog' hprior hx hprior'
          hy (hagree (n + 1) (n + 1) (le_refl _) x y hx hy)
        rw [he, he']
        exact congrArg some hmove
    · rw [List.getElem?_eq_none (by simp; omega), List.getElem?_eq_none (by simp; omega)]
  have hfiltered := hprefix.filterMap id
  rw [List.filterMap_map, List.filterMap_map] at hfiltered
  exact hfiltered

theorem bindingAt_eq (h : Lineage log v) (n : ℕ) : v.bindingAt n = v.resolvers[n]? := by
  have hepoch : ∀ r, v.resolvers[n]? = some r → r.epoch = n := by
    intro r hr
    have hget : (v.resolvers.map ResolverBinding.epoch)[n]? = some r.epoch := by
      rw [List.getElem?_map, hr]
      rfl
    rw [h.epochs] at hget
    obtain ⟨hbound, hat⟩ := List.getElem?_eq_some_iff.mp hget
    rw [List.getElem_range] at hat
    exact hat.symm
  cases hfind : v.bindingAt n with
  | none =>
    cases hget : v.resolvers[n]? with
    | none => rfl
    | some r =>
      have hnone := List.find?_eq_none.mp hfind r (List.mem_of_getElem? hget)
      exact absurd (decide_eq_true (hepoch r hget)) hnone
  | some r =>
    have hmem := List.mem_of_find?_eq_some hfind
    have hat : r.epoch = n := by simpa using List.find?_some hfind
    have hle := h.epoch_le hmem
    have hlength := congrArg List.length h.epochs
    rw [List.length_map, List.length_range] at hlength
    obtain ⟨t, ht⟩ := getElem?_of_lt (l := v.resolvers) (n := n) (by omega)
    rw [ht, h.binding_unique hmem (List.mem_of_getElem? ht) (hat.trans (hepoch t ht).symm)]

/-- The bindings of a history after its first, each at its epoch. -/
theorem bindingAt_succ (h : Lineage log v) (hc : Chronicle log v) (n : ℕ) :
    v.bindingAt (n + 1) = (log.moves.map (·.destination.binding))[n]? := by
  rw [bindingAt_eq h, hc.bindings]
  rfl

theorem epoch_eq_moves (h : Lineage log v) (hc : Chronicle log v) :
    v.resolver.epoch = log.moves.length := by
  have hlength := congrArg List.length h.epochs
  rw [List.length_map, List.length_range, hc.bindings, List.length_cons, List.length_map] at hlength
  omega

/-- Of two histories that agree, the shorter one has the bindings of the longer one, the
first excepted. -/
theorem bindings_agree (hD : D.InjOn Crypto.digest) (hv : Lineage log v) (hw : Lineage log' w)
    (hc : Chronicle log v) (hc' : Chronicle log' w) (hlog : ∀ d ∈ documents log v, d ∈ D)
    (hlog' : ∀ d ∈ documents log' w, d ∈ D) (hagree : ∀ n, AgreeTo v w n)
    (hle : v.heads.length ≤ w.heads.length) :
    v.resolver.epoch ≤ w.resolver.epoch ∧
      ∀ n, 1 ≤ n → n ≤ v.resolver.epoch → ∃ r, v.bindingAt n = some r ∧ w.bindingAt n = some r := by
  have hmoves := moves_prefix hD hv hw hlog hlog' hagree hle
  rw [epoch_eq_moves hv hc, epoch_eq_moves hw hc']
  refine ⟨hmoves.length_le, fun n hpos hn => ?_⟩
  obtain ⟨k, rfl⟩ := Nat.exists_eq_succ_of_ne_zero (Nat.pos_iff_ne_zero.mp hpos)
  have hbindings := hmoves.map (·.destination.binding)
  obtain ⟨r, hr⟩ := getElem?_of_lt (l := log.moves.map (·.destination.binding)) (n := k)
    (by rw [List.length_map]; omega)
  refine ⟨r, (bindingAt_succ hv hc k).trans hr, (bindingAt_succ hw hc' k).trans ?_⟩
  obtain ⟨rest, hrest⟩ := hbindings
  rw [← hrest, List.getElem?_append_left (List.getElem?_eq_some_iff.mp hr).1]
  exact hr

/-- An admitted history stands, at the epoch of the pin, at the resolver of the pin. -/
theorem admitted_binding {require requires : Bool} {pin : ResolverPin}
    {pinned : Option IdentityLog} {refusals : List (Signed RehomeRefusal)}
    {a : IdentityLogAdmission} (hv : verifyIdentityLog log require = .ok v)
    (h : judgeIdentityLog pin log requires pinned refusals = .ok (.admission a)) :
    a.pin = v.pin ∧ ∃ r ∈ v.resolvers, r.epoch = pin.resolverEpoch ∧ r.id = pin.resolverId ∧
      r.keyId = pin.resolverKey := by
  let party : PinnedHistory := ⟨pin, pinned, refusals⟩
  have hparty : judgeIdentityLog party.pin log requires party.log party.refusals =
      .ok (.admission a) := h
  obtain ⟨u, held, hjudged⟩ := judged_of_judge hparty
  have hsame := (verify_lenient hjudged.verified).symm.trans (verify_lenient hv)
  obtain rfl := Except.ok.inj hsame
  exact ⟨hjudged.admits.stored, hjudged.admits.known⟩

/-- Histories that precedence takes for one have one resolver for every epoch but the first,
which their enrollments name. A party that admits both under one pin still never holds two
resolvers for one epoch. -/
theorem agreement_binds (hD : D.InjOn Crypto.digest) {require require' : Bool}
    (hv : verifyIdentityLog log require = .ok v) (hw : verifyIdentityLog log' require' = .ok w)
    (hlog : ∀ d ∈ documents log v, d ∈ D) (hlog' : ∀ d ∈ documents log' w, d ∈ D)
    {r : Precedence} (h : precedence v w = .ok r) (hr : r.oneHistory = true) :
    (∀ n, 1 ≤ n → n ≤ v.resolver.epoch → n ≤ w.resolver.epoch →
        ∃ x, v.bindingAt n = some x ∧ w.bindingAt n = some x) ∧
      (v.heads.length ≤ w.heads.length → v.resolver.epoch ≤ w.resolver.epoch) ∧
      (w.heads.length ≤ v.heads.length → w.resolver.epoch ≤ v.resolver.epoch) ∧
      (v.bindingAt 0 = some log.enrollment.body.binding ∧
        w.bindingAt 0 = some log'.enrollment.body.binding) ∧
      ∀ (pin : ResolverPin) (requires requires' : Bool) (pinned pinned' : Option IdentityLog)
        (refusals refusals' : List (Signed RehomeRefusal)) (a b : IdentityLogAdmission),
        judgeIdentityLog pin log requires pinned refusals = .ok (.admission a) →
        judgeIdentityLog pin log' requires' pinned' refusals' = .ok (.admission b) →
        a.pin.resolverEpoch = b.pin.resolverEpoch →
        a.pin.resolverId = b.pin.resolverId ∧ a.pin.resolverKey = b.pin.resolverKey := by
  have hl := lineage_of_verified hv
  have hl' := lineage_of_verified hw
  have hc := chronicle_of_verified hv
  have hc' := chronicle_of_verified hw
  have hagree : ∀ n, AgreeTo v w n := fun n => agree_of_precedence h hr n
  have hagree' : ∀ n, AgreeTo w v n :=
    fun n m hm x y hx hy => (hagree n m hm y x hy hx).symm
  have hle : v.heads.length ≤ w.heads.length → _ :=
    bindings_agree hD hl hl' hc hc' hlog hlog' hagree
  have hge : w.heads.length ≤ v.heads.length → _ :=
    bindings_agree hD hl' hl hc' hc hlog' hlog hagree'
  have hbound : ∀ n, 1 ≤ n → n ≤ v.resolver.epoch → n ≤ w.resolver.epoch →
      ∃ x, v.bindingAt n = some x ∧ w.bindingAt n = some x := by
    intro n hpos hn hn'
    rcases Nat.le_total v.heads.length w.heads.length with hshorter | hlonger
    · exact (hle hshorter).2 n hpos hn
    · obtain ⟨x, hx, hx'⟩ := (hge hlonger).2 n hpos hn'
      exact ⟨x, hx', hx⟩
  refine ⟨hbound, fun hs => (hle hs).1, fun hs => (hge hs).1, ⟨?_, ?_⟩, ?_⟩
  · rw [bindingAt_eq hl, hc.bindings]
    rfl
  · rw [bindingAt_eq hl', hc'.bindings]
    rfl
  intro pin requires requires' pinned pinned' refusals refusals' a b ha hb hepoch
  obtain ⟨hpin, known, hknown, hat, hid, hkey⟩ := admitted_binding hv ha
  obtain ⟨hpin', known', hknown', hat', hid', hkey'⟩ := admitted_binding hw hb
  rw [hpin, hpin'] at hepoch ⊢
  have hepochs : v.resolver.epoch = w.resolver.epoch := hepoch
  show v.resolver.id = w.resolver.id ∧ v.resolver.keyId = w.resolver.keyId
  by_cases hzero : v.resolver.epoch = 0
  · -- no move yet: the resolver of either history is the one the pin names
    have hle₀ := hl.epoch_le hknown
    have hle₀' := hl'.epoch_le hknown'
    have hlast := hl.binding_unique hknown (resolver_mem v) (by omega)
    have hlast' := hl'.binding_unique hknown' (resolver_mem w) (by omega)
    rw [← hlast, ← hlast', hid, hid', hkey, hkey']
    exact ⟨rfl, rfl⟩
  · obtain ⟨x, hx, hx'⟩ := hbound v.resolver.epoch (by omega) (le_refl _) (by omega)
    have hlast : v.bindingAt v.resolver.epoch = some v.resolver := hl.find_resolver
    have hlast' : w.bindingAt v.resolver.epoch = some w.resolver := by
      rw [hepochs]
      exact hl'.find_resolver
    rw [hx] at hlast
    rw [hx'] at hlast'
    rw [← Option.some.inj hlast, ← Option.some.inj hlast']
    exact ⟨rfl, rfl⟩

end

/-- The owner's consent to another first resolver, for the same genesis. -/
def otherEnrollment (issuedAt : ℤ) : Signed ResolverEnrollment :=
  let digest := 2 ^ 128 * 78
  sampleSign .enrollment
    ⟨identityOf digest, digest, 6, 10, "https://other.example", 0, issuedAt, issuedAt + 300000⟩
    [1, 2]

/-- Enrolled at two resolvers at one instant, an identity has one head and two histories that
precedence takes for equal. -/
theorem equal_at_two_resolvers :
    letI := sampleCrypto
    ∃ log log' v w, verifyIdentityLog log false = .ok v ∧ verifyIdentityLog log' false = .ok w ∧
      precedence v w = .ok .equal ∧ v.heads = w.heads ∧
      (v.bindingAt 0).map ResolverBinding.id ≠ (w.bindingAt 0).map ResolverBinding.id ∧
      (v.bindingAt 0).map ResolverBinding.keyId ≠ (w.bindingAt 0).map ResolverBinding.keyId := by
  let := sampleCrypto
  have hrun : (do
      let here ← enrolledSample
      let there ← Course.enroll sampleGenesis (otherEnrollment 1000000) 6 10
        "https://other.example" 1000000
      let v ← verifyIdentityLog here.log false
      let w ← verifyIdentityLog there.log false
      pure (decide (precedence v w = .ok .equal ∧ v.heads = w.heads),
        decide ((v.bindingAt 0).map ResolverBinding.id ≠ (w.bindingAt 0).map ResolverBinding.id ∧
          (v.bindingAt 0).map ResolverBinding.keyId ≠ (w.bindingAt 0).map ResolverBinding.keyId)) :
      Checked (Bool × Bool)) = .ok (true, true) := by decide
  simp only [bind_eq_ok, pure_eq_ok, Prod.mk.injEq, decide_eq_true_eq] at hrun
  obtain ⟨here, -, there, -, v, hv, w, hw, ⟨hverdict, hheads⟩, hids, hkeys⟩ := hrun
  exact ⟨here.log, there.log, v, w, hv, hw, hverdict, hheads, hids, hkeys⟩

/-- The log of a move to resolver 8, the same log after a rotation there, and the pin of a
party that enrolled the identity before both. -/
def movedLogs [Crypto] : Checked (ResolverPin × IdentityLog × IdentityLog) := do
  let (party, log, move) ← movedSample
  let enrolled ← enrolledSample
  let moved ← enrolled.next (.rehome move 1100000)
  let rotated ← { moved with log }.next
    (.transition (sampleRotation moved.state 3 1200000) 1200000)
  pure (party.pin, log, rotated.log)

def admitted : IdentityLogJudgement → Checked IdentityLogAdmission
  | .admission a => pure a
  | .refused _ => .error "not admitted"

theorem admitted_eq_ok {j : IdentityLogJudgement} {a : IdentityLogAdmission}
    (h : admitted j = .ok a) : j = .admission a := by
  cases j with
  | admission b => exact congrArg _ (Except.ok.inj h)
  | refused _ => cases h

/-- Two histories past one move have one resolver after it, and so has a party that admits
both under the pin of its enrollment. -/
theorem agreement_binds_sample :
    letI := sampleCrypto
    ∃ pin log log' v w a b, verifyIdentityLog log false = .ok v ∧
      verifyIdentityLog log' false = .ok w ∧ precedence v w = .ok .bExtendsA ∧
      (∃ x, x.id = 8 ∧ v.bindingAt 1 = some x ∧ w.bindingAt 1 = some x) ∧
      judgeIdentityLog pin log false none [] = .ok (.admission a) ∧
      judgeIdentityLog pin log' false none [] = .ok (.admission b) ∧
      a.pin.resolverId = b.pin.resolverId ∧ a.pin.resolverKey = b.pin.resolverKey := by
  let := sampleCrypto
  have hrun : (do
      let (pin, log, log') ← movedLogs
      let v ← verifyIdentityLog log false
      let w ← verifyIdentityLog log' false
      let judged ← judgeIdentityLog pin log false none []
      let judged' ← judgeIdentityLog pin log' false none []
      let a ← admitted judged
      let b ← admitted judged'
      let docs := documents log v ++ documents log' w
      pure (decide (precedence v w = .ok .bExtendsA ∧ v.resolver.epoch = 1 ∧
          w.resolver.epoch = 1 ∧ (v.bindingAt 1).map ResolverBinding.id = some 8 ∧
          a.pin.resolverEpoch = b.pin.resolverEpoch),
        decide (∀ d ∈ docs, ∀ d' ∈ docs, Crypto.digest d = Crypto.digest d' → d = d')) :
      Checked (Bool × Bool)) = .ok (true, true) := by decide
  simp only [bind_eq_ok, pure_eq_ok, Prod.mk.injEq, decide_eq_true_eq] at hrun
  obtain ⟨⟨pin, log, log'⟩, -, v, hv, w, hw, j, hj, j', hj', a, ha, b, hb,
    ⟨hverdict, hepoch, hepoch', hnext, hpins⟩, hdistinct⟩ := hrun
  rw [admitted_eq_ok ha] at hj
  rw [admitted_eq_ok hb] at hj'
  let D : Set Document := {d | d ∈ documents log v ++ documents log' w}
  have hD : D.InjOn Crypto.digest := fun d hd d' hd' heq => hdistinct d hd d' hd' heq
  obtain ⟨hbound, -, -, -, honce⟩ := agreement_binds hD hv hw
    (fun d hd => List.mem_append_left _ hd) (fun d hd => List.mem_append_right _ hd) hverdict rfl
  obtain ⟨x, hx, hx'⟩ := hbound 1 (by omega) (by omega) (by omega)
  rw [hx, Option.map_some, Option.some.injEq] at hnext
  exact ⟨pin, log, log', v, w, a, b, hv, hw, hverdict, ⟨x, hnext, hx, hx'⟩, hj, hj',
    honce pin false false none none [] [] a b hj hj' hpins⟩

end DirectTrade.Foundation
