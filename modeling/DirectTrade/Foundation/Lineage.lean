import DirectTrade.Foundation.Replay
import DirectTrade.Library.HashChain
import Mathlib.Data.Set.Function

/-!
The shape of a verified log. Every head commits to the one before it, directly or through
the rehome that leads to it; every rehome opens the next epoch, under the binding that it
names; and an attestation beside a head is the statement of the resolver of its epoch.
-/

namespace DirectTrade.Foundation

open Library Outcome

variable [Crypto]

theorem verified_induction {require : Bool} {P : IdentityLog → VerifiedIdentityLog → Prop}
    (single : ∀ log first opened v, log.entries = [first] → first.move = none →
      openLog log.genesis log.enrollment first.effectiveAt = .ok opened →
      record require 0 first opened = .ok v → P log v)
    (push : ∀ log e v w, log.entries ≠ [] → verifyIdentityLog log require = .ok v → P log v →
      replayEntry require v (e, log.entries.length) = .ok w → P (log.push e) w)
    {log : IdentityLog} {v : VerifiedIdentityLog} (h : verifyIdentityLog log require = .ok v) :
    P log v := by
  obtain ⟨format, genesis, enrollment, entries⟩ := log
  induction entries using List.reverseRecOn generalizing v with
  | nil =>
    obtain ⟨-, -, first, later, hentries, -⟩ := (verifyIdentityLog_eq_ok _ _ _).mp h
    exact absurd hentries (by simp)
  | append_singleton entries e ih =>
    by_cases hempty : entries = []
    · subst hempty
      obtain ⟨-, hfirst, opened, hopened, hrecorded⟩ :=
        (verifyIdentityLog_single _ e _ _ rfl).mp h
      exact single _ e opened v rfl hfirst.2 hopened hrecorded
    · obtain ⟨-, -, w, hw, hstep⟩ :=
        (verifyIdentityLog_push ⟨format, genesis, enrollment, entries⟩ e require v hempty).mp h
      exact push _ e w v hempty hw (ih hw) hstep

/-- The resolver's statement beside a head. -/
def Attests (e : IdentityLogEntry) (h : VerifiedHead) (id : Uuid) (keyId : KeyId) : Prop :=
  ∃ signed, e.attestation = some signed ∧
    checkAttestation signed (HeadAttestation.of h.head id h.epoch h.headDigest) keyId = .ok ()

/-- How a head follows the one before it. -/
inductive Follows (prior : VerifiedHead) (e : IdentityLogEntry) (h : VerifiedHead) : Prop where
  | transition (move : e.move = none) (epoch : h.epoch = prior.epoch)
      (commits : h.head.previousDigest = some prior.headDigest)
  | rehome {m : Signed Rehome} (move : e.move = some m) (epoch : h.epoch = prior.epoch + 1)
      (commits : h.head.previousDigest = some (Crypto.digest (.message (.rehome m.body))))
      (expected : m.body.expectedDigest = prior.headDigest)
      (attested : h.attested = true →
        Attests e h m.body.destination.resolverId m.body.destination.resolverKey)

theorem attest_eq_ok {require : Bool} {n : ℕ} {e : IdentityLogEntry} {v : VerifiedIdentityLog}
    {unattested : List ℕ} (h : attest require n e v = .ok unattested) :
    (e.attestation = none ∧ require = false ∧ unattested = v.unattested ++ [n]) ∨
      ∃ signed, e.attestation = some signed ∧ unattested = v.unattested ∧
        checkAttestation signed ⟨v.state.head.identityId, v.resolver.id, v.resolver.epoch, n,
          v.state.headDigest, e.effectiveAt⟩ v.resolver.keyId = .ok () := by
  unfold attest at h
  cases hattestation : e.attestation with
  | none =>
    rw [hattestation] at h
    simp only [bind_eq_ok, demand_eq_ok, pure_eq_ok] at h
    obtain ⟨_, hrequire, rfl⟩ := h
    exact .inl ⟨rfl, hrequire, rfl⟩
  | some signed =>
    rw [hattestation] at h
    simp only [bind_eq_ok, pure_eq_ok] at h
    obtain ⟨_, hcheck, rfl⟩ := h
    exact .inr ⟨signed, rfl, rfl, hcheck⟩

/-- A recorded head: the state of the replay, at the epoch of its binding. -/
theorem record_eq_ok {require : Bool} {n : ℕ} {e : IdentityLogEntry} {v w : VerifiedIdentityLog}
    (h : record require n e v = .ok w) :
    ∃ unattested, attest require n e v = .ok unattested ∧
      w = { v with
        unattested
        heads := v.heads ++
          [⟨v.state.head, v.state.headDigest, v.resolver.epoch, e.attestation.isSome⟩] } := by
  simp only [record, bind_eq_ok, pure_eq_ok] at h
  obtain ⟨unattested, hattest, rfl⟩ := h
  exact ⟨unattested, hattest, rfl⟩

/-- A replayed transition keeps the identity and the binding. -/
theorem replayTransition_eq_ok {s t : IdentityState} {c : Signed Transition} {effective : ℤ}
    (h : replayTransition s c effective = .ok t) :
    t.head.previousDigest = some s.headDigest ∧ t.head.sequence = s.head.sequence + 1 ∧
      t.head.identityId = s.head.identityId ∧ t.genesisDigest = s.genesisDigest ∧
      t.headDigest = Crypto.digest (.control t.head) ∧ t.sameBinding s := by
  simp only [replayTransition, bind_eq_ok, demand_eq_ok, transitionIdentity_eq_ok] at h
  obtain ⟨_, -, _, -, -, -, -, hauth, rfl⟩ := h
  refine ⟨congrArg some hauth.expected, hauth.sequence, hauth.identity, rfl, rfl, rfl, rfl, rfl⟩

/-- A replayed rehome leads to the next epoch, under the binding it names. -/
theorem replayRehome_eq_ok {s t : IdentityState} {m : Signed Rehome} {effective : ℤ}
    (h : replayRehome s m effective = .ok t) :
    t.head.previousDigest = some (Crypto.digest (.message (.rehome m.body))) ∧
      m.body.expectedDigest = s.headDigest ∧ t.head.sequence = s.head.sequence + 1 ∧
      t.head.identityId = s.head.identityId ∧ t.genesisDigest = s.genesisDigest ∧
      t.headDigest = Crypto.digest (.control t.head) ∧
      t.resolverId = m.body.destination.resolverId ∧
      t.resolverKey = m.body.destination.resolverKey ∧ t.resolverEpoch = s.resolverEpoch + 1 := by
  simp only [replayRehome, bind_eq_ok, demand_eq_ok, rehomeIdentity_eq_ok] at h
  obtain ⟨_, -, _, -, -, -, -, hauth, rfl⟩ := h
  exact ⟨rfl, hauth.expected, hauth.sequence, hauth.identity, rfl, rfl, rfl, rfl, hauth.advances⟩

structure Lineage (log : IdentityLog) (v : VerifiedIdentityLog) : Prop where
  length : v.heads.length = log.entries.length
  sequence : v.state.head.sequence + 1 = v.heads.length
  last : ∃ h, v.heads[v.state.head.sequence]? = some h ∧ h.head = v.state.head ∧
    h.headDigest = v.state.headDigest ∧ h.epoch = v.resolver.epoch
  digest : ∀ h ∈ v.heads, h.headDigest = Crypto.digest (.control h.head)
  follows : ∀ n prior h, v.heads[n]? = some prior → v.heads[n + 1]? = some h →
    ∃ e, log.entries[n + 1]? = some e ∧ Follows prior e h
  epochs : v.resolvers.map ResolverBinding.epoch = List.range (v.resolver.epoch + 1)
  binding : v.resolver.id = v.state.resolverId ∧ v.resolver.keyId = v.state.resolverKey ∧
    v.resolver.epoch = v.state.resolverEpoch
  below : ∀ h ∈ v.heads, h.epoch ≤ v.resolver.epoch
  genesis : ∃ first, log.entries[0]? = some first ∧ first.move = none
  bounded : v.resolver.epoch ≤ v.state.head.sequence

theorem lineage_single {require : Bool} {log : IdentityLog} {first : IdentityLogEntry}
    {opened v : VerifiedIdentityLog} (hentries : log.entries = [first])
    (hmove : first.move = none)
    (hopen : openLog log.genesis log.enrollment first.effectiveAt = .ok opened)
    (hrecord : record require 0 first opened = .ok v) : Lineage log v := by
  simp only [openLog, bind_eq_ok, pure_eq_ok] at hopen
  obtain ⟨s, hcreate, _, -, rfl⟩ := hopen
  have hcreated := created_of_createIdentity hcreate
  obtain ⟨unattested, -, rfl⟩ := record_eq_ok hrecord
  have hepoch := hcreated.resolver.2.2
  refine ⟨by simp [hentries], by simp [hcreated.sequence], ?_, ?_, ?_, ?_, ⟨rfl, rfl, rfl⟩, ?_,
    ?_, ?_⟩
  · refine ⟨⟨s.head, s.headDigest, s.resolverEpoch, first.attestation.isSome⟩, ?_, rfl, rfl, rfl⟩
    simp [hcreated.sequence, bindingOf]
  · intro h hh
    obtain rfl := List.mem_singleton.mp hh
    exact hcreated.digest
  · intro n prior h _ hlast
    cases hlast
  · simp [VerifiedIdentityLog.resolvers, bindingOf, hepoch]
  · intro h hh
    obtain rfl := List.mem_singleton.mp hh
    exact le_refl _
  · exact ⟨first, by simp [hentries], hmove⟩
  · show s.resolverEpoch ≤ s.head.sequence
    omega

/-- An entry carries a lineage on when the head it records follows the last one. -/
theorem lineage_push {log : IdentityLog} {e : IdentityLogEntry} {v w : VerifiedIdentityLog}
    {unattested : List ℕ} (hv : Lineage log v)
    (hheads : w.heads = v.heads) (hsequence : w.state.head.sequence = v.state.head.sequence + 1)
    (hdigest : w.state.headDigest = Crypto.digest (.control w.state.head))
    (hfollows : ∀ prior : VerifiedHead, prior.headDigest = v.state.headDigest →
      prior.epoch = v.resolver.epoch →
      Follows prior e
        ⟨w.state.head, w.state.headDigest, w.resolver.epoch, e.attestation.isSome⟩)
    (hepochs : w.resolvers.map ResolverBinding.epoch = List.range (w.resolver.epoch + 1))
    (hbinding : w.resolver.id = w.state.resolverId ∧ w.resolver.keyId = w.state.resolverKey ∧
      w.resolver.epoch = w.state.resolverEpoch)
    (hbelow : v.resolver.epoch ≤ w.resolver.epoch)
    (hbounded : w.resolver.epoch ≤ v.resolver.epoch + 1) :
    Lineage (log.push e) { w with
      unattested
      heads := w.heads ++
        [⟨w.state.head, w.state.headDigest, w.resolver.epoch, e.attestation.isSome⟩] } := by
  have hcount := hv.sequence
  have hlength := hv.length
  have hepoch := hv.bounded
  refine ⟨?_, ?_, ?_, ?_, ?_, hepochs, hbinding, ?_, ?_, ?_⟩
  · simp [hheads, hlength]
  · simp [hheads, hsequence, hcount]
  · refine ⟨⟨w.state.head, w.state.headDigest, w.resolver.epoch, e.attestation.isSome⟩, ?_, rfl,
      rfl, rfl⟩
    show (w.heads ++ [_])[w.state.head.sequence]? = _
    rw [hheads, hsequence, hcount, List.getElem?_append_right (le_refl _)]
    simp
  · intro h hh
    rw [hheads] at hh
    rcases List.mem_append.mp hh with hold | hnew
    · exact hv.digest h hold
    · obtain rfl := List.mem_singleton.mp hnew
      exact hdigest
  · rw [hheads]
    refine HashChain.Linked.append hv.follows hlength fun prior hprior => ?_
    obtain ⟨last, hget, -, hlastDigest, hlastEpoch⟩ := hv.last
    rw [List.getLast?_eq_getElem?, ← hcount, Nat.add_sub_cancel, hget] at hprior
    obtain rfl := Option.some.inj hprior
    exact hfollows last hlastDigest hlastEpoch
  · intro h hh
    rw [hheads] at hh
    rcases List.mem_append.mp hh with hold | hnew
    · have hle := hv.below h hold
      show h.epoch ≤ w.resolver.epoch
      omega
    · obtain rfl := List.mem_singleton.mp hnew
      exact le_refl _
  · obtain ⟨first, hfirst, hmove⟩ := hv.genesis
    refine ⟨first, ?_, hmove⟩
    have hpos : 0 < log.entries.length := (List.getElem?_eq_some_iff.mp hfirst).1
    rw [IdentityLog.push_entries, List.getElem?_append_left hpos]
    exact hfirst
  · show w.resolver.epoch ≤ w.state.head.sequence
    omega

/-- The statement beside a recorded head is that of the binding the replay is at. -/
theorem attests_of_attest {require : Bool} {e : IdentityLogEntry} {w : VerifiedIdentityLog}
    {unattested : List ℕ} {n : ℕ} (hn : w.state.head.sequence = n)
    (heffective : w.state.head.effectiveAt = e.effectiveAt)
    (h : attest require n e w = .ok unattested) (hsome : e.attestation.isSome = true) :
    Attests e ⟨w.state.head, w.state.headDigest, w.resolver.epoch, e.attestation.isSome⟩
      w.resolver.id w.resolver.keyId := by
  rcases attest_eq_ok h with ⟨hnone, -, -⟩ | ⟨signed, hsigned, -, hcheck⟩
  · rw [hnone] at hsome
    exact nomatch hsome
  · refine ⟨signed, hsigned, ?_⟩
    subst hn
    rw [← heffective] at hcheck
    exact hcheck

theorem lineage_of_verified {require : Bool} {log : IdentityLog} {v : VerifiedIdentityLog}
    (h : verifyIdentityLog log require = .ok v) : Lineage log v := by
  refine verified_induction (P := Lineage) ?_ ?_ h
  · intro log first opened v hentries hmove hopen hrecord
    exact lineage_single hentries hmove hopen hrecord
  · intro log e v x hne _ hv hstep
    simp only [replayEntry, advance, bind_eq_ok, demand_eq_ok, pure_eq_ok] at hstep
    obtain ⟨_, ⟨w, hfollow, _, ⟨heffective, hsequence⟩, rfl⟩, hrecord⟩ := hstep
    obtain ⟨unattested, hattest, rfl⟩ := record_eq_ok hrecord
    have hattested := attests_of_attest hsequence heffective hattest
    unfold follow at hfollow
    split at hfollow
    · rename_i command hcommand hmove
      simp only [bind_eq_ok, pure_eq_ok] at hfollow
      obtain ⟨t, hreplay, rfl⟩ := hfollow
      obtain ⟨hprevious, hnext, -, -, hdigest, hid, hkey, hepoch⟩ := replayTransition_eq_ok hreplay
      obtain ⟨hvid, hvkey, hvepoch⟩ := hv.binding
      have hbinding : v.resolver.id = t.resolverId ∧ v.resolver.keyId = t.resolverKey ∧
          v.resolver.epoch = t.resolverEpoch :=
        ⟨hvid.trans hid.symm, hvkey.trans hkey.symm, hvepoch.trans hepoch.symm⟩
      refine lineage_push (w := { v with state := t }) hv rfl hnext hdigest ?_ hv.epochs
        hbinding (le_refl _) (Nat.le_succ _)
      intro prior hprior hpriorEpoch
      exact .transition hmove hpriorEpoch.symm (hprevious.trans (congrArg some hprior.symm))
    · rename_i move hcommand hmove
      simp only [bind_eq_ok, pure_eq_ok] at hfollow
      obtain ⟨t, hreplay, rfl⟩ := hfollow
      obtain ⟨hprevious, hexpected, hnext, -, -, hdigest, hid, hkey, hepoch⟩ :=
        replayRehome_eq_ok hreplay
      have hadvanced : t.resolverEpoch = v.resolver.epoch + 1 := by
        rw [hepoch, hv.binding.2.2]
      have hepochs : (v.resolvers ++ [bindingOf t move.body.destination.audience]).map
          ResolverBinding.epoch = List.range (t.resolverEpoch + 1) := by
        rw [List.map_append, hv.epochs, hadvanced, List.range_succ (n := v.resolver.epoch + 1)]
        show _ ++ [t.resolverEpoch] = _
        rw [hadvanced]
      refine lineage_push (w := v.moved t move.body.destination.audience) hv rfl hnext
        hdigest ?_ hepochs ⟨rfl, rfl, rfl⟩ ?_ ?_
      · intro prior hprior hpriorEpoch
        refine .rehome hmove ?_ hprevious (hexpected.trans hprior.symm) ?_
        · show t.resolverEpoch = prior.epoch + 1
          rw [hadvanced, hpriorEpoch]
        · intro hsome
          have hstated := hattested hsome
          rw [← hid, ← hkey]
          exact hstated
      · show v.resolver.epoch ≤ t.resolverEpoch
        omega
      · show t.resolverEpoch ≤ v.resolver.epoch + 1
        omega
    · cases hfollow

/-- What the heads of a log are digests of. -/
def documents (log : IdentityLog) (v : VerifiedIdentityLog) : List Document :=
  v.heads.map (fun h => .control h.head) ++
    (log.entries.filterMap IdentityLogEntry.move).map fun m => .message (.rehome m.body)

variable {D : Set Document} {log log' : IdentityLog} {v w : VerifiedIdentityLog}

theorem head_eq_of_digest (hD : D.InjOn Crypto.digest) (hv : Lineage log v) (hw : Lineage log' w)
    (hlog : ∀ d ∈ documents log v, d ∈ D) (hlog' : ∀ d ∈ documents log' w, d ∈ D) {n : ℕ}
    {x y : VerifiedHead} (hx : v.heads[n]? = some x) (hy : w.heads[n]? = some y)
    (hdigest : x.headDigest = y.headDigest) : x.head = y.head := by
  have hxm := List.mem_of_getElem? hx
  have hym := List.mem_of_getElem? hy
  rw [hv.digest x hxm, hw.digest y hym] at hdigest
  have hxd := hlog _ (List.mem_append_left _ (List.mem_map_of_mem hxm))
  have hyd := hlog' _ (List.mem_append_left _ (List.mem_map_of_mem hym))
  exact Document.control.inj (hD hxd hyd hdigest)

omit [Crypto] in
theorem move_mem_documents {n : ℕ} {e : IdentityLogEntry} {m : Signed Rehome}
    (he : log.entries[n]? = some e) (hm : e.move = some m) :
    Document.message (.rehome m.body) ∈ documents log v :=
  List.mem_append_right _ (List.mem_map_of_mem
    (List.mem_filterMap.mpr ⟨e, List.mem_of_getElem? he, hm⟩))

/-- One head has one move behind it, or none. -/
theorem moves_agree (hD : D.InjOn Crypto.digest) (hv : Lineage log v) (hw : Lineage log' w)
    (hlog : ∀ d ∈ documents log v, d ∈ D) (hlog' : ∀ d ∈ documents log' w, d ∈ D) {n : ℕ}
    {prior x prior' y : VerifiedHead} (hprior : v.heads[n]? = some prior)
    (hx : v.heads[n + 1]? = some x) (hprior' : w.heads[n]? = some prior')
    (hy : w.heads[n + 1]? = some y) (hdigest : x.headDigest = y.headDigest) :
    ∃ e e', log.entries[n + 1]? = some e ∧ log'.entries[n + 1]? = some e' ∧
      Follows prior e x ∧ Follows prior' e' y ∧
      e.move.map Signed.body = e'.move.map Signed.body := by
  have hhead := head_eq_of_digest hD hv hw hlog hlog' hx hy hdigest
  have hprevious : x.head.previousDigest = y.head.previousDigest := by rw [hhead]
  obtain ⟨e, he, hfollows⟩ := hv.follows n prior x hprior hx
  obtain ⟨e', he', hfollows'⟩ := hw.follows n prior' y hprior' hy
  refine ⟨e, e', he, he', hfollows, hfollows', ?_⟩
  have hpm := List.mem_of_getElem? hprior
  have hpm' := List.mem_of_getElem? hprior'
  have hpd := hlog _ (List.mem_append_left _ (List.mem_map_of_mem hpm))
  have hpd' := hlog' _ (List.mem_append_left _ (List.mem_map_of_mem hpm'))
  cases hfollows with
  | transition hmove _ hcommits =>
    cases hfollows' with
    | transition hmove' _ _ => rw [hmove, hmove']
    | @rehome m' hmove' _ hcommits' _ _ =>
      rw [hcommits, hcommits', hv.digest prior hpm] at hprevious
      have hmixed := hD hpd (hlog' _ (move_mem_documents he' hmove')) (Option.some.inj hprevious)
      exact Document.noConfusion hmixed
  | @rehome m hmove _ hcommits _ _ =>
    cases hfollows' with
    | transition hmove' _ hcommits' =>
      rw [hcommits, hcommits', hw.digest prior' hpm'] at hprevious
      have hmixed := hD (hlog _ (move_mem_documents he hmove)) hpd' (Option.some.inj hprevious)
      exact Document.noConfusion hmixed
    | @rehome m' hmove' _ hcommits' _ _ =>
      rw [hcommits, hcommits'] at hprevious
      have hbody := hD (hlog _ (move_mem_documents he hmove))
        (hlog' _ (move_mem_documents he' hmove')) (Option.some.inj hprevious)
      simp only [Document.message.injEq, Message.rehome.injEq] at hbody
      rw [hmove, hmove', Option.map_some, Option.map_some, hbody]

/-- Among documents without a collision, a head determines the head before it. -/
theorem determined (hv : Lineage log v) (hw : Lineage log' w) (hD : D.InjOn Crypto.digest)
    (hlog : ∀ d ∈ documents log v, d ∈ D) (hlog' : ∀ d ∈ documents log' w, d ∈ D) :
    HashChain.Determined VerifiedHead.headDigest v.heads w.heads := by
  intro n a b a' b' ha hb ha' hb' hdigest
  have hhead := head_eq_of_digest hD hv hw hlog hlog' ha' hb' hdigest
  have hprevious : a'.head.previousDigest = b'.head.previousDigest := by rw [hhead]
  obtain ⟨e, e', -, -, hfollows, hfollows', hbody⟩ :=
    moves_agree hD hv hw hlog hlog' ha ha' hb hb' hdigest
  cases hfollows with
  | transition hmove _ hcommits =>
    cases hfollows' with
    | transition hmove' _ hcommits' =>
      rw [hcommits, hcommits'] at hprevious
      exact Option.some.inj hprevious
    | rehome hmove' _ _ _ _ =>
      rw [hmove, hmove'] at hbody
      exact nomatch hbody
  | rehome hmove _ _ hexpected _ =>
    cases hfollows' with
    | transition hmove' _ _ =>
      rw [hmove, hmove'] at hbody
      exact nomatch hbody
    | rehome hmove' _ _ hexpected' _ =>
      rw [hmove, hmove', Option.map_some, Option.map_some] at hbody
      rw [← hexpected, ← hexpected', Option.some.inj hbody]

end DirectTrade.Foundation
