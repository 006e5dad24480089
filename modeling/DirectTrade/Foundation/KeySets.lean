import DirectTrade.Foundation.Control

/-!
The key sets of an identity over its whole life. Rotation, recovery and a new recovery
policy take keys out of control for good, a move takes the resolver away from every key
that controls or ever controlled the person, and each act counts as its kind prescribes.
-/

namespace DirectTrade.Foundation

open Library Outcome

/-- A set that can reach its own threshold. -/
structure KeySet.Feasible (v : KeySet) : Prop where
  nonempty : 1 ≤ v.keys.length
  bounded : v.keys.length ≤ 8
  distinct : v.keys.Nodup
  positive : 1 ≤ v.threshold
  reachable : v.threshold ≤ v.keys.length

/-- What the key sets of a state owe to one another. -/
structure KeySets (s : IdentityState) : Prop where
  operational : s.head.operational.Feasible
  recovery : s.head.recovery.Feasible
  separate : ∀ k ∈ s.head.operational.keys, k ∉ s.head.recovery.keys
  retired : ∀ k ∈ s.retiredKeys, k ∉ s.head.keys
  once : s.retiredKeys.Nodup
  resolver : s.resolverKey ∉ s.head.keys ++ s.retiredKeys

theorem KeySets.withLease {s : IdentityState} (h : KeySets s) (lease update : ℤ) :
    KeySets (s.withLease lease update) :=
  ⟨h.operational, h.recovery, h.separate, h.retired, h.once, h.resolver⟩

theorem KeySets.nodup {s : IdentityState} (h : KeySets s) : s.head.keys.Nodup := by
  refine List.nodup_append.mpr ⟨h.operational.distinct, h.recovery.distinct, ?_⟩
  intro a ha b hb hab
  exact h.separate a ha (hab ▸ hb)

section
variable [Crypto]

theorem feasible_of_keySet {v : KeySet} {u : Unit} (h : keySet v = .ok u) : v.Feasible := by
  simp only [keySet, bind_eq_ok, demand_eq_ok] at h
  obtain ⟨_, ⟨hnonempty, hbounded⟩, _, hdistinct, _, -, hpositive, hreachable⟩ := h
  exact ⟨hnonempty, hbounded, hdistinct, hpositive, hreachable⟩

theorem feasible_of_sets {operational recovery : KeySet} {u : Unit}
    (h : sets operational recovery = .ok u) :
    operational.Feasible ∧ recovery.Feasible ∧ ∀ k ∈ operational.keys, k ∉ recovery.keys := by
  simp only [sets, bind_eq_ok, demand_eq_ok] at h
  obtain ⟨_, hoperational, _, hrecovery, hseparate⟩ := h
  exact ⟨feasible_of_keySet hoperational, feasible_of_keySet hrecovery, hseparate⟩

theorem KeySets.created {signed : Signed Genesis} {resolverId : Uuid} {resolverKey : KeyId}
    {now : ℤ} {s : IdentityState} (h : createIdentity signed resolverId resolverKey now = .ok s) :
    KeySets s := by
  simp only [createIdentity, bind_eq_ok, demand_eq_ok, pure_eq_ok] at h
  obtain ⟨_, -, _, -, _, hsets, _, hresolver, _, -, _, -, rfl⟩ := h
  obtain ⟨hoperational, hrecovery, hseparate⟩ := feasible_of_sets hsets
  refine ⟨hoperational, hrecovery, hseparate, ?_, List.nodup_nil, ?_⟩
  · exact List.forall_mem_nil _
  · rw [List.append_nil]
    exact hresolver

omit [Crypto] in
theorem mem_retire {s : IdentityState} {p : Transition} {k : KeyId} :
    k ∈ retire s p ↔ k ∈ s.retiredKeys ∨ k ∈ s.head.keys ∧ k ∉ p.keys := by
  simp [retire]

theorem KeySets.transitioned {s : IdentityState} (h : KeySets s) {c : Signed Transition}
    (hauth : TransitionAuthorized s c) (now effectiveAt : ℤ) :
    KeySets (s.transitioned c.body now effectiveAt) := by
  obtain ⟨hoperational, hrecovery, hseparate⟩ := feasible_of_sets hauth.sets
  refine ⟨hoperational, hrecovery, hseparate, ?_, ?_, ?_⟩
  · intro k hk hcontrol
    rcases mem_retire.mp hk with hold | ⟨-, hdropped⟩
    · exact hauth.unretired k hcontrol hold
    · exact hdropped hcontrol
  · refine List.nodup_append.mpr ⟨h.once, h.nodup.filter _, ?_⟩
    intro a ha b hb hab
    have hcontrol := (List.mem_filter.mp hb).1
    exact h.retired a ha (hab ▸ hcontrol)
  · intro hresolver
    rcases List.mem_append.mp hresolver with hcontrol | hretired
    · exact hauth.resolver hcontrol
    · rcases mem_retire.mp hretired with hold | ⟨hcontrol, -⟩
      · exact h.resolver (List.mem_append_right _ hold)
      · exact h.resolver (List.mem_append_left _ hcontrol)

theorem KeySets.rehomed {s : IdentityState} (h : KeySets s) {m : Signed Rehome}
    (hauth : RehomeAuthorized s m) (now : ℤ) : KeySets (s.rehomed m.body now) :=
  ⟨h.operational, h.recovery, h.separate, h.retired, h.once, hauth.apart⟩

/-- What the hosts of an identity accept, each at its own clock. -/
inductive IdentityAct where
  | transition (command : Signed Transition) (now : ℤ)
  | rehome (move : Signed Rehome) (now : ℤ)
  | resolve (request : ResolutionRequest) (resolverKey : KeyId) (now : ℤ)

def IdentityState.next (s : IdentityState) : IdentityAct → Checked IdentityState
  | .transition command now => transitionIdentity s command now
  | .rehome move now => rehomeIdentity s move now
  | .resolve request resolverKey now => Prod.fst <$> issueResolution s request resolverKey now

def IdentityAct.changesHead : IdentityAct → Bool
  | .transition .. | .rehome .. => true
  | .resolve .. => false

def IdentityAct.changesResolver : IdentityAct → Bool
  | .rehome .. => true
  | .transition .. | .resolve .. => false

/-- What an act leaves as it is and what it counts up, by its kind. -/
def Counted (s t : IdentityState) : IdentityAct → Prop
  | .transition command _ =>
    t.head.sequence = s.head.sequence + 1 ∧ t.resolverEpoch = s.resolverEpoch ∧
      t.head.operational = command.body.operational ∧ t.head.recovery = command.body.recovery ∧
      match command.body.kind with
      | .rotate | .recover => t.head.recovery = s.head.recovery
      | .recoveryPolicy => t.head.operational = s.head.operational
  | .rehome _ _ =>
    t.head.sequence = s.head.sequence + 1 ∧ t.resolverEpoch = s.resolverEpoch + 1 ∧
      t.head.operational = s.head.operational ∧ t.head.recovery = s.head.recovery ∧
      t.retiredKeys = s.retiredKeys
  | .resolve _ _ _ => t.head = s.head ∧ t.resolverEpoch = s.resolverEpoch ∧
      t.retiredKeys = s.retiredKeys

/-- A key leaves control into retirement, and retirement is for good. -/
def RetiresTo (s t : IdentityState) : Prop :=
  (∀ k ∈ s.retiredKeys, k ∈ t.retiredKeys) ∧
    ∀ k ∈ s.head.keys, k ∉ t.head.keys → k ∈ t.retiredKeys

/-- Everything that an accepted act keeps. -/
theorem keySets_next {s t : IdentityState} {a : IdentityAct} (hs : KeySets s)
    (h : s.next a = .ok t) : KeySets t ∧ Counted s t a ∧ RetiresTo s t := by
  cases a with
  | transition command now =>
    obtain ⟨-, -, -, hauth, rfl⟩ := (transitionIdentity_eq_ok _ _ _ _).mp h
    refine ⟨hs.transitioned hauth _ _, ⟨hauth.sequence, rfl, rfl, rfl, ?_⟩, ?_, ?_⟩
    · have hconfined := hauth.confined
      unfold Transition.confined at hconfined
      cases hkind : command.body.kind with
      | rotate | recover =>
        rw [hkind] at hconfined
        exact (demand_eq_ok _ _ _).mp hconfined
      | recoveryPolicy =>
        rw [hkind] at hconfined
        exact (demand_eq_ok _ _ _).mp hconfined
    · exact fun k hk => mem_retire.mpr (.inl hk)
    · exact fun k hk hdropped => mem_retire.mpr (.inr ⟨hk, hdropped⟩)
  | rehome move now =>
    obtain ⟨-, -, -, hauth, rfl⟩ := (rehomeIdentity_eq_ok _ _ _ _).mp h
    refine ⟨hs.rehomed hauth _, ⟨hauth.sequence, hauth.advances, rfl, rfl, rfl⟩,
      fun k hk => hk, ?_⟩
    exact fun k hk hdropped => absurd hk hdropped
  | resolve request resolverKey now =>
    obtain ⟨⟨state, proof⟩, hissue, rfl⟩ := (map_eq_ok _ _ _).mp h
    obtain ⟨-, rfl⟩ := issueResolution_eq_ok _ _ _ _ _ _ hissue
    exact ⟨hs.withLease _ _, ⟨rfl, rfl, rfl⟩, fun k hk => hk,
      fun k hk hdropped => absurd hk hdropped⟩

theorem keySets_run {s t : IdentityState} {acts : List IdentityAct} (hs : KeySets s)
    (h : acts.foldlM IdentityState.next s = .ok t) : KeySets t :=
  foldlM_invariant KeySets _ acts (fun _ _ _ _ hs hstep => (keySets_next hs hstep).1) hs h

/-- Retirement over any later acts: a key that is out of control stays out. -/
theorem retires_run {s t : IdentityState} {acts : List IdentityAct} (hs : KeySets s)
    (h : acts.foldlM IdentityState.next s = .ok t) : RetiresTo s t := by
  have hboth := foldlM_invariant (fun u => KeySets u ∧ RetiresTo s u) _ acts ?_ ⟨hs, ?_⟩ h
  · exact hboth.2
  · intro a _ u v ⟨hu, hkept, hleft⟩ hstep
    obtain ⟨hv, -, hnext, hdropped⟩ := keySets_next hu hstep
    refine ⟨hv, fun k hk => hnext k (hkept k hk), fun k hk hout => ?_⟩
    by_cases hcontrol : k ∈ u.head.keys
    · exact hdropped k hcontrol hout
    · exact hnext k (hleft k hk hcontrol)
  · exact ⟨fun k hk => hk, fun k hk hout => absurd hk hout⟩

/-- The sequence counts the heads, the epoch the resolvers. -/
theorem counted_run {s t : IdentityState} {acts : List IdentityAct} (hs : KeySets s)
    (h : acts.foldlM IdentityState.next s = .ok t) :
    t.head.sequence = s.head.sequence + acts.countP IdentityAct.changesHead ∧
      t.resolverEpoch = s.resolverEpoch + acts.countP IdentityAct.changesResolver := by
  induction acts generalizing s with
  | nil =>
    obtain rfl := Except.ok.inj h
    exact ⟨rfl, rfl⟩
  | cons a rest ih =>
    simp only [List.foldlM_cons, bind_eq_ok] at h
    obtain ⟨u, hstep, hrest⟩ := h
    obtain ⟨hu, hcounted, -⟩ := keySets_next hs hstep
    obtain ⟨hsequence, hepoch⟩ := ih hu hrest
    rw [hsequence, hepoch, List.countP_cons, List.countP_cons]
    cases a with
    | transition command now =>
      obtain ⟨hnext, hsame, -⟩ := hcounted
      simp only [IdentityAct.changesHead, IdentityAct.changesResolver, hnext, hsame]
      exact ⟨by simp; omega, by simp⟩
    | rehome move now =>
      obtain ⟨hnext, hadvanced, -⟩ := hcounted
      simp only [IdentityAct.changesHead, IdentityAct.changesResolver, hnext, hadvanced]
      exact ⟨by simp; omega, by simp; omega⟩
    | resolve request resolverKey now =>
      obtain ⟨hhead, hsame, -⟩ := hcounted
      simp [IdentityAct.changesHead, IdentityAct.changesResolver, hhead, hsame]

/-- In every state that a created identity reaches the key sets are sound, every act counts
as its kind prescribes, and a key that leaves control never comes back. -/
theorem identity_keys_sound {genesis : Signed Genesis} {resolverId : Uuid} {resolverKey : KeyId}
    {now : ℤ} {first s : IdentityState} {acts : List IdentityAct}
    (hcreated : createIdentity genesis resolverId resolverKey now = .ok first)
    (h : acts.foldlM IdentityState.next first = .ok s) :
    KeySets s ∧
      (s.head.sequence = acts.countP IdentityAct.changesHead ∧
        s.resolverEpoch = acts.countP IdentityAct.changesResolver) ∧
      (∀ a t, s.next a = .ok t → Counted s t a) ∧
      ∀ later t, List.foldlM IdentityState.next s later = .ok t →
        RetiresTo s t ∧ ∀ k ∈ s.retiredKeys, k ∉ t.head.keys := by
  have hfirst := KeySets.created hcreated
  have hs := keySets_run hfirst h
  have hcount := counted_run hfirst h
  have horigin := created_of_createIdentity hcreated
  rw [horigin.sequence, horigin.resolver.2.2, Nat.zero_add, Nat.zero_add] at hcount
  refine ⟨hs, hcount, fun a t hstep => (keySets_next hs hstep).2.1, ?_⟩
  intro later t hlater
  have hretires := retires_run hs hlater
  refine ⟨hretires, fun k hk => ?_⟩
  exact (keySets_run hs hlater).retired k (hretires.1 k hk)

end

def lifeGenesis : Signed Genesis := sampleSign .genesis ⟨7, ⟨[1], 1⟩, ⟨[2], 1⟩⟩ [1, 2]

/-- The operational key is replaced. -/
def lifeRotation : IdentityAct :=
  .transition (sampleSign .transition ⟨8, 64 * (64 * 1000) + 2, 1, .rotate, ⟨[3], 1⟩, ⟨[2], 1⟩,
    1000, 200000⟩ [1, 3]) 2000

/-- The recovery key is replaced, once the barrier of the rotation has passed. -/
def lifeRecoveryPolicy : IdentityAct :=
  .transition (sampleSign .transition ⟨8, 64 * (64 * 6000 + 1) + 2, 2, .recoveryPolicy, ⟨[3], 1⟩,
    ⟨[4], 1⟩, 100000, 200000⟩ [2, 4]) 110000

theorem identity_keys_sound_sample :
    letI := sampleCrypto
    ∃ first rotated last, createIdentity lifeGenesis 9 5 1000 = .ok first ∧
      [lifeRotation].foldlM IdentityState.next first = .ok rotated ∧
      [lifeRecoveryPolicy].foldlM IdentityState.next rotated = .ok last ∧
      rotated.retiredKeys = [1] ∧ KeySets rotated ∧ 1 ∉ last.head.keys := by
  let := sampleCrypto
  have hrun : (createIdentity lifeGenesis 9 5 1000 >>= fun first =>
      [lifeRotation].foldlM IdentityState.next first >>= fun rotated =>
        [lifeRecoveryPolicy].foldlM IdentityState.next rotated >>= fun last =>
          pure rotated.retiredKeys) = (Except.ok [1] : Checked (List KeyId)) := by decide
  simp only [bind_eq_ok, pure_eq_ok] at hrun
  obtain ⟨first, hfirst, rotated, hrotated, last, hlast, hretired⟩ := hrun
  obtain ⟨hsound, -, -, hlater⟩ := identity_keys_sound hfirst hrotated
  refine ⟨first, rotated, last, hfirst, hrotated, hlast, hretired, hsound, ?_⟩
  exact (hlater _ last hlast).2 1 (by rw [hretired]; exact List.mem_singleton_self 1)

end DirectTrade.Foundation
