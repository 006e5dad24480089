import DirectTrade.Keys
import Mathlib.Data.List.Pairwise
import Mathlib.Data.List.Nodup
import Mathlib.Tactic.Push

/-!
What an accepted snapshot is known to satisfy. The checks of the import are read back as
statements about the whole snapshot and about the tables of the destination.
-/

namespace DirectTrade

open Library

theorem State.reserve_records {s : State} {other : Snapshot} {id : Uuid} {r : BusinessRecord}
    (h : s.records.get? id = some r) : (s.reserve other).records.get? id = some r := by
  simp [State.reserve, Dict.get?_foldl_setNew, h]

theorem State.reserve_organizations {s : State} {other : Snapshot} {id : Uuid}
    {o : Organization} (h : s.organizations.get? id = some o) :
    (s.reserve other).organizations.get? id = some o := by
  simp only [State.reserve, Dict.get?_setNew]
  split
  · rename_i heq
    subst id
    simp [h]
  · exact h

theorem reservedState_induction {P : State → Prop} {s : State} (snap : Snapshot) (hs : P s)
    (hstep : ∀ t other, other ∈ reservedSnapshots s snap → P t → P (t.reserve other)) :
    P (reservedState s snap) := by
  unfold reservedState
  generalize reservedSnapshots s snap = others at hstep
  induction others generalizing s with
  | nil => exact hs
  | cons other rest ih =>
    exact ih (hstep s other (List.mem_cons_self ..) hs) fun t o ho =>
      hstep t o (List.mem_cons_of_mem _ ho)

theorem record_absent {s : State} {snap : Snapshot} {id : Uuid}
    (h : (reservedState s snap).records.get? id = none) : s.records.get? id = none := by
  by_contra hne
  obtain ⟨r, hr⟩ := Option.ne_none_iff_exists'.mp hne
  have := reservedState_induction (P := fun t => t.records.get? id = some r) snap hr
    fun t other _ ht => State.reserve_records ht
  simp [h] at this

theorem organization_absent {s : State} {snap : Snapshot} {id : Uuid}
    (h : (reservedState s snap).organizations.get? id = none) :
    s.organizations.get? id = none := by
  by_contra hne
  obtain ⟨o, ho⟩ := Option.ne_none_iff_exists'.mp hne
  have := reservedState_induction (P := fun t => t.organizations.get? id = some o) snap ho
    fun t other _ ht => State.reserve_organizations ht
  simp [h] at this

variable [Primitives] [Reducers]

/-- The verdicts that make up an accepted snapshot. -/
structure Validated (host : State) (snap : Snapshot) (replay : OrgReplay) (claimed : Owners)
    (policyIds : List Uuid) (opened : Inventory) : Prop where
  header : validateHeader snap = .ok ()
  persons : validatePersons (reservedState host snap) snap = .ok claimed
  organization : validateOrganization (reservedState host snap) snap claimed = .ok replay
  profiles : validateProfiles (reservedState host snap) snap = .ok ()
  dependencies : validateDependencies (reservedState host snap) snap = .ok ()
  policies : validatePolicies (reservedState host snap) snap = .ok policyIds
  openings : validateOpenings (reservedState host snap) snap policyIds = .ok opened
  records : validateRecords (reservedState host snap) snap replay.installations opened = .ok ()
  releases : validateReleases (reservedState host snap) snap = .ok ()
  absent : (reservedState host snap).organizations.get? snap.organization.id = none

theorem validateSnapshot_eq_ok (host : State) (snap : Snapshot) (u : Unit) :
    validateSnapshot host snap = .ok u ↔
      ∃ replay claimed policyIds opened, Validated host snap replay claimed policyIds opened := by
  simp only [validateSnapshot, Outcome.bind_eq_ok, demand_eq_ok]
  constructor
  · rintro ⟨_, header, claimed, persons, replay, organization, _, profiles, _, dependencies,
      policyIds, policies, opened, openings, _, records, _, releases, absent⟩
    exact ⟨replay, claimed, policyIds, opened, header, persons, organization, profiles,
      dependencies, policies, openings, records, releases, absent⟩
  · rintro ⟨replay, claimed, policyIds, opened, h⟩
    exact ⟨(), h.header, claimed, h.persons, replay, h.organization, (), h.profiles, (),
      h.dependencies, policyIds, h.policies, opened, h.openings, (), h.records, (), h.releases,
      h.absent⟩

/-- The business rules of a record touch the products and the stock of a replay only. -/
theorem replayBusiness_frame {s : State} {snap : Snapshot} {replay replay' : RecordReplay}
    {r : BusinessRecord} {semantics : Semantics} {v : Validation}
    (h : replayBusiness s snap replay r semantics = .ok (v, replay')) :
    ∃ productAt stock, replay' = { replay with productAt := productAt, stock := stock } := by
  cases semantics <;>
    simp only [replayBusiness, replayFact, replayFlowFact, replayEvent, Outcome.bind_eq_ok,
      Outcome.pure_eq_ok, Prod.mk.injEq] at h
  case structural => exact ⟨_, _, h.2.symm⟩
  case inventoryV1 =>
    obtain ⟨_, -, pool, -, _, -, state, -, -, rfl⟩ := h
    exact ⟨_, _, rfl⟩
  case invoiceV1 =>
    obtain ⟨_, -, _, -, -, rfl⟩ := h
    exact ⟨_, _, rfl⟩
  case inventoryV2 =>
    obtain ⟨_, -, ledger, -, _, -, unpublished, -, _, -, state, -, -, rfl⟩ := h
    exact ⟨_, _, rfl⟩
  case partyV1 =>
    obtain ⟨_, -, -, rfl⟩ := h
    exact ⟨_, _, rfl⟩
  case objectV1 =>
    obtain ⟨_, -, _, -, _, -, -, rfl⟩ := h
    exact ⟨_, _, rfl⟩
  case flowV1 =>
    obtain ⟨_, -, book, -, _, -, unpublished, -, _, -, _, -, _, -, state, -, revisions, -, -,
      rfl⟩ := h
    exact ⟨_, _, rfl⟩
  all_goals
    obtain ⟨_, -, _, -, -, rfl⟩ := h
    exact ⟨_, _, rfl⟩

/-- The link of a carried record to its predecessor. -/
structure Continues (snap : Snapshot) (recordIds predecessors : List Uuid)
    (r before : BusinessRecord) : Prop where
  found : snap.record? before.id = some before
  named : r.supersedes = some before.id
  earlier : before.id ∈ recordIds
  unshared : before.id ∉ predecessors
  root : before.rootId = r.rootId
  organization : before.organizationId = r.organizationId
  policy : before.policyId = r.policyId
  resource : before.resourceId = r.resourceId
  profile : before.profileDigest = r.profileDigest
  counterparties : before.counterpartyIds = r.counterpartyIds

/-- What one carried record satisfies, and how it moves the replay. -/
structure Replays (s : State) (snap : Snapshot) (replay : RecordReplay) (r : BusinessRecord)
    (next : RecordReplay) : Prop where
  organization : r.organizationId = snap.organization.id
  absent : s.records.get? r.id = none
  fresh : r.id ∉ replay.recordIds
  policy : snap.policies.any (·.id = r.policyId) = true
  profile : (candidateProfile s snap r.profileDigest).isSome = true
  ordered : replay.priorSeq < r.seq
  genesis : r.supersedes = none → r.rootId = r.id
  continues : r.supersedes ≠ none → ∃ before, Continues snap (replay.recordIds ++ [r.id])
    replay.predecessors r before ∧ before.id ≠ r.id
  recordIds : next.recordIds = replay.recordIds ++ [r.id]
  predecessors : next.predecessors = replay.predecessors ++ r.supersedes.toList
  priorSeq : next.priorSeq = r.seq

omit [Primitives] [Reducers] in
theorem replayChain_eq_ok {snap : Snapshot} {replay next : RecordReplay} {r : BusinessRecord}
    (h : replayChain snap replay r = .ok next) :
    (r.supersedes = none → r.rootId = r.id) ∧
      (r.supersedes ≠ none → ∃ before,
        Continues snap replay.recordIds replay.predecessors r before ∧ before.id ≠ r.id) ∧
      next = { replay with predecessors := replay.predecessors ++ r.supersedes.toList } := by
  unfold replayChain at h
  cases hprev : r.supersedes with
  | none =>
    simp only [hprev, Outcome.bind_eq_ok, invalidSnapshot_eq_ok, Outcome.pure_eq_ok,
      exists_const] at h
    obtain ⟨hroot, rfl⟩ := h
    exact ⟨fun _ => hroot, by simp, by simp⟩
  | some predecessor =>
    simp only [hprev, Outcome.bind_eq_ok, invalidSnapshot_eq_ok, require_eq_ok,
      Outcome.pure_eq_ok, exists_const] at h
    obtain ⟨before, found, ⟨hne, earlier, unshared, -, root, organization, policy, resource,
      profile, counterparties⟩, rfl⟩ := h
    have hid : before.id = predecessor := by
      simpa using List.find?_some found
    refine ⟨by simp, fun _ => ⟨before, ⟨by rw [hid, found], by rw [hprev, hid], earlier,
      unshared, root, organization, policy, resource, profile, counterparties⟩, hne⟩, ?_⟩
    simp [hid]

theorem replayRecord_replays {s : State} {snap : Snapshot}
    {installations : Table Uuid Installation} {replay next : RecordReplay} {r : BusinessRecord}
    (h : replayRecord s snap installations replay r = .ok next) :
    Replays s snap replay r next := by
  simp only [replayRecord, Outcome.bind_eq_ok, invalidSnapshot_eq_ok, require_eq_ok,
    exists_const] at h
  obtain ⟨⟨organization, absent, fresh, policy⟩, profile, pinned, proofs, -, _, -,
    ⟨-, ordered, -⟩, -, -, -, ⟨expected, replay'⟩, business, -, -, chain⟩ := h
  obtain ⟨productAt, stock, rfl⟩ := replayBusiness_frame business
  obtain ⟨genesis, continues, hnext⟩ := replayChain_eq_ok chain
  refine ⟨organization, absent, fresh, policy, by simp [pinned], ordered, genesis, ?_, ?_, ?_,
    ?_⟩
  · split at continues <;> exact continues
  all_goals
    rw [hnext]
    split <;> rfl

/-- The predecessors that a list of records names. -/
def superseded (records : List BusinessRecord) : List Uuid :=
  records.flatMap fun r => r.supersedes.toList

omit [Primitives] [Reducers] in
theorem mem_superseded {records : List BusinessRecord} {id : Uuid} :
    id ∈ superseded records ↔ ∃ r ∈ records, r.supersedes = some id := by
  simp [superseded]

/-- The state of a replay that has accepted a list of records. -/
structure Tracks (s : State) (snap : Snapshot) (records : List BusinessRecord)
    (replay : RecordReplay) : Prop where
  recordIds : replay.recordIds = records.map (·.id)
  predecessors : replay.predecessors = superseded records
  nodup : (records.map (·.id)).Nodup
  single : (superseded records).Nodup
  rising : records.Pairwise (·.seq < ·.seq)
  bounded : ∀ r ∈ records, r.seq ≤ replay.priorSeq
  organization : ∀ r ∈ records, r.organizationId = snap.organization.id
  policy : ∀ r ∈ records, snap.policies.any (·.id = r.policyId) = true
  profile : ∀ r ∈ records, (candidateProfile s snap r.profileDigest).isSome = true
  absent : ∀ r ∈ records, s.records.get? r.id = none

omit [Primitives] [Reducers] in
theorem Tracks.snoc {s : State} {snap : Snapshot} {records : List BusinessRecord}
    {replay next : RecordReplay} {r : BusinessRecord} (h : Tracks s snap records replay)
    (hr : Replays s snap replay r next) : Tracks s snap (records ++ [r]) next := by
  have hfresh : r.id ∉ records.map (·.id) := h.recordIds ▸ hr.fresh
  have hbelow : ∀ b ∈ records, b.seq < r.seq := fun b hb =>
    (h.bounded b hb).trans_lt hr.ordered
  have hunshared : ∀ id, r.supersedes = some id → id ∉ superseded records := by
    intro id hid
    obtain ⟨before, hcont, -⟩ := hr.continues (by simp [hid])
    obtain rfl : before.id = id := Option.some.inj (hcont.named.symm.trans hid)
    exact h.predecessors ▸ hcont.unshared
  refine
    { recordIds := by rw [hr.recordIds, h.recordIds, List.map_append, List.map_singleton]
      predecessors := by simp [hr.predecessors, h.predecessors, superseded]
      nodup := ?_
      single := ?_
      rising := ?_
      bounded := ?_
      organization := ?_
      policy := ?_
      profile := ?_
      absent := ?_ }
  · rw [List.map_append, List.map_singleton]
    exact h.nodup.append (List.nodup_singleton _) (by simpa using hfresh)
  · have hsplit : superseded (records ++ [r]) = superseded records ++ r.supersedes.toList := by
      simp [superseded]
    rw [hsplit]
    cases hprev : r.supersedes with
    | none => simpa using h.single
    | some id =>
      exact h.single.append (List.nodup_singleton _) (by simpa using hunshared id hprev)
  · rw [List.pairwise_append]
    exact ⟨h.rising, List.pairwise_singleton _ _, by simpa using hbelow⟩
  · intro b hb
    rw [hr.priorSeq]
    rcases List.mem_append.mp hb with hb | hb
    · exact (hbelow b hb).le
    · exact (List.mem_singleton.mp hb) ▸ le_rfl
  · simpa only [List.forall_mem_append, List.forall_mem_singleton] using
      ⟨h.organization, hr.organization⟩
  · simpa only [List.forall_mem_append, List.forall_mem_singleton] using ⟨h.policy, hr.policy⟩
  · simpa only [List.forall_mem_append, List.forall_mem_singleton] using
      ⟨h.profile, hr.profile⟩
  · simpa only [List.forall_mem_append, List.forall_mem_singleton] using ⟨h.absent, hr.absent⟩

/-- What the carried records of an accepted snapshot satisfy together. -/
structure Carried (s : State) (snap : Snapshot) : Prop where
  nodup : (snap.records.map (·.id)).Nodup
  rising : snap.records.Pairwise (·.seq < ·.seq)
  organization : ∀ r ∈ snap.records, r.organizationId = snap.organization.id
  policy : ∀ r ∈ snap.records, snap.policies.any (·.id = r.policyId) = true
  profile : ∀ r ∈ snap.records, (candidateProfile s snap r.profileDigest).isSome = true
  absent : ∀ r ∈ snap.records, s.records.get? r.id = none
  genesis : ∀ r ∈ snap.records, r.supersedes = none → r.rootId = r.id
  linked : ∀ r ∈ snap.records, ∀ id, r.supersedes = some id → ∃ before ∈ snap.records,
    before.id = id ∧ before.seq < r.seq ∧ before.rootId = r.rootId ∧
      before.policyId = r.policyId ∧ before.resourceId = r.resourceId ∧
      before.profileDigest = r.profileDigest ∧ before.counterpartyIds = r.counterpartyIds
  single : ∀ a ∈ snap.records, ∀ b ∈ snap.records, ∀ id, a.supersedes = some id →
    b.supersedes = some id → a = b
  heads : ∀ r ∈ snap.records, r.isHead = true ↔ ∀ x ∈ snap.records, x.supersedes ≠ some r.id

theorem validateRecords_carried {s : State} {snap : Snapshot}
    {installations : Table Uuid Installation} {opened : Inventory} {u : Unit}
    (h : validateRecords s snap installations opened = .ok u) : Carried s snap := by
  simp only [validateRecords, Outcome.bind_eq_ok, Outcome.each_eq_ok,
    invalidSnapshot_eq_ok] at h
  obtain ⟨final, hfold, _, heads, -⟩ := h
  have hstart : Tracks s snap [] ⟨[], [], [], 0, ∅, opened⟩ := by
    constructor <;> simp [superseded]
  have htrack : ∀ {l : List BusinessRecord} {mid : RecordReplay},
      l.foldlM (replayRecord s snap installations) ⟨[], [], [], 0, ∅, opened⟩ = .ok mid →
      Tracks s snap l mid := fun hl =>
    Outcome.foldlM_prefix (Tracks s snap)
      (fun _ _ _ _ htr hstep => htr.snoc (replayRecord_replays hstep)) hstart hl
  have hall := htrack hfold
  have hat : ∀ r ∈ snap.records, ∃ pre mid next, pre <+: snap.records ∧
      Tracks s snap pre mid ∧ Replays s snap mid r next := by
    intro r hr
    obtain ⟨pre, post, hsplit⟩ := List.append_of_mem hr
    obtain ⟨mid, next, hpre, hstep, -⟩ := Outcome.foldlM_split (hsplit ▸ hfold)
    exact ⟨pre, mid, next, ⟨_, hsplit.symm⟩, htrack hpre, replayRecord_replays hstep⟩
  have hinj : ∀ a ∈ snap.records, ∀ b ∈ snap.records, a.id = b.id → a = b := fun a ha b hb =>
    List.inj_on_of_nodup_map hall.nodup ha hb
  refine
    { nodup := hall.nodup
      rising := hall.rising
      organization := hall.organization
      policy := hall.policy
      profile := hall.profile
      absent := hall.absent
      genesis := ?_
      linked := ?_
      single := ?_
      heads := ?_ }
  · intro r hr hnone
    obtain ⟨pre, mid, next, -, -, hreplays⟩ := hat r hr
    exact hreplays.genesis hnone
  · intro r hr id hid
    obtain ⟨pre, mid, next, hpre, htr, hreplays⟩ := hat r hr
    obtain ⟨before, hcont, hne⟩ := hreplays.continues (by simp [hid])
    obtain rfl : before.id = id := Option.some.inj (hcont.named.symm.trans hid)
    have hbefore : before ∈ snap.records := List.mem_of_find?_eq_some hcont.found
    have hearlier : before.id ∈ pre.map (·.id) := by
      have := hcont.earlier
      rw [htr.recordIds] at this
      simpa [hne] using this
    obtain ⟨b, hb, hbid⟩ := List.mem_map.mp hearlier
    obtain rfl := hinj b (hpre.subset hb) before hbefore hbid
    exact ⟨b, hbefore, rfl, (htr.bounded b hb).trans_lt hreplays.ordered, hcont.root,
      hcont.policy, hcont.resource, hcont.profile, hcont.counterparties⟩
  · intro a ha b hb id hida hidb
    by_contra hne
    have hpair := (List.nodup_flatMap.mp hall.single).2
    have : Std.Symm (Function.onFun List.Disjoint fun r : BusinessRecord =>
        r.supersedes.toList) := ⟨fun _ _ h _ hx hy => h hy hx⟩
    have hdisjoint := hpair.forall ha hb hne
    exact @hdisjoint id (by simp [hida]) (by simp [hidb])
  · intro r hr
    rw [heads r hr, hall.predecessors, mem_superseded]
    push Not
    rfl

end DirectTrade
