import DirectTrade.Chains

/-!
Every record is kept under a policy of its own company. A policy never leaves its company,
and an import brings policies and records of one company that the host does not know.
-/

namespace DirectTrade

open Library

/-- A policy of the host that belongs to a company. -/
def PolicyOf (s : State) (id org : Uuid) : Prop :=
  ∃ pol, s.policies.get? id = some pol ∧ pol.organizationId = org

def Governed (s : State) : Prop :=
  ∀ id r, s.records.get? id = some r → PolicyOf s r.policyId r.organizationId

/-- The policies of a state stay, each with its company. -/
def PoliciesStay (s t : State) : Prop :=
  ∀ id org, PolicyOf s id org → PolicyOf t id org

theorem PoliciesStay.of_eq {s t : State} (h : t.policies = s.policies) : PoliciesStay s t := by
  intro id org hpol
  unfold PolicyOf at hpol ⊢
  rwa [h]

theorem governed_empty : Governed emptyState := by simp [Governed, emptyState]

theorem Governed.frame {s t : State} (h : Governed s) (records : t.records = s.records)
    (stay : PoliciesStay s t) : Governed t := by
  intro id r hr
  exact stay _ _ (h id r (records ▸ hr))

theorem State.reserve_policies {s : State} {other : Snapshot} {id : Uuid} {pol : Policy}
    (h : s.policies.get? id = some pol) : (s.reserve other).policies.get? id = some pol := by
  simp [State.reserve, Dict.get?_foldl_setNew, h]

theorem policy_absent {s : State} {snap : Snapshot} {id : Uuid}
    (h : (reservedState s snap).policies.get? id = none) : s.policies.get? id = none := by
  by_contra hne
  obtain ⟨pol, hpol⟩ := Option.ne_none_iff_exists'.mp hne
  have := reservedState_induction (P := fun t => t.policies.get? id = some pol) snap hpol
    fun t other _ ht => State.reserve_policies ht
  simp [h] at this

variable [Primitives] [Reducers]

omit [Reducers] in
/-- The carried policies belong to the company and are new to the destination. -/
theorem validatePolicies_carried {s : State} {snap : Snapshot} {policyIds : List Uuid}
    (h : validatePolicies s snap = .ok policyIds) : ∀ pol ∈ snap.policies,
      pol.organizationId = snap.organization.id ∧ s.policies.get? pol.id = none := by
  intro pol hpol
  obtain ⟨pre, post, hsplit⟩ := List.append_of_mem hpol
  rw [validatePolicies, hsplit] at h
  obtain ⟨_, _, -, hstep, -⟩ := Outcome.foldlM_split h
  simp only [validatePolicy, Outcome.bind_eq_ok, demand_eq_ok, exists_const] at hstep
  exact ⟨hstep.1.1, hstep.1.2.1⟩

omit [Primitives] [Reducers] in
theorem get?_takeOver_policies (s : State) (snap : Snapshot) (id : Uuid) :
    (takeOver s snap).policies.get? id =
      (snap.policies.reverse.find? (·.id = id)).or (s.policies.get? id) :=
  Dict.get?_foldl_set Policy.id snap.policies s.policies id

theorem PoliciesStay.takeOver {s : State} {snap : Snapshot}
    (valid : validateSnapshot s snap = .ok ()) : PoliciesStay s (takeOver s snap) := by
  obtain ⟨replay, claimed, policyIds, opened, hvalid⟩ :=
    (validateSnapshot_eq_ok s snap ()).mp valid
  have hcarried := validatePolicies_carried hvalid.policies
  rintro id org ⟨pol, hpol, horg⟩
  refine ⟨pol, ?_, horg⟩
  rw [get?_takeOver_policies, hpol]
  have hnone : snap.policies.reverse.find? (·.id = id) = none := by
    rw [List.find?_eq_none]
    intro x hx
    have hx := policy_absent (hcarried x (List.mem_reverse.mp hx)).2
    simp only [decide_eq_true_eq]
    rintro rfl
    simp [hpol] at hx
  rw [hnone, Option.none_or]

theorem Governed.takeOver {s : State} (h : Governed s) {snap : Snapshot}
    (valid : validateSnapshot s snap = .ok ()) : Governed (takeOver s snap) := by
  obtain ⟨replay, claimed, policyIds, opened, hvalid⟩ :=
    (validateSnapshot_eq_ok s snap ()).mp valid
  have hcarried := validateRecords_carried hvalid.records
  intro id x hx
  rcases takeOver_cases hx with ⟨i, r, hr, -, rfl⟩ | hold
  · have hr := List.mem_of_getElem? hr
    obtain ⟨pol, hpol, hid⟩ := List.any_eq_true.mp (hcarried.policy r hr)
    have hfind : (snap.policies.reverse.find? (·.id = r.policyId)).isSome = true :=
      List.find?_isSome.mpr ⟨pol, List.mem_reverse.mpr hpol, hid⟩
    obtain ⟨found, hfound⟩ := Option.isSome_iff_exists.mp hfind
    have hmem := List.mem_reverse.mp (List.mem_of_find?_eq_some hfound)
    refine ⟨found, ?_, ?_⟩
    · show (DirectTrade.takeOver s snap).policies.get? r.policyId = _
      rw [get?_takeOver_policies, hfound, Option.some_or]
    · exact (validatePolicies_carried hvalid.policies found hmem).1.trans
        (hcarried.organization r hr).symm
  · exact PoliciesStay.takeOver valid _ _ (h id x hold)

omit [Primitives] [Reducers] in
theorem pushHistory_policies (s : State) (c : Command) :
    (pushHistory s c).policies = s.policies := by
  unfold pushHistory
  split <;> rfl

omit [Primitives] [Reducers] in
theorem setOrg_policies (k : Call) (o : Organization) :
    (k.setOrg o).policies = k.s.policies ∧ (k.setOrg o).records = k.s.records := by
  unfold Call.setOrg
  split <;> exact ⟨rfl, rfl⟩

theorem Accepted.policiesStay {s : State} {c : Command} {ctx : Context} {signed : List KeyId}
    {reply : Reply} (keyed : Keyed s) (h : Accepted s c ctx signed reply) :
    PoliciesStay s (reply.next c) := by
  cases h.effect with
  | found orgId name nonce controllers threshold payload founds =>
    exact .of_eq ((pushHistory_policies _ c).trans (setOrg_policies (callOf s c ctx signed) _).1)
  | company o o' m result payload fresh inside change =>
    exact .of_eq ((pushHistory_policies _ c).trans (setOrg_policies (callOf s c ctx signed) _).1)
  | revise o create p payload revises =>
    rintro id org ⟨pol, hpol, horg⟩
    by_cases hid : id = p.policyId
    · subst hid
      refine ⟨_, Dict.get?_set_self _ _ _, ?_⟩
      have hauthorized := revises.authorized
      cases create with
      | true => exact absurd (hpol.symm.trans hauthorized.2) (by simp)
      | false =>
        obtain ⟨old, hold, hown, -⟩ := hauthorized
        obtain rfl := Option.some.inj (hpol.symm.trans hold)
        exact hown.symm.trans horg
    · exact ⟨pol, (Dict.get?_set_of_ne _ _ hid).trans hpol, horg⟩
  | append o p profile before t company validation payload appends assessed =>
    obtain rfl : s = t := (counterparties_eq keyed.remoteAuthorities appends.attested).symm
    refine .of_eq ?_
    cases company <;> rfl
  | duplicate o p profile before t company recordId recorded payload appends assessed known =>
    obtain rfl : s = t := (counterparties_eq keyed.remoteAuthorities appends.attested).symm
    exact .of_eq rfl
  | finalize migrationId token stage ready body snapshot payload stages binds inactive held
      absent digest valid activates =>
    exact PoliciesStay.takeOver valid
  | _ => exact .of_eq rfl

theorem Governed.next {s : State} {c : Command} {ctx : Context} {signed : List KeyId}
    {reply : Reply} (governed : Governed s) (keyed : Keyed s)
    (h : Accepted s c ctx signed reply) : Governed (reply.next c) := by
  have stay := h.policiesStay keyed
  cases h.effect with
  | found orgId name nonce controllers threshold payload founds =>
    exact governed.frame ((pushHistory_records _ c).1.trans
      (setOrg_policies (callOf s c ctx signed) _).2) stay
  | company o o' m result payload fresh inside change =>
    exact governed.frame ((pushHistory_records _ c).1.trans
      (setOrg_policies (callOf s c ctx signed) _).2) stay
  | append o p profile before t company validation payload appends assessed =>
    obtain rfl : s = t := (counterparties_eq keyed.remoteAuthorities appends.attested).symm
    intro id x hx
    refine stay _ _ ?_
    have hx : (Call.insertRecord s o.id ((callOf s c ctx signed).appended o p
        validation)).records.get? id = some x := by
      cases company <;> exact hx
    rcases insertRecord_cases hx with ⟨-, rfl⟩ | ⟨-, old, hold, rfl⟩
    · obtain ⟨o', inside, pol, hpol, horg, -⟩ := (Call.can_eq_ok _ _ _ _ _).mp appends.writable
      obtain rfl := appends.inside.unique inside
      exact ⟨pol, hpol, horg.trans appends.own.1.symm⟩
    · exact governed id old hold
  | duplicate o p profile before t company recordId recorded payload appends assessed known =>
    obtain rfl : s = t := (counterparties_eq keyed.remoteAuthorities appends.attested).symm
    exact governed.frame rfl stay
  | finalize migrationId token stage ready body snapshot payload stages binds inactive held
      absent digest valid activates =>
    exact governed.takeOver valid
  | _ => exact governed.frame rfl stay

theorem Reachable.governed {s : State} (h : Reachable s) : Governed s := by
  have := h.invariant (P := fun s => Keyed s ∧ Governed s) ⟨keyed_empty, governed_empty⟩
    (fun s receipts ⟨hk, hg⟩ => ⟨{ hk with }, hg⟩)
    (fun s c ctx signed reply ⟨hk, hg⟩ haccepted => ⟨hk.next haccepted, hg.next hk haccepted⟩)
  exact this.2

end DirectTrade
