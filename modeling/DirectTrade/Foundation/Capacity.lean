import DirectTrade.Foundation.Budgets

/-!
Whether revocation is available. Every call copies the state it is given within bounds, and
no call holds the state it returns to them. While each call leaves room, a grant can always
be revoked by its grantor; a call that does not leaves a state that no later call accepts.
-/

namespace DirectTrade.Foundation.Authority

open Library Outcome Json

theorem depth_limit (l : Limit) : l.json.depth ≤ 3 := by
  have hissuer := (fits_entity l.metric.issuer).depth
  simp only [Limit.json, ExternalIdentifier.json, depth_obj, depth_str, List.map_cons,
    List.map_nil, List.foldr_cons, List.foldr_nil]
  omega

theorem depth_limits (l : List Limit) : (Json.arr (l.map Limit.json)).depth ≤ 4 := by
  refine depth_arr_le fun j hj => ?_
  obtain ⟨x, -, rfl⟩ := List.mem_map.mp hj
  exact depth_limit x

theorem depth_entities (l : List EntityReference) :
    (Json.arr (l.map EntityReference.json)).depth ≤ 2 := by
  refine depth_arr_le fun j hj => ?_
  obtain ⟨v, -, rfl⟩ := List.mem_map.mp hj
  exact (fits_entity v).depth

theorem depth_approval (r : Option ApprovalRule) : (optionJson ApprovalRule.json r).depth ≤ 3 := by
  cases r with
  | none => exact Nat.zero_le _
  | some r =>
    have hpeople := depth_entities r.people
    simp only [optionJson, ApprovalRule.json, depth_obj, depth_num, depth_bool, List.map_cons,
      List.map_nil, List.foldr_cons, List.foldr_nil]
    omega

theorem depth_texts (l : List String) : (Json.arr (l.map .str)).depth ≤ 1 := by
  refine depth_arr_le fun j hj => ?_
  obtain ⟨x, -, rfl⟩ := List.mem_map.mp hj
  exact Nat.le_refl _

theorem depth_digests (l : List Digest) : (Json.arr (l.map digestJson)).depth ≤ 1 := by
  refine depth_arr_le fun j hj => ?_
  obtain ⟨x, -, rfl⟩ := List.mem_map.mp hj
  exact (depth_digestJson x).le

theorem depth_uuids (l : List Uuid) : (Json.arr (l.map uuidJson)).depth ≤ 1 := by
  refine depth_arr_le fun j hj => ?_
  obtain ⟨x, -, rfl⟩ := List.mem_map.mp hj
  exact (depth_uuidJson x).le

theorem depth_grant (g : CapabilityGrant) : g.json.depth ≤ 5 := by
  have hparent := (fits_optionUuid g.parentId).depth
  have hsubject := (fits_entity g.subject).depth
  have hoperations := depth_texts g.scope.operations
  have hprofiles := depth_digests g.scope.profiles
  have hresources := depth_uuids g.scope.resourceIds
  have hlimits := depth_limits g.limits
  have happroval := depth_approval g.approval
  simp only [CapabilityGrant.json, OperationScope.json, depth_obj, depth_uuidJson, depth_num,
    List.map_cons, List.map_nil, List.foldr_cons, List.foldr_nil]
  omega

theorem depth_entry (e : GrantEntry) : e.json.depth ≤ 6 := by
  have hgrant := depth_grant e.grant
  have hused := depth_limits e.used
  simp only [GrantEntry.json, depth_obj, depth_bool, List.map_cons, List.map_nil, List.foldr_cons,
    List.foldr_nil]
  omega

/-- Every state is shallow. -/
theorem depth_state (s : AuthorityState) : s.json.depth ≤ 8 := by
  have hgovernance : (Json.arr (s.governance.map Governance.json)).depth ≤ 4 := by
    refine depth_arr_le fun j hj => ?_
    obtain ⟨g, -, rfl⟩ := List.mem_map.mp hj
    have hcontrollers := depth_entities g.controllers
    simp only [Governance.json, depth_obj, depth_uuidJson, depth_num, List.map_cons, List.map_nil,
      List.foldr_cons, List.foldr_nil]
    omega
  have hgrants : (Json.arr (s.grants.map GrantEntry.json)).depth ≤ 7 := by
    refine depth_arr_le fun j hj => ?_
    obtain ⟨e, -, rfl⟩ := List.mem_map.mp hj
    exact depth_entry e
  have hreceipts : (Json.arr (s.receipts.map AuthorityReceipt.json)).depth ≤ 3 := by
    refine depth_arr_le fun j hj => ?_
    obtain ⟨r, -, rfl⟩ := List.mem_map.mp hj
    have hactor := (fits_entity r.actor).depth
    simp only [AuthorityReceipt.json, depth_obj, depth_uuidJson, depth_digestJson, List.map_cons,
      List.map_nil, List.foldr_cons, List.foldr_nil]
    omega
  simp only [AuthorityState.json, depth_obj, depth_num, List.map_cons, List.map_nil,
    List.foldr_cons, List.foldr_nil]
  omega

/-- What makes a state plain. -/
structure PlainState (s : AuthorityState) : Prop where
  revision : s.revision ≤ 9007199254740991
  governance : (Json.arr (s.governance.map Governance.json)).plain = true
  grants : s.grants.length ≤ 4096
  entries : ∀ e ∈ s.grants, e.json.plain = true
  receipts : s.receipts.length ≤ 4096

theorem plain_receipt (r : AuthorityReceipt) : r.json.plain = true := by
  simp [AuthorityReceipt.json, plain_entity]

theorem plain_map_iff {α : Type} (f : α → Json) (l : List α) :
    (Json.arr (l.map f)).plain = true ↔ l.length ≤ 4096 ∧ ∀ a ∈ l, (f a).plain = true := by
  rw [plain_arr, Bool.and_eq_true, decide_eq_true_eq, List.length_map, List.all_eq_true,
    List.forall_mem_map]

theorem plain_receipts (l : List AuthorityReceipt) :
    (Json.arr (l.map AuthorityReceipt.json)).plain = true ↔ l.length ≤ 4096 := by
  rw [plain_map plain_receipt, decide_eq_true_eq]

theorem plain_revision (n : ℕ) : (Json.num (n : ℤ)).plain = true ↔ n ≤ 9007199254740991 := by
  rw [plain_num, decide_eq_true_eq, Int.natAbs_natCast]

theorem plain_state_iff (s : AuthorityState) : s.json.plain = true ↔ PlainState s := by
  have hentries := plain_map_iff GrantEntry.json s.grants
  have hreceipts := plain_receipts s.receipts
  have hrevision := plain_revision s.revision
  constructor
  · intro h
    rw [plain_state, Bool.and_eq_true, Bool.and_eq_true, Bool.and_eq_true] at h
    have hgrants := hentries.mp h.1.2
    exact ⟨hrevision.mp h.1.1.1, h.1.1.2, hgrants.1, hgrants.2, hreceipts.mp h.2⟩
  · intro h
    rw [plain_state, Bool.and_eq_true, Bool.and_eq_true, Bool.and_eq_true]
    exact ⟨⟨⟨hrevision.mpr h.revision, h.governance⟩, hentries.mpr ⟨h.grants, h.entries⟩⟩,
      hreceipts.mpr h.receipts⟩

/-- The two bounds of a copy that a state can outgrow. -/
def Roomy (s : AuthorityState) : Prop :=
  s.json.nodes ≤ 65536 ∧ s.json.bytes ≤ 2 * 1024 * 1024

theorem copyable_iff (s : AuthorityState) : Copyable s.json ↔ Roomy s ∧ PlainState s := by
  rw [← plain_state_iff]
  constructor
  · rintro ⟨hnodes, -, hplain, hbytes⟩
    exact ⟨⟨hnodes, hbytes⟩, hplain⟩
  · rintro ⟨⟨hnodes, hbytes⟩, hplain⟩
    exact ⟨hnodes, (depth_state s).trans (by omega), hplain, hbytes⟩

/-- Accepted calls that leave room: for the entry of a new grant, and for the counters that a
charge, unless it is a replay, raises and its receipt. -/
inductive RoomyStep : Ledger → Ledger → Prop where
  | issue {r : Ledger} {g : CapabilityGrant} {consents : List PrincipalConsent} {now : ℤ}
      {t : AuthorityState} (issued : issueGrant r.state g consents now = .ok t)
      (room : Roomy (r.state.withGrant g)) : RoomyStep r ⟨t, r.accepted⟩
  | revoke {r : Ledger} {grantId : Uuid} {consents : List PrincipalConsent} {t : AuthorityState}
      (revoked : revokeGrant r.state grantId consents = .ok t) : RoomyStep r ⟨t, r.accepted⟩
  | charge {r : Ledger} {i : ExecutionAuthority} {now : ℤ} {out : Authorized}
      (charged : authorizeAndCharge r.state i now = .ok out)
      (room : out.replayed = false → ∀ es charged, chain r.state i.grantId now = .ok es →
        es.mapM (chargeEntry i now) = .ok charged → Roomy (r.state.withCharge charged i.receipt)) :
      RoomyStep r ⟨out.state, if out.replayed then r.accepted else r.accepted ++ [i]⟩

theorem RoomyStep.step {r t : Ledger} (h : RoomyStep r t) : Ledger.Step r t := by
  cases h with
  | issue hcall _ => exact .issue hcall
  | revoke hcall => exact .revoke hcall
  | charge hcall _ => exact .charge hcall

/-- The states that such calls reach from a start that leaves room too. -/
def Ledger.ReachedRoomy (r : Ledger) : Prop :=
  ∃ organizations s, createAuthorityState organizations = .ok s ∧
    Roomy ⟨0, organizations, [], []⟩ ∧ Relation.ReflTransGen RoomyStep ⟨s, []⟩ r

theorem Ledger.ReachedRoomy.reached {r : Ledger} (h : r.ReachedRoomy) : r.Reached := by
  obtain ⟨organizations, s, hcreate, -, hrun⟩ := h
  have hmono : Relation.ReflTransGen RoomyStep ≤ Relation.ReflTransGen Ledger.Step :=
    Relation.ReflTransGen.mono fun _ _ => RoomyStep.step
  exact ⟨organizations, s, hcreate, hmono _ _ hrun⟩

theorem length_succ_digits (n : ℕ) :
    (Nat.toDigits 10 (n + 1)).length ≤ (Nat.toDigits 10 n).length + 1 := by
  have hpos : 0 < (Nat.toDigits 10 n).length := Nat.length_toDigits_pos
  have hlt : n < 10 ^ (Nat.toDigits 10 n).length :=
    (Nat.length_toDigits_le_iff (by omega) hpos).mp (Nat.le_refl _)
  refine (Nat.length_toDigits_le_iff (by omega) (by omega)).mpr ?_
  rw [Nat.pow_succ]
  omega

theorem bytes_revision (n : ℕ) :
    (Json.num ((n + 1 : ℕ) : ℤ)).bytes ≤ (Json.num (n : ℤ)).bytes + 1 := by
  have hdigits := length_succ_digits n
  have hnonneg : ∀ m : ℕ, ¬(m : ℤ) < 0 := fun m => by omega
  rw [bytes_num, bytes_num, if_neg (hnonneg _), if_neg (hnonneg _), Int.natAbs_natCast,
    Int.natAbs_natCast]
  omega

theorem nodes_entry (e : GrantEntry) :
    e.json.nodes = 2 + e.grant.json.nodes + (Json.arr (e.used.map Limit.json)).nodes := by
  simp only [GrantEntry.json, nodes_obj, nodes_bool, List.map_cons, List.map_nil, List.sum_cons,
    List.sum_nil]
  omega

/-- The mark is a byte shorter when it is set. -/
theorem sizes_revoke {grantId : Uuid} {l : List GrantEntry} {e : GrantEntry}
    (hfound : l.find? (fun e => e.grant.id = grantId) = some e) (hlive : e.revoked = false) :
    ((revoke grantId l).map fun e => e.json.nodes).sum = (l.map fun e => e.json.nodes).sum ∧
      ((revoke grantId l).map fun e => e.json.bytes).sum + 1 =
        (l.map fun e => e.json.bytes).sum ∧
      (revoke grantId l).length = l.length ∧
      ((revoke grantId l).filter GrantEntry.revoked).length =
        (l.filter GrantEntry.revoked).length + 1 := by
  induction l with
  | nil => exact nomatch hfound
  | cons d rest ih =>
    rw [revoke]
    by_cases hd : d.grant.id = grantId
    · rw [List.find?_cons_of_pos (by simpa using hd)] at hfound
      obtain rfl := Option.some.inj hfound
      rw [if_pos hd]
      simp only [List.map_cons, List.sum_cons, List.length_cons, nodes_entry, bytes_entry,
        bytes_bool, hlive, List.filter_cons, if_true, Bool.false_eq_true, if_false]
      refine ⟨trivial, ?_, trivial, trivial⟩
      omega
    · rw [List.find?_cons_of_neg (by simpa using hd)] at hfound
      obtain ⟨hnodes, hbytes, hlength, hcount⟩ := ih hfound
      rw [if_neg hd]
      simp only [List.map_cons, List.sum_cons, List.length_cons, List.filter_cons]
      refine ⟨by omega, by omega, by omega, ?_⟩
      cases d.revoked with
      | true => simpa using hcount
      | false => simpa using hcount

theorem nodes_state (s : AuthorityState) :
    s.json.nodes = 5 + (s.governance.map fun g => g.json.nodes).sum +
      (s.grants.map fun e => e.json.nodes).sum + (s.receipts.map fun r => r.json.nodes).sum := by
  simp only [AuthorityState.json, nodes_obj, nodes_arr, nodes_num, List.map_cons, List.map_nil,
    List.sum_cons, List.sum_nil, List.map_map]
  simp only [Function.comp_def]
  omega

theorem roomy_withRevoked {s : AuthorityState} {grantId : Uuid} {e : GrantEntry} (h : Roomy s)
    (hfound : s.find? grantId = some e) (hlive : e.revoked = false) :
    Roomy (s.withRevoked grantId) := by
  obtain ⟨hnodes, hbytes, hlength, -⟩ := sizes_revoke hfound hlive
  obtain ⟨hn, hb⟩ := h
  rw [nodes_state] at hn
  rw [bytes_state] at hb
  have hrevision := bytes_revision s.revision
  have hlist : ∀ l : List GrantEntry, (Json.arr (l.map GrantEntry.json)).bytes =
      2 + (l.map fun e => e.json.bytes).sum + (l.length - 1) := by
    intro l
    rw [bytes_arr, List.map_map, List.length_map]
    rfl
  rw [hlist] at hb
  constructor
  · rw [nodes_state]
    show 5 + _ + ((revoke grantId s.grants).map _).sum + _ ≤ 65536
    rw [hnodes]
    exact hn
  · rw [bytes_state]
    show 49 + (Json.num ((s.revision + 1 : ℕ) : ℤ)).bytes + _ +
      (Json.arr ((revoke grantId s.grants).map GrantEntry.json)).bytes + _ ≤ _
    rw [hlist, hlength]
    simp only [AuthorityState.withRevoked]
    omega

/-- Every call changes the revision by one, and there is only so much to change. -/
structure Kept (s : AuthorityState) : Prop where
  room : Roomy s
  governance : (Json.arr (s.governance.map Governance.json)).plain = true
  plain : ∀ g ∈ s.capabilities, g.json.plain = true
  grants : s.grants.length ≤ 4096
  receipts : s.receipts.length ≤ 4096
  revision : s.revision =
    s.grants.length + s.receipts.length + (s.grants.filter GrantEntry.revoked).length

theorem Kept.revision_le {s : AuthorityState} (h : Kept s) : s.revision ≤ 12288 := by
  have hrevision := h.revision
  have hgrants := h.grants
  have hreceipts := h.receipts
  have hrevoked := List.length_filter_le GrantEntry.revoked s.grants
  omega

theorem kept_create {organizations : List Governance} {s : AuthorityState}
    (h : createAuthorityState organizations = .ok s) (hroom : Roomy ⟨0, organizations, [], []⟩) :
    Kept s := by
  have hcopy : Copyable (.arr (organizations.map Governance.json)) := by
    simp only [createAuthorityState, bind_eq_ok] at h
    obtain ⟨_, hcopy, -⟩ := h
    exact copyable_of_copy hcopy
  obtain rfl := createAuthorityState_eq_ok h
  exact ⟨hroom, hcopy.plain, List.forall_mem_nil _, Nat.zero_le _, Nat.zero_le _, rfl⟩

theorem Kept.issue {s : AuthorityState} {g : CapabilityGrant} {now : ℤ} (h : Kept s)
    (hissued : Issued s g now) (hroom : Roomy (s.withGrant g)) : Kept (s.withGrant g) := by
  refine ⟨hroom, h.governance, ?_, ?_, h.receipts, ?_⟩
  · intro d hd
    rw [AuthorityState.capabilities, AuthorityState.withGrant, List.map_append] at hd
    rcases List.mem_append.mp hd with hd | hd
    · exact h.plain d hd
    · exact List.mem_singleton.mp hd ▸ hissued.given.plain
  · have hfree := hissued.room
    simp only [AuthorityState.withGrant, List.length_append, List.length_singleton]
    omega
  · have hrevision := h.revision
    simp only [AuthorityState.withGrant, List.length_append, List.length_singleton,
      List.filter_append, List.filter_cons, Bool.false_eq_true, if_false, List.filter_nil,
      List.append_nil]
    omega

theorem Kept.revoked {s : AuthorityState} {grantId : Uuid} {e : GrantEntry} (h : Kept s)
    (hfound : s.find? grantId = some e) (hlive : e.revoked = false) :
    Kept (s.withRevoked grantId) := by
  obtain ⟨-, -, hlength, hcount⟩ := sizes_revoke hfound hlive
  refine ⟨roomy_withRevoked h.room hfound hlive, h.governance, ?_, ?_, h.receipts, ?_⟩
  · rw [capabilities_withRevoked]
    exact h.plain
  · exact hlength.trans_le h.grants
  · have hrevision := h.revision
    simp only [AuthorityState.withRevoked, hlength, hcount]
    omega

theorem Kept.charge {s : AuthorityState} {charged : List GrantEntry} {receipt : AuthorityReceipt}
    (h : Kept s) (hfree : s.receipts.length < 4096) (hroom : Roomy (s.withCharge charged receipt)) :
    Kept (s.withCharge charged receipt) := by
  have hmarks : ((s.grants.map (GrantEntry.recharged charged)).filter GrantEntry.revoked).length =
      (s.grants.filter GrantEntry.revoked).length := by
    rw [List.filter_map, List.length_map]
    rfl
  refine ⟨hroom, h.governance, ?_, ?_, ?_, ?_⟩
  · rw [capabilities_withCharge]
    exact h.plain
  · simpa only [AuthorityState.withCharge, List.length_map] using h.grants
  · simp only [AuthorityState.withCharge, List.length_append, List.length_singleton]
    omega
  · have hrevision := h.revision
    simp only [AuthorityState.withCharge, hmarks, List.length_append, List.length_singleton,
      List.length_map]
    omega

theorem Kept.step {r t : Ledger} (h : Kept r.state) (hstep : RoomyStep r t) : Kept t.state := by
  cases hstep with
  | issue hcall hroom =>
    obtain ⟨hissued, rfl⟩ := issueGrant_eq_ok hcall
    exact h.issue hissued hroom
  | revoke hcall =>
    rcases revokeGrant_eq_ok hcall with rfl | ⟨e, hfound, hlive, rfl⟩
    · exact h
    · exact h.revoked hfound hlive
  | charge hcall hroom =>
    cases charged_of_authorize hcall with
    | replay _ _ => exact h
    | fresh hadmitted _ _ hcharges hfree _ =>
      exact h.charge hfree (hroom rfl _ _ hadmitted.chain hcharges)

theorem Ledger.ReachedRoomy.kept {r : Ledger} (h : r.ReachedRoomy) : Kept r.state := by
  obtain ⟨organizations, s, hcreate, hroom, hrun⟩ := h
  induction hrun with
  | refl => exact kept_create hcreate hroom
  | tail _ hstep ih => exact ih.step hstep

theorem amounts_of_formed {g : CapabilityGrant} (h : grant g = .ok ()) :
    g.limits.length ≤ 16 ∧ ∀ l ∈ g.limits, l.amount < 10 ^ 78 := by
  simp only [grant, limits, values, amount, bind_eq_ok, demand_eq_ok, each_eq_ok] at h
  obtain ⟨_, -, _, -, _, -, _, -, _, -, _, ⟨_, ⟨hlength, -⟩, hall⟩, -⟩ := h
  refine ⟨hlength, fun l hl => ?_⟩
  obtain ⟨_, -, hamount⟩ := hall l hl
  exact hamount

theorem plain_used {e : GrantEntry} (hformed : grant e.grant = .ok ())
    (hplain : e.grant.json.plain = true) (hmetered : Metered e.grant e.used) :
    (Json.arr (e.used.map Limit.json)).plain = true := by
  obtain ⟨hlength, hamounts⟩ := amounts_of_formed hformed
  have hnodup := metrics_nodup hformed
  have hsame : e.used.length = e.grant.limits.length := by
    simpa only [List.length_map] using congrArg List.length hmetered.metrics
  have hlimits : ∀ l ∈ e.grant.limits, l.metric.json.plain = true := by
    intro l hl
    rw [plain_grant, Bool.and_eq_true, Bool.and_eq_true] at hplain
    have hlimit := ((plain_map_iff Limit.json _).mp hplain.1.2).2 l hl
    rw [plain_limit, Bool.and_eq_true] at hlimit
    exact hlimit.1
  refine (plain_map_iff Limit.json _).mpr ⟨by omega, fun u hu => ?_⟩
  -- a counter stands for a limit and has not outgrown it
  have hmem : u.metric ∈ e.grant.limits.map Limit.metric :=
    hmetered.metrics ▸ List.mem_map.mpr ⟨u, hu, rfl⟩
  obtain ⟨l, hl, hmetric⟩ := List.mem_map.mp hmem
  have hheld : amountOf u.metric e.used = u.amount :=
    amountOf_of_mem (hmetered.metrics ▸ hnodup) hu
  have hwithin := hmetered.within l hl
  have hbound := hamounts l hl
  rw [hmetric, hheld] at hwithin
  have hdigits : (Nat.toDigits 10 u.amount).length ≤ 78 :=
    (Nat.length_toDigits_le_iff (by omega) (by omega)).mpr (by omega)
  rw [plain_limit, Bool.and_eq_true, ← hmetric]
  exact ⟨hlimits l hl, decide_eq_true ((bytes_amount u.amount).2.trans_le (by omega))⟩

/-- The states that roomy calls reach can be copied. -/
theorem Ledger.ReachedRoomy.copyable {r : Ledger} (h : r.ReachedRoomy) : Copyable r.state.json := by
  have hkept := h.kept
  have hconserved := h.reached.conserved
  have hrevision := hkept.revision_le
  refine (copyable_iff _).mpr ⟨hkept.room, by omega, hkept.governance, hkept.grants, ?_,
    hkept.receipts⟩
  intro e he
  have hmem : e.grant ∈ r.state.capabilities := List.mem_map.mpr ⟨e, he, rfl⟩
  rw [plain_entry, Bool.and_eq_true]
  exact ⟨hkept.plain _ hmem,
    plain_used (hconserved.forest.formed _ hmem) (hkept.plain _ hmem) (hconserved.metered e he)⟩

/-- A well-formed current consent of a subject: its own, or that of a quorum of the controllers
of an organization. -/
structure Consent (s : AuthorityState) (subject : EntityReference)
    (consents : List PrincipalConsent) : Prop where
  few : consents.length ≤ 16
  distinct : (consents.map PrincipalConsent.principal).Nodup
  kinds : ∀ c ∈ consents, c.principal.kind ∈ [EntityKind.person, EntityKind.service]
  own : subject.kind ≠ .organization → subject ∈ consents.map PrincipalConsent.principal
  quorum : subject.kind = .organization → ∃ g,
    s.governance.find? (fun g => g.organizationId = subject.id) = some g ∧
      g.threshold ≤ (g.controllers.filter (· ∈ consents.map PrincipalConsent.principal)).length

theorem Consent.control {s : AuthorityState} {subject : EntityReference}
    {consents : List PrincipalConsent} (h : Consent s subject consents) :
    control s subject consents = .ok () := by
  rw [Authority.control, values, demand_true _ _ ⟨h.few, h.distinct⟩]
  have heach : each (fun c => principal c.principal [.person, .service]) consents = .ok () :=
    (each_eq_ok ..).mpr fun c hc => (demand_eq_ok ..).mpr (h.kinds c hc)
  rw [heach]
  by_cases hkind : subject.kind = .organization
  · obtain ⟨g, hfound, hquorum⟩ := h.quorum hkind
    rw [if_pos hkind, hfound]
    exact (demand_eq_ok ..).mpr hquorum
  · rw [if_neg hkind]
    exact (demand_eq_ok ..).mpr (h.own hkind)

/-- Every grant that is not revoked has a grantor, whose consent revokes it. -/
def Revocable (s : AuthorityState) : Prop :=
  ∀ e ∈ s.grants, e.revoked = false → ∃ p, grantor s e.grant = .ok p ∧
    ∀ consents, Consent s p consents → ∃ t, revokeGrant s e.grant.id consents = .ok t ∧
      t.find? e.grant.id = some { e with revoked := true }

theorem find?_revoke {grantId : Uuid} {l : List GrantEntry} {e : GrantEntry}
    (hfound : l.find? (fun e => e.grant.id = grantId) = some e) :
    (revoke grantId l).find? (fun e => e.grant.id = grantId) =
      some { e with revoked := true } := by
  induction l with
  | nil => exact nomatch hfound
  | cons d rest ih =>
    rw [revoke]
    by_cases hd : d.grant.id = grantId
    · rw [List.find?_cons_of_pos (by simpa using hd)] at hfound
      obtain rfl := Option.some.inj hfound
      rw [if_pos hd, List.find?_cons_of_pos (by simpa using hd)]
    · rw [List.find?_cons_of_neg (by simpa using hd)] at hfound
      rw [if_neg hd, List.find?_cons_of_neg (by simpa using hd)]
      exact ih hfound

theorem revocable_of_copyable {r : Ledger} (h : Conserved r) (hcopy : Copyable r.state.json)
    (hrevision : (r.state.revision : ℤ) < maxSafeInteger) : Revocable r.state := by
  intro e he hlive
  have hfound : r.state.find? e.grant.id = some e := Keyed.find?_of_mem h.ids he
  have hgrantor : ∃ p, grantor r.state e.grant = .ok p := by
    cases hparent : e.grant.parentId with
    | none =>
      refine ⟨.organization e.grant.scope.organizationId, ?_⟩
      rw [grantor, hparent]
      rfl
    | some parentId =>
      obtain ⟨parent, hmem, hid, -⟩ :=
        h.forest.parents e.grant (List.mem_map.mpr ⟨e, he, rfl⟩) parentId hparent
      obtain ⟨d, hd, rfl⟩ := List.mem_map.mp hmem
      have hdfound : r.state.find? parentId = some d := hid ▸ Keyed.find?_of_mem h.ids hd
      refine ⟨d.grant.subject, ?_⟩
      simp only [grantor, hparent, entry, hdfound]
      rfl
  obtain ⟨p, hp⟩ := hgrantor
  refine ⟨p, hp, fun consents hconsent => ⟨r.state.withRevoked e.grant.id, ?_, ?_⟩⟩
  · have hconsents := (fits_consents hconsent.few (by omega)).copyable (by omega) (by omega)
      (by omega)
    rw [revokeGrant, copy_eq_ok hcopy, copy_eq_ok hconsents, entry, hfound, nextRevision,
      demand_true _ _ hrevision]
    show (grantor r.state e.grant >>= fun parent => _) = _
    rw [hp]
    show (control r.state p consents >>= fun _ => _) = _
    rw [hconsent.control, hlive]
    rfl
  · exact find?_revoke hfound

/-- As long as every call leaves room in the state, revocation stays available and the state
can be copied. -/
theorem revocation_available {r : Ledger} (h : r.ReachedRoomy) :
    Revocable r.state ∧ Copyable r.state.json := by
  have hrevision := h.kept.revision_le
  refine ⟨revocable_of_copyable h.reached.conserved h.copyable ?_, h.copyable⟩
  show (r.state.revision : ℤ) < 9007199254740991
  omega

theorem roomy_of_copy {s : AuthorityState} (h : copy s.json = .ok ()) : Roomy s :=
  ⟨(copyable_of_copy h).nodes, (copyable_of_copy h).bytes⟩

/-- The root grant of the sample can be revoked by the controller of its organization. -/
theorem revocation_available_sample : ∃ t,
    revokeGrant sampleGranted 10 [⟨.person 7⟩] = .ok t ∧
      t.find? 10 = some ⟨sampleRoot, true, [sampleLimit 0]⟩ := by
  have hfirst : RoomyStep ⟨sampleStart, []⟩ ⟨sampleStart.withGrant sampleRoot, []⟩ :=
    .issue (r := ⟨sampleStart, []⟩) sampleRoot_issued (roomy_of_copy copy_sampleRooted)
  have hsecond : RoomyStep ⟨sampleStart.withGrant sampleRoot, []⟩ ⟨sampleGranted, []⟩ :=
    .issue (r := ⟨sampleStart.withGrant sampleRoot, []⟩) sampleChild_issued
      (roomy_of_copy copy_sampleGranted)
  have hreached : Ledger.ReachedRoomy ⟨sampleGranted, []⟩ :=
    ⟨_, sampleStart, sampleStart_created, roomy_of_copy copy_sampleStart,
      (Relation.ReflTransGen.single hfirst).tail hsecond⟩
  obtain ⟨p, hp, hrevoke⟩ := (revocation_available hreached).1
    ⟨sampleRoot, false, [sampleLimit 0]⟩ (List.mem_cons_self ..) rfl
  obtain rfl : EntityReference.organization 1 = p := Except.ok.inj hp
  exact hrevoke [⟨.person 7⟩] ⟨by decide, by decide, by decide, fun h => absurd rfl h,
    fun _ => ⟨sampleGovernance, rfl, by decide⟩⟩

/-- So many organizations, of sixteen controllers each. -/
def crowdedGovernance (n : ℕ) : List Governance :=
  (List.range n).map fun id => ⟨id, (List.range 16).map EntityReference.person, 1⟩

def crowdedStart (n : ℕ) : AuthorityState := ⟨0, crowdedGovernance n, [], []⟩

/-- A grant of as many operations as there may be. -/
def crowdedGrant : CapabilityGrant :=
  ⟨1, none, .person 0, ⟨0, (List.range 32).map fun n => "quote.v" ++ toString n, [0], [0]⟩, 0, 9, 0,
    [], none⟩

def crowdedLedger (n : ℕ) : Ledger := ⟨(crowdedStart n).withGrant crowdedGrant, []⟩

theorem mem_crowdedGovernance {n : ℕ} {g : Governance} (h : g ∈ crowdedGovernance n) :
    g.controllers = (List.range 16).map EntityReference.person ∧ g.threshold = 1 := by
  obtain ⟨id, -, rfl⟩ := List.mem_map.mp h
  exact ⟨rfl, rfl⟩

theorem length_crowdedGovernance (n : ℕ) : (crowdedGovernance n).length = n := by
  rw [crowdedGovernance, List.length_map, List.length_range]

/-- The first organization is there as soon as there is one. -/
theorem find?_crowdedGovernance {n : ℕ} (hn : 0 < n) :
    (crowdedGovernance n).find? (fun g => g.organizationId = 0) =
      some ⟨0, (List.range 16).map EntityReference.person, 1⟩ := by
  obtain ⟨m, rfl⟩ : ∃ m, n = m + 1 := ⟨n - 1, by omega⟩
  rw [crowdedGovernance, List.range_succ_eq_map (n := m), List.map_cons,
    List.find?_cons_of_pos (by simp)]

theorem fits_crowdedGovernance {n : ℕ} (hn : n ≤ 963) :
    Fits (.arr ((crowdedGovernance n).map Governance.json)) 65485 4 2028080 := by
  have hall : Fits (.arr ((crowdedGovernance n).map Governance.json)) (1 + 963 * (4 + 16 * 4))
      (3 + 1) (2 + 963 * (105 + 16 * 125 + 1)) := by
    refine fits_arr ?_ (by omega) fun j hj => ?_
    · rw [List.length_map, length_crowdedGovernance]
      exact hn
    · obtain ⟨g, hg, rfl⟩ := List.mem_map.mp hj
      obtain ⟨hcontrollers, hthreshold⟩ := mem_crowdedGovernance hg
      exact fits_governance (by simp [hcontrollers]) (by omega) (by omega)
  exact hall.mono (by omega) (by omega) (by omega)

theorem nodes_governance (g : Governance) : g.json.nodes = 4 + 4 * g.controllers.length := by
  have hentity : ∀ v : EntityReference, v.json.nodes = 4 := by
    intro v
    cases horganization : v.organizationId with
    | none => simp [EntityReference.json, horganization, optionJson]
    | some id => simp [EntityReference.json, horganization, optionJson]
  have hcontrollers : (g.controllers.map fun v => v.json.nodes).sum = 4 * g.controllers.length := by
    simp only [hentity, List.map_const', List.sum_replicate, smul_eq_mul]
    omega
  simp only [Governance.json, nodes_obj, nodes_arr, nodes_uuidJson, nodes_num, List.map_cons,
    List.map_nil, List.sum_cons, List.sum_nil, List.map_map, Function.comp_def, hcontrollers]
  omega

theorem crowdedStart_created {n : ℕ} (hn : n ≤ 963) :
    createAuthorityState (crowdedGovernance n) = .ok (crowdedStart n) := by
  have hcopy : copy (.arr ((crowdedGovernance n).map Governance.json)) = .ok () :=
    copy_eq_ok ((fits_crowdedGovernance hn).copyable (by omega) (by omega) (by omega))
  have hids : (crowdedGovernance n).map Governance.organizationId = List.range n := by
    rw [crowdedGovernance, List.map_map]
    exact List.map_id _
  have hvalues : values (crowdedGovernance n) 1024 Governance.organizationId = .ok () := by
    refine (demand_eq_ok ..).mpr ⟨?_, ?_⟩
    · rw [length_crowdedGovernance]
      omega
    · rw [hids]
      exact List.nodup_range
  have heach : each governance (crowdedGovernance n) = .ok () := by
    refine (each_eq_ok ..).mpr fun g hg => ?_
    obtain ⟨hcontrollers, hthreshold⟩ := mem_crowdedGovernance hg
    rw [governance, hcontrollers, hthreshold]
    decide
  rw [createAuthorityState, hcopy, hvalues, heach]
  rfl

theorem formed_crowdedGrant : grant crowdedGrant = .ok () := by decide

theorem copy_crowdedGrant : copy crowdedGrant.json = .ok () := by
  have hnames : ∀ op ∈ crowdedGrant.scope.operations,
      textBytes op ≤ 12 ∧ (Json.str op).plain = true := by decide
  have hoperations : Fits (.arr (crowdedGrant.scope.operations.map .str)) (1 + 32 * 1) (0 + 1)
      (2 + 32 * (12 + 1)) := by
    refine fits_arr (by simp [crowdedGrant]) (by omega) fun j hj => ?_
    obtain ⟨op, hop, rfl⟩ := List.mem_map.mp hj
    exact ⟨Nat.le_refl _, Nat.le_refl _, (hnames op hop).1, (hnames op hop).2⟩
  have hscope := fits_scope (p := 1) (r := 1) hoperations (by decide) (by decide)
    ⟨by omega, by omega⟩
  have hlimits : Fits (.arr (crowdedGrant.limits.map Limit.json)) 1 4 2 :=
    ⟨Nat.le_refl _, Nat.zero_le _, Nat.le_refl _, rfl⟩
  have hgrant := fits_grant hscope hlimits rfl ⟨by decide, by decide, by decide⟩
  exact copy_eq_ok (hgrant.copyable (by omega) (by omega) (by omega))

/-- The consent of a controller of the first organization. -/
theorem crowdedConsent {s : AuthorityState} {n : ℕ} (hn : 0 < n)
    (hs : s.governance = crowdedGovernance n) : Consent s (.organization 0) [⟨.person 0⟩] := by
  refine ⟨by decide, by decide, by decide, fun h => absurd rfl h, fun _ => ?_⟩
  rw [hs]
  exact ⟨_, find?_crowdedGovernance hn, by decide⟩

theorem crowdedGrant_issued {n : ℕ} (hpos : 0 < n) (hn : n ≤ 963) :
    issueGrant (crowdedStart n) crowdedGrant [⟨.person 0⟩] 0 =
      .ok ((crowdedStart n).withGrant crowdedGrant) := by
  have hgrants : Fits (.arr ((crowdedStart n).grants.map GrantEntry.json)) 1 7 2 :=
    ⟨Nat.le_refl _, Nat.zero_le _, Nat.le_refl _, rfl⟩
  have hgovernance : Fits (.arr ((crowdedStart n).governance.map Governance.json))
      65485 4 2028080 :=
    fits_crowdedGovernance hn
  have hstate := fits_state hgovernance hgrants rfl (Nat.zero_le _)
  have hconsents := fits_consents (l := [⟨.person 0⟩]) (k := 1) (Nat.le_refl _) (by omega)
  exact issueGrant_of (hstate.copyable (by omega) (by omega) (by omega))
    (copyable_of_copy copy_crowdedGrant) (hconsents.copyable (by omega) (by omega) (by omega))
    formed_crowdedGrant rfl (Nat.zero_lt_succ _) nofun (by decide)
    (crowdedConsent hpos rfl).control (by show ((0 : ℕ) : ℤ) < 9007199254740991; omega)

theorem crowdedLedger_reached {n : ℕ} (hpos : 0 < n) (hn : n ≤ 963) :
    (crowdedLedger n).Reached := by
  have hstep : Ledger.Step ⟨crowdedStart n, []⟩ (crowdedLedger n) :=
    .issue (r := ⟨crowdedStart n, []⟩) (crowdedGrant_issued hpos hn)
  exact ⟨_, crowdedStart n, crowdedStart_created hn, .single hstep⟩

theorem nodes_crowdedLedger (n : ℕ) : (crowdedLedger n).state.json.nodes = 59 + n * 68 := by
  have hall : (crowdedGovernance n).map (fun g => g.json.nodes) = List.replicate n 68 := by
    refine List.eq_replicate_iff.mpr ⟨?_, fun m hm => ?_⟩
    · rw [List.length_map, length_crowdedGovernance]
    · obtain ⟨g, hg, rfl⟩ := List.mem_map.mp hm
      rw [nodes_governance, (mem_crowdedGovernance hg).1]
      decide
  have hgovernance : ((crowdedLedger n).state.governance.map fun g => g.json.nodes).sum =
      n * 68 := by
    show ((crowdedGovernance n).map fun g => g.json.nodes).sum = _
    rw [hall, List.sum_replicate, smul_eq_mul]
  have hentry : ([GrantEntry.mk crowdedGrant false []].map fun e => e.json.nodes).sum = 54 := by
    decide
  have hgrants : ((crowdedLedger n).state.grants.map fun e => e.json.nodes).sum = 54 := hentry
  have hreceipts : ((crowdedLedger n).state.receipts.map fun r => r.json.nodes).sum = 0 := rfl
  rw [nodes_state, hgovernance, hgrants, hreceipts]
  omega

theorem not_revocable_of_refused {n : ℕ} (hpos : 0 < n)
    (hrefused : ¬Copyable (crowdedLedger n).state.json) : ¬Revocable (crowdedLedger n).state := by
  intro hrevocable
  obtain ⟨p, hp, hrevoke⟩ := hrevocable ⟨crowdedGrant, false, []⟩ (List.mem_cons_self ..) rfl
  obtain rfl : EntityReference.organization 0 = p := Except.ok.inj hp
  obtain ⟨t, ht, -⟩ := hrevoke _ (crowdedConsent hpos rfl)
  simp only [revokeGrant, bind_eq_ok] at ht
  obtain ⟨_, hcopy, -⟩ := ht
  exact hrefused (copyable_of_copy hcopy)

/-- The grant of a crowded state is accepted and can then not be revoked: the state with it
is too complex for a copy. -/
theorem crowdedLedger_not_revocable : (crowdedLedger 963).Reached ∧
    ¬Revocable (crowdedLedger 963).state ∧ ¬Copyable (crowdedLedger 963).state.json := by
  have hrefused : ¬Copyable (crowdedLedger 963).state.json := by
    intro h
    have hnodes := h.nodes
    rw [nodes_crowdedLedger] at hnodes
    omega
  exact ⟨crowdedLedger_reached (by omega) (by omega),
    not_revocable_of_refused (by omega) hrefused, hrefused⟩

end DirectTrade.Foundation.Authority
