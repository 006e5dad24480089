import DirectTrade.Foundation.Authority
import DirectTrade.Foundation.Sizes
import Mathlib.Algebra.Group.Action.Defs
import Mathlib.Algebra.Order.BigOperators.Group.List
import Mathlib.Algebra.Order.Ring.Nat

/-!
The values of an authority state under the limits of a copy: what each weighs and whether it
is plain, from its parts.
-/

namespace DirectTrade.Foundation

open Json

/-- A plain value within so many nodes, so much depth and so many bytes. -/
structure Fits (value : Json) (n d b : ℕ) : Prop where
  nodes : value.nodes ≤ n
  depth : value.depth ≤ d
  bytes : value.bytes ≤ b
  plain : value.plain = true

theorem Fits.copyable {value : Json} {n d b : ℕ} (h : Fits value n d b) (hn : n ≤ 65536)
    (hd : d ≤ 16) (hb : b ≤ 2 * 1024 * 1024) : Authority.Copyable value :=
  ⟨h.nodes.trans hn, h.depth.trans hd, h.plain, h.bytes.trans hb⟩

theorem Fits.mono {value : Json} {n d b n' d' b' : ℕ} (h : Fits value n d b) (hn : n ≤ n')
    (hd : d ≤ d') (hb : b ≤ b') : Fits value n' d' b' :=
  ⟨h.nodes.trans hn, h.depth.trans hd, h.bytes.trans hb, h.plain⟩

theorem fits_null : Fits .null 1 0 4 := ⟨Nat.le_refl _, Nat.le_refl _, Nat.le_refl _, rfl⟩

theorem fits_uuid (id : Uuid) : Fits (uuidJson id) 1 0 38 :=
  ⟨Nat.le_refl _, Nat.le_refl _, (bytes_uuidJson id).le, plain_uuidJson id⟩

theorem fits_optionUuid (id : Option Uuid) : Fits (optionJson uuidJson id) 1 0 38 := by
  cases id with
  | none => exact fits_null.mono (by omega) (by omega) (by omega)
  | some id => exact fits_uuid id

theorem fits_digest (d : Digest) : Fits (digestJson d) 1 0 66 :=
  ⟨Nat.le_refl _, Nat.le_refl _, (bytes_digestJson d).le, plain_digestJson d⟩

theorem depth_arr_le {l : List Json} {d : ℕ} (h : ∀ j ∈ l, j.depth ≤ d) :
    (Json.arr l).depth ≤ d + 1 := by
  rw [depth_arr]
  induction l with
  | nil => exact Nat.zero_le _
  | cons j rest ih =>
    exact max_le (Nat.succ_le_succ (h j (List.mem_cons_self ..)))
      (ih fun x hx => h x (List.mem_cons_of_mem _ hx))

theorem fits_arr {l : List Json} {k n d b : ℕ} (hlength : l.length ≤ k) (hk : k ≤ 4096)
    (h : ∀ j ∈ l, Fits j n d b) : Fits (.arr l) (1 + k * n) (d + 1) (2 + k * (b + 1)) := by
  have hnodes := List.sum_le_card_nsmul (l.map nodes) n
    (by simpa using fun j hj => (h j hj).nodes)
  have hbytes := List.sum_le_card_nsmul (l.map bytes) b
    (by simpa using fun j hj => (h j hj).bytes)
  rw [List.length_map, smul_eq_mul] at hnodes hbytes
  have hkn := Nat.mul_le_mul_right n hlength
  have hkb := Nat.mul_le_mul_right b hlength
  refine ⟨?_, ?_, ?_, ?_⟩
  · rw [nodes_arr]
    omega
  · exact depth_arr_le fun j hj => (h j hj).depth
  · rw [bytes_arr, Nat.mul_succ]
    omega
  · rw [plain_arr, Bool.and_eq_true]
    exact ⟨decide_eq_true (by omega), List.all_eq_true.mpr fun j hj => (h j hj).plain⟩

theorem bytes_entity (v : EntityReference) :
    v.json.bytes = 72 + textBytes v.kind.text + (optionJson uuidJson v.organizationId).bytes := by
  simp [EntityReference.json, textBytes, charBytes]
  omega

theorem bytes_identifier (v : ExternalIdentifier) :
    v.json.bytes = 28 + v.issuer.json.bytes + textBytes v.type + textBytes v.value := by
  simp [ExternalIdentifier.json, textBytes, charBytes]
  omega

theorem bytes_governance (g : Governance) :
    g.json.bytes = 86 + (Json.arr (g.controllers.map EntityReference.json)).bytes +
      (Json.num g.threshold).bytes := by
  simp only [Governance.json, bytes_obj, List.map_cons, List.map_nil, List.sum_cons, List.sum_nil,
    List.length_cons, List.length_nil, bytes_uuidJson]
  simp [-bytes_arr, -bytes_num, textBytes, charBytes]
  omega

theorem light_of_digit {c : Char} (h : c.isDigit = true) : Light c := by
  have hrange : 48 ≤ c.toNat ∧ c.toNat ≤ 57 := by
    simp only [Char.isDigit, Bool.and_eq_true, decide_eq_true_eq] at h
    exact ⟨h.1, h.2⟩
  refine ⟨?_, by omega⟩
  have hplain : c.toNat ∉ [8, 9, 10, 12, 13] := by
    simp only [List.mem_cons, List.not_mem_nil, or_false]
    omega
  rw [charBytes, if_neg (by omega), if_neg hplain, if_neg (by omega), if_pos (by omega)]

theorem bytes_amount (n : ℕ) : textBytes (toString n) = 2 + (Nat.toDigits 10 n).length ∧
    textLength (toString n) = (Nat.toDigits 10 n).length := by
  refine sizes_of_light fun c hc => light_of_digit ?_
  exact Nat.isDigit_of_mem_toDigits (by decide) (by decide) hc

/-- A number that may travel takes at most a sign and sixteen digits. -/
theorem bytes_num_le {n : ℤ} (h : n.natAbs ≤ 9007199254740991) : (Json.num n).bytes ≤ 17 := by
  have hdigits : (Nat.toDigits 10 n.natAbs).length ≤ 16 :=
    (Nat.length_toDigits_le_iff (by omega) (by omega)).mpr (by omega)
  rw [bytes_num]
  by_cases hn : n < 0
  · rw [if_pos hn]
    omega
  · rw [if_neg hn]
    omega

theorem fits_num {n : ℤ} (h : n.natAbs ≤ 9007199254740991) : Fits (.num n) 1 0 17 :=
  ⟨Nat.le_refl _, Nat.le_refl _, bytes_num_le h, decide_eq_true h⟩

theorem plain_map {α : Type} {f : α → Json} (h : ∀ a, (f a).plain = true) (l : List α) :
    (Json.arr (l.map f)).plain = decide (l.length ≤ 4096) := by
  have hall : (l.map f).all plain = true := by simpa using fun a _ => h a
  rw [plain_arr, hall, Bool.and_true, List.length_map]

theorem plain_entity (v : EntityReference) : v.json.plain = true := by
  have hkind : textLength v.kind.text ≤ 4096 := by cases v.kind <;> decide
  cases horganization : v.organizationId with
  | none => simp [EntityReference.json, horganization, optionJson, hkind]
  | some id => simp [EntityReference.json, horganization, optionJson, hkind]

theorem plain_identifier (v : ExternalIdentifier) : v.json.plain =
    (decide (textLength v.type ≤ 4096) && decide (textLength v.value ≤ 4096)) := by
  simp [ExternalIdentifier.json, plain_entity]

theorem plain_governance (g : Governance) : g.json.plain =
    (decide (g.controllers.length ≤ 4096) && decide (g.threshold ≤ 9007199254740991)) := by
  simp [Governance.json, plain_map plain_entity, -plain_arr]

theorem fits_entity (v : EntityReference) : Fits v.json 4 1 124 := by
  have horganization := fits_optionUuid v.organizationId
  have hnodes := horganization.nodes
  have hdepth := horganization.depth
  have hbytes := horganization.bytes
  have hkind : textBytes v.kind.text ≤ 14 := by cases v.kind <;> decide
  refine ⟨?_, ?_, ?_, plain_entity v⟩
  · simp [EntityReference.json]
    omega
  · simp [EntityReference.json]
    omega
  · rw [bytes_entity]
    omega

theorem fits_identifier {v : ExternalIdentifier} {b : ℕ}
    (htext : textLength v.type ≤ 4096 ∧ textLength v.value ≤ 4096)
    (hbytes : textBytes v.type + textBytes v.value ≤ b) : Fits v.json 7 2 (152 + b) := by
  have hissuer := fits_entity v.issuer
  have hnodes := hissuer.nodes
  have hdepth := hissuer.depth
  have hissuerBytes := hissuer.bytes
  refine ⟨?_, ?_, ?_, ?_⟩
  · simp [ExternalIdentifier.json]
    omega
  · simp [ExternalIdentifier.json]
    omega
  · rw [bytes_identifier]
    omega
  · rw [plain_identifier, decide_eq_true htext.1, decide_eq_true htext.2]
    rfl

theorem fits_governance {g : Governance} {k : ℕ} (hlength : g.controllers.length ≤ k)
    (hk : k ≤ 4096) (hthreshold : g.threshold ≤ 9007199254740991) :
    Fits g.json (4 + k * 4) 3 (105 + k * 125) := by
  have hcontrollers : Fits (.arr (g.controllers.map EntityReference.json)) (1 + k * 4) 2
      (2 + k * 125) := by
    refine fits_arr (by simpa using hlength) hk fun j hj => ?_
    obtain ⟨v, -, rfl⟩ := List.mem_map.mp hj
    exact fits_entity v
  have hnodes := hcontrollers.nodes
  have hdepth := hcontrollers.depth
  have hbytes := hcontrollers.bytes
  have hnum := bytes_num_le (n := g.threshold) (by simpa using hthreshold)
  refine ⟨?_, ?_, ?_, ?_⟩
  · simp only [Governance.json, nodes_obj, List.map_cons, List.map_nil, List.sum_cons,
      List.sum_nil, nodes_uuidJson, nodes_num]
    omega
  · simp only [Governance.json, depth_obj, List.map_cons, List.map_nil, List.foldr_cons,
      List.foldr_nil, depth_uuidJson, depth_num]
    omega
  · rw [bytes_governance]
    omega
  · rw [plain_governance, decide_eq_true (by omega), decide_eq_true hthreshold]
    rfl

namespace Authority

theorem plain_limit (l : Limit) : l.json.plain =
    (l.metric.json.plain && decide (textLength (toString l.amount) ≤ 4096)) := by
  simp [Limit.json]

theorem plain_scope (v : OperationScope) : v.json.plain =
    ((Json.arr (v.operations.map .str)).plain && decide (v.profiles.length ≤ 4096) &&
      decide (v.resourceIds.length ≤ 4096)) := by
  simp [OperationScope.json, plain_map plain_digestJson, plain_map plain_uuidJson, -plain_arr,
    Bool.and_assoc]

theorem plain_grant (g : CapabilityGrant) : g.json.plain =
    (g.scope.json.plain && (Json.num g.notBefore).plain && (Json.num g.expiresAt).plain &&
      (Json.num g.delegationDepth).plain && (Json.arr (g.limits.map Limit.json)).plain &&
      (optionJson ApprovalRule.json g.approval).plain) := by
  have hparent : (optionJson uuidJson g.parentId).plain = true := by
    cases g.parentId with
    | none => rfl
    | some id => exact plain_uuidJson id
  simp [CapabilityGrant.json, plain_entity, hparent, Bool.and_assoc, -plain_num, -plain_arr]

theorem plain_entry (e : GrantEntry) : e.json.plain =
    (e.grant.json.plain && (Json.arr (e.used.map Limit.json)).plain) := by
  simp [GrantEntry.json, -plain_arr]

theorem plain_state (s : AuthorityState) : s.json.plain =
    ((Json.num s.revision).plain && (Json.arr (s.governance.map Governance.json)).plain &&
      (Json.arr (s.grants.map GrantEntry.json)).plain &&
      (Json.arr (s.receipts.map AuthorityReceipt.json)).plain) := by
  simp [AuthorityState.json, -plain_arr, -plain_num, Bool.and_assoc]

theorem bytes_consent (c : PrincipalConsent) : c.json.bytes = 14 + c.principal.json.bytes := by
  simp [PrincipalConsent.json, textBytes, charBytes]
  omega

theorem bytes_execution (i : ExecutionAuthority) :
    i.json.bytes = 309 + i.actor.json.bytes + i.scope.json.bytes +
      (Json.arr (i.usage.map Limit.json)).bytes +
      (Json.arr (i.approvals.map ApprovalEvidence.json)).bytes := by
  simp only [ExecutionAuthority.json, bytes_obj, List.map_cons, List.map_nil, List.sum_cons,
    List.sum_nil, List.length_cons, List.length_nil, bytes_uuidJson, bytes_digestJson]
  simp [-bytes_arr, textBytes, charBytes]
  omega

theorem plain_execution (i : ExecutionAuthority) : i.json.plain =
    (i.scope.json.plain && (Json.arr (i.usage.map Limit.json)).plain &&
      (Json.arr (i.approvals.map ApprovalEvidence.json)).plain) := by
  simp [ExecutionAuthority.json, plain_entity, -plain_arr, Bool.and_assoc]

theorem bytes_limit (l : Limit) :
    l.json.bytes = 21 + l.metric.json.bytes + textBytes (toString l.amount) := by
  simp [Limit.json, textBytes, charBytes]
  omega

theorem bytes_scope (v : OperationScope) :
    v.json.bytes = 100 + (Json.arr (v.operations.map .str)).bytes +
      (Json.arr (v.profiles.map digestJson)).bytes +
      (Json.arr (v.resourceIds.map uuidJson)).bytes := by
  simp only [OperationScope.json, bytes_obj, List.map_cons, List.map_nil, List.sum_cons,
    List.sum_nil, List.length_cons, List.length_nil, bytes_uuidJson]
  simp [-bytes_arr, textBytes, charBytes]
  omega

theorem bytes_grant (g : CapabilityGrant) :
    g.json.bytes = 148 + (optionJson uuidJson g.parentId).bytes + g.subject.json.bytes +
      g.scope.json.bytes + (Json.num g.notBefore).bytes + (Json.num g.expiresAt).bytes +
      (Json.num g.delegationDepth).bytes + (Json.arr (g.limits.map Limit.json)).bytes +
      (optionJson ApprovalRule.json g.approval).bytes := by
  simp only [CapabilityGrant.json, bytes_obj, List.map_cons, List.map_nil, List.sum_cons,
    List.sum_nil, List.length_cons, List.length_nil, bytes_uuidJson]
  simp [-bytes_arr, -bytes_num, textBytes, charBytes]
  omega

theorem bytes_entry (e : GrantEntry) :
    e.json.bytes = 29 + e.grant.json.bytes + (Json.bool e.revoked).bytes +
      (Json.arr (e.used.map Limit.json)).bytes := by
  simp only [GrantEntry.json, bytes_obj, List.map_cons, List.map_nil, List.sum_cons,
    List.sum_nil, List.length_cons, List.length_nil]
  simp [-bytes_arr, -bytes_bool, textBytes, charBytes]
  omega

theorem bytes_state (s : AuthorityState) :
    s.json.bytes = 49 + (Json.num s.revision).bytes +
      (Json.arr (s.governance.map Governance.json)).bytes +
      (Json.arr (s.grants.map GrantEntry.json)).bytes +
      (Json.arr (s.receipts.map AuthorityReceipt.json)).bytes := by
  simp only [AuthorityState.json, bytes_obj, List.map_cons, List.map_nil, List.sum_cons,
    List.sum_nil, List.length_cons, List.length_nil]
  simp [-bytes_arr, -bytes_num, textBytes, charBytes]
  omega

theorem fits_limit {l : Limit} {b : ℕ} (hmetric : Fits l.metric.json 7 2 b)
    (hamount : l.amount < 10 ^ 78) : Fits l.json 9 3 (101 + b) := by
  have hnodes := hmetric.nodes
  have hdepth := hmetric.depth
  have hbytes := hmetric.bytes
  have hdigits : (Nat.toDigits 10 l.amount).length ≤ 78 :=
    (Nat.length_toDigits_le_iff (by omega) (by omega)).mpr hamount
  have htext := bytes_amount l.amount
  refine ⟨?_, ?_, ?_, ?_⟩
  · simp only [Limit.json, nodes_obj, List.map_cons, List.map_nil, List.sum_cons, List.sum_nil,
      nodes_str]
    omega
  · simp only [Limit.json, depth_obj, List.map_cons, List.map_nil, List.foldr_cons,
      List.foldr_nil, depth_str]
    omega
  · rw [bytes_limit]
    omega
  · rw [plain_limit, hmetric.plain, decide_eq_true (by omega)]
    rfl

theorem fits_scope {v : OperationScope} {n b p r : ℕ}
    (hoperations : Fits (.arr (v.operations.map .str)) n 1 b) (hp : v.profiles.length ≤ p)
    (hr : v.resourceIds.length ≤ r) (hbound : p ≤ 4096 ∧ r ≤ 4096) :
    Fits v.json (4 + n + p + r) 2 (104 + b + p * 67 + r * 39) := by
  have hprofiles : Fits (.arr (v.profiles.map digestJson)) (1 + p * 1) 1 (2 + p * 67) := by
    refine fits_arr (by simpa using hp) hbound.1 fun j hj => ?_
    obtain ⟨d, -, rfl⟩ := List.mem_map.mp hj
    exact fits_digest d
  have hresources : Fits (.arr (v.resourceIds.map uuidJson)) (1 + r * 1) 1 (2 + r * 39) := by
    refine fits_arr (by simpa using hr) hbound.2 fun j hj => ?_
    obtain ⟨id, -, rfl⟩ := List.mem_map.mp hj
    exact fits_uuid id
  have hn := hoperations.nodes
  have hd := hoperations.depth
  have hb := hoperations.bytes
  have hpn := hprofiles.nodes
  have hpd := hprofiles.depth
  have hpb := hprofiles.bytes
  have hrn := hresources.nodes
  have hrd := hresources.depth
  have hrb := hresources.bytes
  refine ⟨?_, ?_, ?_, ?_⟩
  · simp only [OperationScope.json, nodes_obj, List.map_cons, List.map_nil, List.sum_cons,
      List.sum_nil, nodes_uuidJson]
    omega
  · simp only [OperationScope.json, depth_obj, List.map_cons, List.map_nil, List.foldr_cons,
      List.foldr_nil, depth_uuidJson]
    omega
  · rw [bytes_scope]
    omega
  · rw [plain_scope, hoperations.plain, decide_eq_true (by omega), decide_eq_true (by omega)]
    rfl

/-- The numbers of a grant that may travel. -/
structure Timed (g : CapabilityGrant) : Prop where
  notBefore : g.notBefore.natAbs ≤ 9007199254740991
  expiresAt : g.expiresAt.natAbs ≤ 9007199254740991
  depth : g.delegationDepth ≤ 9007199254740991

theorem fits_grant {g : CapabilityGrant} {n b n' b' : ℕ} (hscope : Fits g.scope.json n 2 b)
    (hlimits : Fits (.arr (g.limits.map Limit.json)) n' 4 b') (happroval : g.approval = none)
    (htimed : Timed g) : Fits g.json (11 + n + n') 5 (365 + b + b') := by
  have hparent := fits_optionUuid g.parentId
  have hpn := hparent.nodes
  have hpd := hparent.depth
  have hpb := hparent.bytes
  have hsubject := fits_entity g.subject
  have hsn := hsubject.nodes
  have hsd := hsubject.depth
  have hsb := hsubject.bytes
  have hn := hscope.nodes
  have hd := hscope.depth
  have hb := hscope.bytes
  have hln := hlimits.nodes
  have hld := hlimits.depth
  have hlb := hlimits.bytes
  have hnot := fits_num htimed.notBefore
  have hexpires := fits_num htimed.expiresAt
  have hdepth := fits_num (n := g.delegationDepth) (by simpa using htimed.depth)
  have hnotBytes := hnot.bytes
  have hexpiresBytes := hexpires.bytes
  have hdepthBytes := hdepth.bytes
  have hnone : optionJson ApprovalRule.json g.approval = .null := by rw [happroval]; rfl
  refine ⟨?_, ?_, ?_, ?_⟩
  · simp only [CapabilityGrant.json, nodes_obj, List.map_cons, List.map_nil, List.sum_cons,
      List.sum_nil, nodes_uuidJson, nodes_num, hnone, nodes_null]
    omega
  · simp only [CapabilityGrant.json, depth_obj, List.map_cons, List.map_nil, List.foldr_cons,
      List.foldr_nil, depth_uuidJson, depth_num, hnone, depth_null]
    omega
  · rw [bytes_grant, hnone, bytes_null]
    omega
  · rw [plain_grant, hscope.plain, hlimits.plain, hnot.plain, hexpires.plain, hdepth.plain, hnone]
    rfl

theorem fits_entry {e : GrantEntry} {n b n' b' : ℕ} (hgrant : Fits e.grant.json n 5 b)
    (hused : Fits (.arr (e.used.map Limit.json)) n' 4 b') :
    Fits e.json (2 + n + n') 6 (34 + b + b') := by
  have hn := hgrant.nodes
  have hd := hgrant.depth
  have hb := hgrant.bytes
  have hun := hused.nodes
  have hud := hused.depth
  have hub := hused.bytes
  refine ⟨?_, ?_, ?_, ?_⟩
  · simp only [GrantEntry.json, nodes_obj, List.map_cons, List.map_nil, List.sum_cons,
      List.sum_nil, nodes_bool]
    omega
  · simp only [GrantEntry.json, depth_obj, List.map_cons, List.map_nil, List.foldr_cons,
      List.foldr_nil, depth_bool]
    omega
  · have hrevoked : (Json.bool e.revoked).bytes ≤ 5 := by cases e.revoked <;> decide
    rw [bytes_entry]
    omega
  · rw [plain_entry, hgrant.plain, hused.plain]
    rfl

/-- A state without receipts. -/
theorem fits_state {s : AuthorityState} {n b n' b' : ℕ}
    (hgovernance : Fits (.arr (s.governance.map Governance.json)) n 4 b)
    (hgrants : Fits (.arr (s.grants.map GrantEntry.json)) n' 7 b') (hreceipts : s.receipts = [])
    (hrevision : s.revision ≤ 9007199254740991) : Fits s.json (3 + n + n') 8 (68 + b + b') := by
  have hn := hgovernance.nodes
  have hd := hgovernance.depth
  have hb := hgovernance.bytes
  have hgn := hgrants.nodes
  have hgd := hgrants.depth
  have hgb := hgrants.bytes
  have hnum := fits_num (n := s.revision) (by simpa using hrevision)
  have hnumBytes := hnum.bytes
  have hempty : Fits (.arr (s.receipts.map AuthorityReceipt.json)) 1 0 2 := by
    rw [hreceipts]
    exact ⟨Nat.le_refl _, Nat.le_refl _, Nat.le_refl _, rfl⟩
  have hen := hempty.nodes
  have hed := hempty.depth
  have heb := hempty.bytes
  refine ⟨?_, ?_, ?_, ?_⟩
  · simp only [AuthorityState.json, nodes_obj, List.map_cons, List.map_nil, List.sum_cons,
      List.sum_nil, nodes_num]
    omega
  · simp only [AuthorityState.json, depth_obj, List.map_cons, List.map_nil, List.foldr_cons,
      List.foldr_nil, depth_num]
    omega
  · rw [bytes_state]
    omega
  · rw [plain_state, hnum.plain, hgovernance.plain, hgrants.plain, hempty.plain]
    rfl

theorem fits_consents {l : List PrincipalConsent} {k : ℕ} (hlength : l.length ≤ k)
    (hk : k ≤ 4096) : Fits (.arr (l.map PrincipalConsent.json)) (1 + k * 5) 3 (2 + k * 139) := by
  refine fits_arr (by simpa using hlength) hk fun j hj => ?_
  obtain ⟨c, -, rfl⟩ := List.mem_map.mp hj
  have hprincipal := fits_entity c.principal
  have hn := hprincipal.nodes
  have hd := hprincipal.depth
  have hb := hprincipal.bytes
  refine ⟨?_, ?_, ?_, ?_⟩
  · simp only [PrincipalConsent.json, nodes_obj, List.map_cons, List.map_nil, List.sum_cons,
      List.sum_nil]
    omega
  · simp only [PrincipalConsent.json, depth_obj, List.map_cons, List.map_nil, List.foldr_cons,
      List.foldr_nil]
    omega
  · rw [bytes_consent]
    omega
  · simp [PrincipalConsent.json, plain_entity]

/-- A use without approvals. -/
theorem fits_execution {i : ExecutionAuthority} {n b n' b' : ℕ}
    (hscope : Fits i.scope.json n 2 b) (husage : Fits (.arr (i.usage.map Limit.json)) n' 4 b')
    (happrovals : i.approvals = []) : Fits i.json (11 + n + n') 5 (435 + b + b') := by
  have hactor := fits_entity i.actor
  have han := hactor.nodes
  have had := hactor.depth
  have hab := hactor.bytes
  have hn := hscope.nodes
  have hd := hscope.depth
  have hb := hscope.bytes
  have hun := husage.nodes
  have hud := husage.depth
  have hub := husage.bytes
  have hempty : Fits (.arr (i.approvals.map ApprovalEvidence.json)) 1 0 2 := by
    rw [happrovals]
    exact ⟨Nat.le_refl _, Nat.le_refl _, Nat.le_refl _, rfl⟩
  have hen := hempty.nodes
  have hed := hempty.depth
  have heb := hempty.bytes
  refine ⟨?_, ?_, ?_, ?_⟩
  · simp only [ExecutionAuthority.json, nodes_obj, List.map_cons, List.map_nil, List.sum_cons,
      List.sum_nil, nodes_uuidJson, nodes_digestJson]
    omega
  · simp only [ExecutionAuthority.json, depth_obj, List.map_cons, List.map_nil, List.foldr_cons,
      List.foldr_nil, depth_uuidJson, depth_digestJson]
    omega
  · rw [bytes_execution]
    omega
  · rw [plain_execution, hscope.plain, husage.plain, hempty.plain]
    rfl

end Authority
end DirectTrade.Foundation
