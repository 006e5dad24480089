import DirectTrade.Foundation.Semantics
import DirectTrade.Foundation.Sizes
import Mathlib.Data.List.Perm.Subperm

/-!
Plans stay within their declaration. Whatever a handler returns, a plan that comes of it
expects exactly the snapshots that the handler was given, updates each at most once from its
exact revision, and puts out only what the declaration and the admitted validators allow.
-/

namespace DirectTrade.Foundation.Semantics

open Library Outcome

theorem Tally.enter_eq_ok {t u : Tally} {depth : ℕ} (h : t.enter depth = .ok u) :
    u.nodes = t.nodes + 1 ∧ u.nodes ≤ 8192 ∧ depth ≤ 16 := by
  simp only [Tally.enter, bind_eq_ok, demand_eq_ok, pure_eq_ok] at h
  obtain ⟨_, ⟨hnodes, hdepth⟩, rfl⟩ := h
  exact ⟨rfl, hnodes, hdepth⟩

theorem countString_eq_ok {t u : Tally} {s : String} (h : countString t s = .ok u) :
    u.nodes = t.nodes := by
  simp only [countString, bind_eq_ok, demand_eq_ok, pure_eq_ok] at h
  obtain ⟨_, -, _, -, rfl⟩ := h
  rfl

/-- No part lies deeper than a bound that each part keeps. -/
theorem foldr_max_le {l : List ℕ} {n : ℕ} (h : ∀ m ∈ l, m ≤ n) : l.foldr max 0 ≤ n := by
  induction l with
  | nil => exact Nat.zero_le n
  | cons m rest ih =>
    rw [List.foldr_cons]
    exact Nat.max_le.mpr ⟨h m (List.mem_cons_self ..), ih fun k hk =>
      h k (List.mem_cons_of_mem _ hk)⟩

/-- What a value takes of the nodes that a copy may have. -/
def Bounded (depth : ℕ) (t u : Tally) (nodes deep : ℕ) : Prop :=
  u.nodes = t.nodes + nodes ∧ (t.nodes ≤ 8192 → u.nodes ≤ 8192) ∧ depth + deep ≤ 16

/-- The parts of a container, from its first part and the others. -/
theorem bounded_cons {depth nodes deep nodes' : ℕ} {t u u' : Tally} {deeps : List ℕ}
    (hhead : Bounded depth t u nodes deep) (hnodes : u'.nodes = u.nodes + nodes')
    (hfew : u.nodes ≤ 8192 → u'.nodes ≤ 8192) (hdeep : ∀ d ∈ deeps, depth + d ≤ 16) :
    u'.nodes = t.nodes + (nodes + nodes') ∧ (t.nodes ≤ 8192 → u'.nodes ≤ 8192) ∧
      ∀ d ∈ deep :: deeps, depth + d ≤ 16 := by
  obtain ⟨hnodes', hfew', hdeep'⟩ := hhead
  refine ⟨by omega, fun ht => hfew (hfew' ht), fun d hd => ?_⟩
  rcases List.mem_cons.mp hd with rfl | hd
  · exact hdeep'
  · exact hdeep d hd

/-- A container, from its parts one level deeper. -/
theorem bounded_container {depth nodes : ℕ} {t u v : Tally} {bytes : ℕ} {deeps : List ℕ}
    (henter : t.enter depth = .ok u) (hnodes : v.nodes = (u.add bytes).nodes + nodes)
    (hfew : (u.add bytes).nodes ≤ 8192 → v.nodes ≤ 8192)
    (hdeep : ∀ d ∈ deeps, depth + 1 + d ≤ 16) :
    Bounded depth t v (1 + nodes) ((deeps.map (· + 1)).foldr max 0) := by
  obtain ⟨hentered, hroom, hdepth⟩ := Tally.enter_eq_ok henter
  have hsame : (u.add bytes).nodes = u.nodes := rfl
  refine ⟨by omega, fun _ => hfew (hsame ▸ hroom), ?_⟩
  have hle : (deeps.map (· + 1)).foldr max 0 ≤ 16 - depth := by
    apply foldr_max_le
    intro m hm
    obtain ⟨d, hd, rfl⟩ := List.mem_map.mp hm
    have hd := hdeep d hd
    omega
  omega

theorem bounded_leaf {depth : ℕ} {t u v : Tally} (henter : t.enter depth = .ok u)
    (hsame : v.nodes = u.nodes) : Bounded depth t v 1 0 := by
  obtain ⟨hentered, hroom, hdepth⟩ := Tally.enter_eq_ok henter
  exact ⟨by omega, fun _ => hsame ▸ hroom, hdepth⟩

mutual

theorem visit_bounded {depth : ℕ} {t t' : Tally} {copy : Json} : (v : Hostile) →
    visit depth t v = .ok (copy, t') → Bounded depth t t' copy.nodes copy.depth
  | .null, h => by
    simp only [visit, bind_eq_ok, pure_eq_ok] at h
    obtain ⟨u, henter, heq⟩ := h
    obtain ⟨rfl, rfl⟩ := Prod.mk.inj heq
    exact bounded_leaf henter rfl
  | .bool b, h => by
    simp only [visit, bind_eq_ok, pure_eq_ok] at h
    obtain ⟨u, henter, heq⟩ := h
    obtain ⟨rfl, rfl⟩ := Prod.mk.inj heq
    exact bounded_leaf henter rfl
  | .num n, h => by
    simp only [visit, bind_eq_ok, pure_eq_ok] at h
    obtain ⟨u, henter, _, -, heq⟩ := h
    obtain ⟨rfl, rfl⟩ := Prod.mk.inj heq
    exact bounded_leaf henter rfl
  | .str s, h => by
    simp only [visit, bind_eq_ok, pure_eq_ok] at h
    obtain ⟨u, henter, v, hcount, heq⟩ := h
    obtain ⟨rfl, rfl⟩ := Prod.mk.inj heq
    exact bounded_leaf henter (countString_eq_ok hcount)
  | .arr items, h => by
    simp only [visit, bind_eq_ok, pure_eq_ok] at h
    obtain ⟨u, henter, _, -, ⟨out, v⟩, hitems, heq⟩ := h
    obtain ⟨rfl, rfl⟩ := Prod.mk.inj heq
    obtain ⟨hnodes, hfew, hdeep⟩ := visitItems_bounded items hitems
    have hbounded := bounded_container henter hnodes hfew hdeep
    rw [Json.nodes_arr, Json.depth_arr]
    rw [List.map_map] at hbounded
    exact hbounded
  | .obj fields, h => by
    simp only [visit, bind_eq_ok, pure_eq_ok] at h
    obtain ⟨u, henter, _, -, ⟨out, v⟩, hfields, heq⟩ := h
    obtain ⟨rfl, rfl⟩ := Prod.mk.inj heq
    obtain ⟨hnodes, hfew, hdeep⟩ := visitFields_bounded fields hfields
    have hbounded := bounded_container henter hnodes hfew hdeep
    rw [Json.nodes_obj, Json.depth_obj]
    rw [List.map_map] at hbounded
    exact hbounded
  | .other, h => by
    simp only [visit, bind_eq_ok] at h
    obtain ⟨_, -, hthrow⟩ := h
    exact nomatch hthrow

theorem visitItems_bounded {depth : ℕ} {t t' : Tally} {copies : List Json} :
    (items : List Hostile) → visitItems depth t items = .ok (copies, t') →
      t'.nodes = t.nodes + (copies.map Json.nodes).sum ∧ (t.nodes ≤ 8192 → t'.nodes ≤ 8192) ∧
        ∀ d ∈ copies.map Json.depth, depth + d ≤ 16
  | [], h => by
    simp only [visitItems, pure_eq_ok] at h
    obtain ⟨rfl, rfl⟩ := Prod.mk.inj h
    exact ⟨rfl, id, fun _ hd => nomatch hd⟩
  | item :: rest, h => by
    simp only [visitItems, bind_eq_ok, pure_eq_ok] at h
    obtain ⟨⟨copy, u⟩, hitem, ⟨rest', u'⟩, hrest, heq⟩ := h
    obtain ⟨rfl, rfl⟩ := Prod.mk.inj heq
    obtain ⟨hnodes, hfew, hdeep⟩ := visitItems_bounded rest hrest
    exact bounded_cons (visit_bounded item hitem) hnodes hfew hdeep

theorem visitFields_bounded {depth : ℕ} {t t' : Tally} {copies : List (String × Json)} :
    (fields : List (String × Hostile)) → visitFields depth t fields = .ok (copies, t') →
      t'.nodes = t.nodes + (copies.map fun m => m.2.nodes).sum ∧
        (t.nodes ≤ 8192 → t'.nodes ≤ 8192) ∧
        ∀ d ∈ copies.map fun m => m.2.depth, depth + d ≤ 16
  | [], h => by
    simp only [visitFields, pure_eq_ok] at h
    obtain ⟨rfl, rfl⟩ := Prod.mk.inj h
    exact ⟨rfl, id, fun _ hd => nomatch hd⟩
  | (key, value) :: rest, h => by
    simp only [visitFields, bind_eq_ok, pure_eq_ok] at h
    obtain ⟨_, -, s, hcount, ⟨copy, u⟩, hvalue, ⟨rest', u'⟩, hrest, heq⟩ := h
    obtain ⟨rfl, rfl⟩ := Prod.mk.inj heq
    obtain ⟨hnodes, hfew, hdeep⟩ := visitFields_bounded rest hrest
    have hbounded := visit_bounded value hvalue
    rw [Bounded, countString_eq_ok hcount] at hbounded
    exact bounded_cons hbounded hnodes hfew hdeep

end

/-- A copy has at most 8192 nodes, 16 levels and 256 KiB of canonical text. -/
theorem boundedCopy_bounded {value : Hostile} {copy : Json} (h : boundedCopy value = .ok copy) :
    copy.nodes ≤ 8192 ∧ copy.depth ≤ 16 ∧ copy.bytes ≤ maxSemanticBytes := by
  simp only [boundedCopy, bind_eq_ok, demand_eq_ok, pure_eq_ok] at h
  obtain ⟨⟨copy', t⟩, hvisit, _, -, _, hbytes, rfl⟩ := h
  obtain ⟨hnodes, hfew, hdepth⟩ := visit_bounded value hvisit
  have hroom : t.nodes ≤ 8192 := hfew (by simp)
  simp only [Nat.zero_add] at hnodes hdepth
  exact ⟨hnodes ▸ hroom, hdepth, hbytes⟩

namespace PlannedEffect

def kind : PlannedEffect → EffectKind
  | .update .. => .resourceUpdate
  | .append .. => .recordAppend

def resource : PlannedEffect → EntityReference
  | .update resource _ _ _ _ => resource
  | .append _ resource _ _ => resource

def profileDigest : PlannedEffect → Digest
  | .update _ _ _ profile _ => profile
  | .append _ _ profile _ => profile

def body : PlannedEffect → JsonObject
  | .update _ _ _ _ body => body
  | .append _ _ _ body => body

/-- The identifier of the revision or record that an effect makes. -/
def newId : PlannedEffect → Uuid
  | .update _ _ next _ _ => next
  | .append record _ _ _ => record

/-- The resource that an effect updates. -/
def updated? : PlannedEffect → Option EntityReference
  | .update resource _ _ _ _ => some resource
  | .append .. => none

end PlannedEffect

/-- An update of a given snapshot: from its exact revision to a new one, in its profile. -/
def UpdatesSnapshot (snapshots : List ResourceSnapshot) : PlannedEffect → Prop
  | .update resource expected next profile _ =>
    (∃ s ∈ snapshots, s.resource = resource ∧ s.currentRevision = expected ∧
      s.profileDigest = profile) ∧ some next ≠ expected.map RevisionReference.revisionId
  | .append .. => True

/-- An effect that the declaration, the snapshots and the admitted validators allow. -/
structure Admissible (input : AuthorizedOperationInput) (contract : OperationDescriptor)
    (validators : List OutputValidator) (e : PlannedEffect) : Prop where
  kind : e.kind ∈ contract.allowedEffects
  resource : ∃ s ∈ input.snapshots, s.resource = e.resource
  update : UpdatesSnapshot input.snapshots e
  profile : e.profileDigest ∈ contract.outputProfileDigests
  accepted : ∃ v ∈ validators, v.profileDigest = e.profileDigest ∧ v.validate e.body = some true

theorem findValidator_eq_some {validators : List OutputValidator} {profile : Digest}
    {v : OutputValidator} (h : findValidator validators profile = some v) :
    v ∈ validators ∧ v.profileDigest = profile := by
  rw [findValidator] at h
  have hprofile := List.find?_some h
  rw [decide_eq_true_eq] at hprofile
  exact ⟨List.mem_of_find?_eq_some h, hprofile⟩

/-- An effect that was read is admissible, and nothing it updates or names was used before. -/
theorem parseEffect_eq_ok {input : AuthorizedOperationInput} {contract : OperationDescriptor}
    {validators : List OutputValidator} {used used' : Used} {value : Json} {e : PlannedEffect}
    (h : parseEffect input contract validators used value = .ok (e, used')) :
    Admissible input contract validators e ∧ e.newId ∉ used.newIds ∧
      used'.newIds = e.newId :: used.newIds ∧ (∀ r ∈ e.updated?, r ∉ used.updates) ∧
      used'.updates = e.updated?.toList ++ used.updates := by
  simp only [parseEffect, bind_eq_ok, demand_eq_ok, require_eq_ok] at h
  obtain ⟨row, -, kind, -, _, hkind, _, -, ref, -, s, hsnapshot, profile, -, _, hprofile,
    body, -, v, hvalidator, _, haccepted, newId, -, _, hfresh, h⟩ := h
  have hmem := List.mem_of_find?_eq_some hsnapshot
  have hresource := List.find?_some hsnapshot
  rw [decide_eq_true_eq] at hresource
  obtain ⟨hv, hvprofile⟩ := findValidator_eq_some hvalidator
  cases kind with
  | resourceUpdate =>
    simp only [bind_eq_ok, demand_eq_ok, pure_eq_ok] at h
    obtain ⟨_, hsame, _, honce, expected, -, _, hcas, _, hnew, heq⟩ := h
    obtain ⟨rfl, rfl⟩ := Prod.mk.inj heq
    refine ⟨⟨hkind, ⟨s, hmem, hresource⟩, ⟨⟨s, hmem, hresource, hcas.symm, hsame.symm⟩, hnew⟩,
      hprofile, ⟨v, hv, hvprofile, haccepted⟩⟩, hfresh, rfl, ?_, rfl⟩
    intro r hr
    obtain rfl := Option.some.inj hr
    exact honce
  | recordAppend =>
    simp only [pure_eq_ok] at h
    obtain ⟨rfl, rfl⟩ := Prod.mk.inj h
    exact ⟨⟨hkind, ⟨s, hmem, hresource⟩, trivial, hprofile, ⟨v, hv, hvprofile, haccepted⟩⟩, hfresh,
      rfl, (by intro _ hr; cases hr), rfl⟩

/-- Effects after what was used: none updates or names what was used or what another does. -/
structure Fresh (used : Used) (effects : List PlannedEffect) : Prop where
  ids : (effects.map PlannedEffect.newId).Nodup
  unnamed : ∀ e ∈ effects, e.newId ∉ used.newIds
  updates : (effects.filterMap PlannedEffect.updated?).Nodup
  untouched : ∀ r ∈ effects.filterMap PlannedEffect.updated?, r ∉ used.updates

theorem Fresh.cons {used used' : Used} {e : PlannedEffect} {effects : List PlannedEffect}
    (h : Fresh used' effects) (hfresh : e.newId ∉ used.newIds)
    (hnewIds : used'.newIds = e.newId :: used.newIds) (honce : ∀ r ∈ e.updated?, r ∉ used.updates)
    (hupdates : used'.updates = e.updated?.toList ++ used.updates) : Fresh used (e :: effects) := by
  have hids : ∀ d ∈ effects, d.newId ≠ e.newId ∧ d.newId ∉ used.newIds := by
    intro d hd
    have hnot := h.unnamed d hd
    rw [hnewIds, List.mem_cons, not_or] at hnot
    exact hnot
  have htouched : ∀ r ∈ effects.filterMap PlannedEffect.updated?,
      r ∉ e.updated?.toList ∧ r ∉ used.updates := by
    intro r hr
    have hnot := h.untouched r hr
    rw [hupdates, List.mem_append, not_or] at hnot
    exact hnot
  refine ⟨?_, ?_, ?_, ?_⟩
  · rw [List.map_cons, List.nodup_cons]
    refine ⟨fun hmem => ?_, h.ids⟩
    obtain ⟨d, hd, hsame⟩ := List.mem_map.mp hmem
    exact (hids d hd).1 hsame
  · intro d hd
    rcases List.mem_cons.mp hd with rfl | hd
    · exact hfresh
    · exact (hids d hd).2
  · cases hupdated : e.updated? with
    | none =>
      rw [List.filterMap_cons_none hupdated]
      exact h.updates
    | some r =>
      rw [List.filterMap_cons_some hupdated, List.nodup_cons]
      refine ⟨fun hmem => (htouched r hmem).1 ?_, h.updates⟩
      rw [hupdated]
      exact List.mem_singleton_self r
  · intro r hr
    cases hupdated : e.updated? with
    | none =>
      rw [List.filterMap_cons_none hupdated] at hr
      exact (htouched r hr).2
    | some d =>
      rw [List.filterMap_cons_some hupdated] at hr
      rcases List.mem_cons.mp hr with rfl | hr
      · exact honce r hupdated
      · exact (htouched r hr).2

theorem parseEffects_eq_ok {input : AuthorizedOperationInput} {contract : OperationDescriptor}
    {validators : List OutputValidator} {used : Used} {values : List Json}
    {effects : List PlannedEffect}
    (h : parseEffects input contract validators used values = .ok effects) :
    effects.length = values.length ∧ (∀ e ∈ effects, Admissible input contract validators e) ∧
      Fresh used effects := by
  induction values generalizing used effects with
  | nil =>
    obtain rfl := Except.ok.inj h
    exact ⟨rfl, (fun _ he => nomatch he), .nil, (fun _ he => nomatch he), .nil,
      fun _ hr => nomatch hr⟩
  | cons value rest ih =>
    simp only [parseEffects, bind_eq_ok, pure_eq_ok] at h
    obtain ⟨⟨e, used'⟩, heffect, later, hlater, rfl⟩ := h
    obtain ⟨hlength, hadmissible, hfresh⟩ := ih hlater
    obtain ⟨he, hunnamed, hnewIds, honce, hupdates⟩ := parseEffect_eq_ok heffect
    refine ⟨?_, ?_, hfresh.cons hunnamed hnewIds honce hupdates⟩
    · rw [List.length_cons, List.length_cons, hlength]
    · intro d hd
      rcases List.mem_cons.mp hd with rfl | hd
      · exact he
      · exact hadmissible d hd

/-- What a plan has to expect of a snapshot. -/
def ResourceSnapshot.expectation (s : ResourceSnapshot) : ResourceExpectation :=
  ⟨s.resource, s.currentRevision⟩

/-- As many expectations as snapshots, of each snapshot one: they are those of the snapshots. -/
theorem expectations_perm {es : List ResourceExpectation} {ss : List ResourceSnapshot}
    (hss : (ss.map fun s => s.resource).Nodup) (hlength : es.length = ss.length)
    (hclosed : ∀ s ∈ ss, ∃ e ∈ es, e.resource = s.resource ∧ e.revision = s.currentRevision) :
    es.Perm (ss.map ResourceSnapshot.expectation) := by
  have hnodup : (ss.map ResourceSnapshot.expectation).Nodup := by
    apply List.Nodup.of_map ResourceExpectation.resource
    rw [List.map_map]
    exact hss
  have hsubset : ss.map ResourceSnapshot.expectation ⊆ es := by
    intro e he
    obtain ⟨s, hs, rfl⟩ := List.mem_map.mp he
    obtain ⟨⟨resource, revision⟩, he, hresource, hrevision⟩ := hclosed s hs
    rw [ResourceSnapshot.expectation, ← hresource, ← hrevision]
    exact he
  have hsubperm := List.subperm_of_subset hnodup hsubset
  have hcount : (ss.map ResourceSnapshot.expectation).length = es.length := by
    rw [List.length_map, hlength]
  have hle : es.length ≤ (ss.map ResourceSnapshot.expectation).length := Nat.le_of_eq hcount.symm
  exact (hsubperm.perm_of_length_le hle).symm

/-- A plan within what was declared and given. -/
structure EffectPlan.Confined (plan : EffectPlan) (input : AuthorizedOperationInput)
    (contract : OperationDescriptor) (validators : List OutputValidator) : Prop where
  expected : plan.expectedResources.Perm (input.snapshots.map ResourceSnapshot.expectation)
  distinct : (plan.expectedResources.map fun e => e.resource).Nodup
  admissible : ∀ e ∈ plan.effects, Admissible input contract validators e
  updates : (plan.effects.filterMap PlannedEffect.updated?).Nodup
  ids : (plan.effects.map PlannedEffect.newId).Nodup
  resources : plan.expectedResources.length ≤ contract.maxResources
  effects : plan.effects.length ≤ contract.maxEffects

theorem array_eq_ok {value : Json} {max : ℕ} {items : List Json} (h : array value max = .ok items) :
    items.length ≤ max := by
  unfold array at h
  split at h
  · simp only [bind_eq_ok, demand_eq_ok, pure_eq_ok] at h
    obtain ⟨_, hlength, rfl⟩ := h
    exact hlength
  · cases h

theorem length_of_mapM {α β : Type} {f : α → Read β} {l : List α} {l' : List β}
    (h : l.mapM f = .ok l') : l'.length = l.length :=
  (mapM_forall₂ h).length_eq.symm

theorem unique_eq_ok {α κ : Type} [DecidableEq κ] {values out : List α} {key : α → κ}
    {reason : String} (h : unique values key reason = .ok out) :
    out = values ∧ (values.map key).Nodup := by
  simp only [unique, bind_eq_ok, demand_eq_ok, pure_eq_ok] at h
  obtain ⟨_, hnodup, rfl⟩ := h
  exact ⟨rfl, hnodup⟩

/-- Whatever value is read as a plan, the plan is confined. -/
theorem parsePlan_confined {value : Hostile} {input : AuthorizedOperationInput}
    {contract : OperationDescriptor} {validators : List OutputValidator} {plan : EffectPlan}
    (hinput : (input.snapshots.map fun s => s.resource).Nodup)
    (h : parsePlan value input contract validators = .ok plan) :
    plan.Confined input contract validators ∧ ∃ copy, boundedCopy value = .ok copy := by
  simp only [parsePlan, bind_eq_ok, demand_eq_ok, pure_eq_ok] at h
  obtain ⟨copy, hcopy, o, -, rows, hrows, expected, hexpected, _, hunique, _, ⟨hlength, hclosed⟩,
    rows', hrows', effects, heffects, rfl⟩ := h
  obtain ⟨rfl, hnodup⟩ := unique_eq_ok hunique
  obtain ⟨hcount, hadmissible, hfresh⟩ := parseEffects_eq_ok heffects
  refine ⟨⟨expectations_perm hinput hlength hclosed, hnodup, hadmissible, hfresh.updates,
    hfresh.ids, ?_, ?_⟩, copy, hcopy⟩
  · exact Nat.le_trans (Nat.le_of_eq (length_of_mapM hexpected)) (array_eq_ok hrows)
  · exact Nat.le_trans (Nat.le_of_eq hcount) (array_eq_ok hrows')

/-- What an admission leaves in a registry. -/
structure Admits (admissions : List HandlerAdmission) (validators : List OutputValidator)
    (h : AdmittedHandler) : Prop where
  admitted : ∃ a ∈ admissions, parseOperationDescriptor a.descriptor = .ok h.contract ∧
    a.evaluate = h.evaluate ∧ a.descriptorDigest = h.descriptorDigest ∧
    a.handlerDigest = h.handlerDigest
  validated : ∀ p ∈ h.contract.outputProfileDigests, ∃ v ∈ validators, v.profileDigest = p

theorem admitValidators_eq_ok {validators out : List OutputValidator}
    (h : validators.foldlM admitValidator [] = .ok out) : out = validators := by
  refine foldlM_prefix (fun pre s => s = pre) ?_ rfl h
  rintro pre v s t rfl hstep
  simp only [admitValidator, bind_eq_ok, demand_eq_ok, pure_eq_ok] at hstep
  obtain ⟨_, -, rfl⟩ := hstep
  rfl

theorem descriptor_bounded {value : Json} {d : OperationDescriptor} (h : descriptor value = .ok d) :
    d.maxResources ≤ 32 ∧ d.maxEffects ≤ 32 := by
  have hcount : ∀ {v : Json} {n : ℕ}, count v false = .ok n → n ≤ 32 := by
    intro v n hn
    unfold count at hn
    split at hn
    · simp only [bind_eq_ok, demand_eq_ok, pure_eq_ok] at hn
      obtain ⟨_, hle, rfl⟩ := hn
      omega
    · cases hn
  simp only [descriptor, bind_eq_ok, pure_eq_ok] at h
  obtain ⟨_, -, _, -, _, -, _, -, _, -, _, -, _, -, _, -, _, -, _, -, _, -, _, -, _, -, _, -, _, -,
    _, -, _, -, _, -, _, -, _, hresources, _, heffects, rfl⟩ := h
  exact ⟨hcount hresources, hcount heffects⟩

section
variable [SemanticDigest]

theorem admitHandlers_eq_ok {admissions : List HandlerAdmission}
    {validators : List OutputValidator} {r : SemanticRegistry}
    (h : admissions.foldlM admitHandler { handlers := [], validators } = .ok r) :
    r.validators = validators ∧ ∀ a ∈ r.handlers, Admits admissions validators a := by
  have hempty : ∀ a ∈ ([] : List AdmittedHandler), Admits admissions validators a :=
    fun _ ha => nomatch ha
  refine foldlM_invariant (fun r : SemanticRegistry => r.validators = validators ∧
    ∀ a ∈ r.handlers, Admits admissions validators a) admitHandler admissions ?_ ⟨rfl, hempty⟩ h
  rintro admission hadmission s t ⟨hvalidators, hhandlers⟩ hstep
  simp only [admitHandler, bind_eq_ok, demand_eq_ok, pure_eq_ok] at hstep
  obtain ⟨contract, hcontract, _, hdigest, _, hvalidated, _, -, rfl⟩ := hstep
  refine ⟨hvalidators, fun a ha => ?_⟩
  rcases List.mem_append.mp ha with ha | ha
  · exact hhandlers a ha
  · obtain rfl := List.mem_singleton.mp ha
    refine ⟨⟨admission, hadmission, hcontract, rfl, rfl, rfl⟩, fun p hp => ?_⟩
    obtain ⟨v, hv⟩ := Option.isSome_iff_exists.mp (hvalidated p hp)
    obtain ⟨hmem, hprofile⟩ := findValidator_eq_some hv
    exact ⟨v, hvalidators ▸ hmem, hprofile⟩

end

/-- The snapshots of an input are of different resources. -/
theorem parseInput_eq_ok {value : Hostile} {input : AuthorizedOperationInput}
    (h : parseInput value = .ok input) : (input.snapshots.map fun s => s.resource).Nodup := by
  simp only [parseInput, bind_eq_ok, pure_eq_ok] at h
  obtain ⟨_, -, _, -, _, -, _, -, _, -, _, -, _, -, _, -, _, -, snapshots, hunique,
    _, -, _, -, _, -, rfl⟩ := h
  obtain ⟨rfl, hnodup⟩ := unique_eq_ok hunique
  exact hnodup

/-- Whatever the admitted handlers return, and whatever input is evaluated: a plan that is
returned expects exactly the given snapshots and stays within the declaration of the operation,
with every output accepted by a validator that was admitted; otherwise nothing is returned. -/
theorem plans_confined [SemanticDigest] {admissions : List HandlerAdmission}
    {validators : List OutputValidator} {r : SemanticRegistry} {value : Hostile}
    {out : EvaluatedOperation} (hr : createSemanticRegistry admissions validators = .ok r)
    (h : r.evaluateAuthorized value = .ok out) :
    ∃ input admission contract proposed copy,
      parseInput value = .ok input ∧ admission ∈ admissions ∧
      parseOperationDescriptor admission.descriptor = .ok contract ∧
      contract.profileDigest = input.intent.profileDigest ∧
      contract.name = input.intent.operation ∧
      (∀ p ∈ contract.outputProfileDigests, ∃ v ∈ validators, v.profileDigest = p) ∧
      admission.evaluate input = some proposed ∧ boundedCopy proposed = .ok copy ∧
      copy.nodes ≤ 8192 ∧ copy.depth ≤ 16 ∧ copy.bytes ≤ maxSemanticBytes ∧
      contract.maxResources ≤ 32 ∧ contract.maxEffects ≤ 32 ∧
      out.plan.Confined input contract validators := by
  simp only [createSemanticRegistry, bind_eq_ok] at hr
  obtain ⟨_, -, vs, hvs, hhandlers⟩ := hr
  obtain rfl := admitValidators_eq_ok hvs
  obtain ⟨hvalidators, hadmits⟩ := admitHandlers_eq_ok hhandlers
  simp only [SemanticRegistry.evaluateAuthorized, bind_eq_ok, require_eq_ok, pure_eq_ok] at h
  obtain ⟨input, hinput, handler, hfound, _, -, _, -, _, -, proposed, hproposed, plan,
    hplan, rfl⟩ := h
  rw [SemanticRegistry.find] at hfound
  have hnamed := List.find?_some hfound
  rw [decide_eq_true_eq] at hnamed
  obtain ⟨⟨admission, hmem, hcontract, hevaluate, -, -⟩, hvalidated⟩ :=
    hadmits handler (List.mem_of_find?_eq_some hfound)
  rw [hvalidators] at hplan
  obtain ⟨hconfined, copy, hcopy⟩ := parsePlan_confined (parseInput_eq_ok hinput) hplan
  obtain ⟨hnodes, hdepth, hbytes⟩ := boundedCopy_bounded hcopy
  have hparsed := hcontract
  simp only [parseOperationDescriptor, bind_eq_ok] at hparsed
  obtain ⟨_, -, hdescriptor⟩ := hparsed
  obtain ⟨hresources, heffects⟩ := descriptor_bounded hdescriptor
  exact ⟨input, admission, handler.contract, proposed, copy, hinput, hmem, hcontract, hnamed.1,
    hnamed.2, hvalidated, hevaluate ▸ hproposed, hcopy, hnodes, hdepth, hbytes, hresources,
    heffects, hconfined⟩

@[reducible] def sampleSemanticDigest : SemanticDigest := ⟨fun _ => 8, fun _ => 9⟩

def sampleId (n : ℕ) : Hostile := .str (uuidText n)

def sampleHash (n : ℕ) : Hostile := .str (String.ofList (hexText 64 n))

def sampleResource : Hostile :=
  .obj [("kind", .str "resource"), ("id", sampleId 2), ("organization_id", sampleId 1)]

def sampleRevision : Hostile :=
  .obj [("entity", sampleResource), ("revision_id", sampleId 3), ("digest", sampleHash 4)]

def sampleBody (n : ℤ) : Hostile := .obj [("available", .num n)]

def sampleDescriptor : Hostile :=
  .obj [("profile_digest", sampleHash 5), ("name", .str "stock.adjust"),
    ("input_profile_digests", .arr [sampleHash 5]), ("output_profile_digests", .arr [sampleHash 5]),
    ("required_grants", .arr []), ("allowed_effects", .arr [.str "resource.update"]),
    ("max_inputs", .num 1), ("max_resources", .num 1), ("max_effects", .num 1),
    ("concurrency", .str "exact-revision"), ("retry", .str "business-operation-id")]

def sampleInput : Hostile :=
  .obj [("intent", .obj [("operation_id", sampleId 6), ("organization_id", sampleId 1),
      ("profile_digest", sampleHash 5), ("operation", .str "stock.adjust"),
      ("descriptor_digest", sampleHash 8), ("handler_digest", sampleHash 7),
      ("resources", .arr [sampleResource]), ("inputs", .arr []), ("parameters", .obj [])]),
    ("authorized_inputs", .arr []),
    ("snapshots", .arr [.obj [("resource", sampleResource), ("profile_digest", sampleHash 5),
      ("current_revision", sampleRevision), ("body", sampleBody 10)]]),
    ("accepted_at", .str "2026-09-12T12:00:00.000Z")]

def samplePlan : Hostile :=
  .obj [("expected_resources", .arr [.obj [("resource", sampleResource),
      ("revision", sampleRevision)]]),
    ("effects", .arr [.obj [("kind", .str "resource.update"), ("resource", sampleResource),
      ("expected_revision", sampleRevision), ("next_revision_id", sampleId 10),
      ("profile_digest", sampleHash 5), ("body", sampleBody 8)]])]

def sampleAdmission : HandlerAdmission := ⟨sampleDescriptor, 8, 7, fun _ => some samplePlan⟩

def sampleValidator : OutputValidator := ⟨5, fun _ => some true⟩

/-- The evaluation of the sample, whatever it is. -/
def sampleEvaluation : Read EvaluatedOperation :=
  letI := sampleSemanticDigest
  createSemanticRegistry [sampleAdmission] [sampleValidator] >>= fun r =>
    r.evaluateAuthorized sampleInput

theorem sampleEvaluation_planned :
    sampleEvaluation.toOption.map (fun out => out.plan.effects.map PlannedEffect.newId) =
      some [10] := by
  decide +kernel

/-- An admitted handler adjusts the stock: the plan has one effect, on the one snapshot. -/
theorem plans_confined_sample : letI := sampleSemanticDigest
    ∃ out : EvaluatedOperation, out.plan.effects.map PlannedEffect.newId = [10] ∧
      ∃ input, parseInput sampleInput = .ok input ∧
        out.plan.expectedResources.Perm (input.snapshots.map ResourceSnapshot.expectation) := by
  let := sampleSemanticDigest
  have hplanned := sampleEvaluation_planned
  cases hrun : sampleEvaluation with
  | error e =>
    rw [hrun] at hplanned
    exact nomatch hplanned
  | ok out =>
    rw [hrun] at hplanned
    have hids : out.plan.effects.map PlannedEffect.newId = [10] := Option.some.inj hplanned
    simp only [sampleEvaluation, bind_eq_ok] at hrun
    obtain ⟨r, hr, hout⟩ := hrun
    obtain ⟨input, _, _, _, _, hinput, -, -, -, -, -, -, -, -, -, -, -, -, hconfined⟩ :=
      plans_confined hr hout
    exact ⟨out, hids, input, hinput, hconfined.expected⟩

end DirectTrade.Foundation.Semantics
