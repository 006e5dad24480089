import DirectTrade.Chains
import DirectTrade.Disclosure
import DirectTrade.Profiles.Product
import DirectTrade.Profiles.Order
import DirectTrade.Profiles.Forecast
import DirectTrade.Profiles.Object
import DirectTrade.Profiles.Party

/-!
Revisions of products, orders, forecasts, objects and parties. The host compares a body only
with the one it revises, on append and on import alike; here the histories of whole chains
follow. A record is stored with the profile whose rules it passed, and its chain is read from
there.
-/

namespace DirectTrade

open Library Outcome Profiles

/-- The built-in rules of the business profiles, beside any other rules. -/
@[reducible] def withProfiles (base : Reducers) : Reducers :=
  { base with
    validateProduct := fun b => .ok (Profiles.validateProduct b)
    checkProductContinuity := Profiles.checkProductContinuity
    validateOrder := Profiles.validateOrder
    checkOrderContinuity := Profiles.checkOrderContinuity
    checkOrderGenesis := fun b => .ok (Profiles.checkOrderGenesis b)
    validateForecast := Profiles.validateForecast
    checkForecastContinuity := Profiles.checkForecastContinuity
    validateObject := fun b => .ok (Profiles.validateObject b)
    checkObjectOwner := Profiles.checkObjectOwner
    checkObjectContinuity := Profiles.checkObjectContinuity
    checkObjectGenesis := fun b => .ok (Profiles.checkObjectGenesis b)
    validateParty := Profiles.validateParty
    checkPartyContinuity := fun a b => .ok (Profiles.checkPartyContinuity a b) }

/-- What a business semantics asks of a body, of a first body and of a revision. -/
structure Ruleset where
  semantics : Semantics
  profile : String
  valid : Json → Prop
  first : Json → Prop
  continues : Json → Json → Prop

section

variable [Reducers]

def productRules : Ruleset where
  semantics := .productV1
  profile := "dtp.product/1"
  valid b := Reducers.validateProduct b = .ok []
  first _ := True
  continues a b := Reducers.checkProductContinuity a b = .ok []

def orderRules : Ruleset where
  semantics := .orderV1
  profile := "dtp.order/1"
  valid b := Reducers.validateOrder b = .ok []
  first b := Reducers.checkOrderGenesis b = .ok []
  continues a b := Reducers.checkOrderContinuity a b = .ok []

def forecastRules : Ruleset where
  semantics := .forecastV1
  profile := "dtp.forecast/1"
  valid b := Reducers.validateForecast b = .ok []
  first _ := True
  continues a b := Reducers.checkForecastContinuity a b = .ok []

def objectRules : Ruleset where
  semantics := .objectV1
  profile := "dtp.object/1"
  valid b := Reducers.validateObject b = .ok []
  first b := Reducers.checkObjectGenesis b = .ok []
  continues a b := Reducers.checkObjectContinuity a b = .ok []

def partyRules : Ruleset where
  semantics := .partyV1
  profile := "dtp.party/1"
  valid b := Reducers.validateParty b = .ok []
  first _ := True
  continues a b := Reducers.checkPartyContinuity a b = .ok []

def rulesets : List Ruleset := [productRules, orderRules, forecastRules, objectRules, partyRules]

/-- A profile's name tells its rules. -/
theorem eq_of_profile {R S : Ruleset} (hR : R ∈ rulesets) (hS : S ∈ rulesets)
    (h : R.profile = S.profile) : R = S := by
  have hnodup : (rulesets.map (·.profile)).Nodup := by
    show ["dtp.product/1", "dtp.order/1", "dtp.forecast/1", "dtp.object/1", "dtp.party/1"].Nodup
    decide
  exact List.inj_on_of_nodup_map hnodup hR hS h

/-- A body passes the rules, after the body that it revises, if there is one. -/
structure Ruleset.Passes (R : Ruleset) (find : Uuid → Option BusinessRecord)
    (p : RecordPayload) : Prop where
  valid : R.valid p.body
  first : p.supersedes = none → R.first p.body
  continues : ∀ id, p.supersedes = some id → ∃ b, find id = some b ∧ R.continues b.body p.body

omit [Reducers] in
/-- Only the bodies of the revised records count. -/
theorem Ruleset.Passes.mono {R : Ruleset} {find find' : Uuid → Option BusinessRecord}
    {p : RecordPayload} (h : R.Passes find p)
    (kept : ∀ id b, find id = some b → ∃ b', find' id = some b' ∧ b'.body = b.body) :
    R.Passes find' p where
  valid := h.valid
  first := h.first
  continues id hid := by
    obtain ⟨b, hb, hcontinues⟩ := h.continues id hid
    obtain ⟨b', hb', hbody⟩ := kept id b hb
    refine ⟨b', hb', ?_⟩
    rw [hbody]
    exact hcontinues

end

theorem passes_eq_ok {rule : Attempt (List Issue)} {code : String} {u : Unit} :
    passes rule code = .ok u ↔ rule = .ok [] := by
  simp only [passes, bind_eq_ok]
  constructor
  · intro h
    obtain ⟨issues, hrule, hnone⟩ := h
    cases issues with
    | nil => exact hrule
    | cons issue rest => cases hnone
  · intro h
    exact ⟨[], h, rfl⟩

theorem passesRevision_eq_ok {before : Option BusinessRecord} {body : Json}
    {rule : Json → Json → Attempt (List Issue)} {code : String} {u : Unit} :
    Call.passesRevision before body rule code = .ok u ↔
      ∀ prior, before = some prior → rule prior.body body = .ok [] := by
  cases before with
  | none => simp [Call.passesRevision]
  | some prior => simp [Call.passesRevision, passes_eq_ok]

theorem passesChain_eq_ok {before : Option BusinessRecord} {body : Json}
    {rule : Json → Json → Attempt (List Issue)} {genesis : Json → Attempt (List Issue)}
    {code : String} {u : Unit} :
    Call.passesChain before body rule genesis code = .ok u ↔
      (before = none → genesis body = .ok []) ∧
        ∀ prior, before = some prior → rule prior.body body = .ok [] := by
  cases before with
  | none => simp [Call.passesChain, passes_eq_ok]
  | some prior => simp [Call.passesChain, passes_eq_ok]

/-- The readable predecessor of a record that continues it is the record it supersedes. -/
theorem Call.predecessor_eq {k : Call} {o : Organization} {p : RecordPayload}
    {before : Option BusinessRecord} (h : k.predecessor o p = .ok before)
    (continues : continuity p before = .ok ()) :
    (before = none ↔ p.supersedes = none) ∧
      ∀ id, p.supersedes = some id → k.s.records.get? id = before := by
  cases before with
  | none =>
    simp only [continuity, demand_eq_ok] at continues
    refine ⟨by simp [continues.1], ?_⟩
    intro id hid
    rw [continues.1] at hid
    cases hid
  | some b =>
    unfold Call.predecessor at h
    cases hsup : p.supersedes with
    | none => simp [hsup] at h
    | some id =>
      rw [hsup, Option.bind_some] at h
      refine ⟨by simp, ?_⟩
      intro id' hid'
      have hid : id = id' := Option.some.inj hid'
      rw [← hid]
      split at h
      next => cases h
      next prior hprior =>
        split at h
        next =>
          simp only [bind_eq_ok, pure_eq_ok] at h
          obtain ⟨readable, -, hchosen⟩ := h
          cases readable with
          | true =>
            rw [hprior]
            exact hchosen
          | false => cases hchosen
        next => cases h

section

variable [Reducers]

theorem Call.assessParty_rules {k : Call} {p : RecordPayload} {before : Option BusinessRecord}
    {u : Unit} (h : k.assessParty p before = .ok u) :
    Reducers.validateParty p.body = .ok [] ∧
      ∀ prior, before = some prior →
        Reducers.checkPartyContinuity prior.body p.body = .ok [] := by
  simp only [assessParty, bind_eq_ok, passes_eq_ok] at h
  obtain ⟨_, hvalid, h⟩ := h
  refine ⟨hvalid, ?_⟩
  split at h
  next =>
    simp only [bind_eq_ok, passesRevision_eq_ok] at h
    obtain ⟨_, -, _, -, hcontinues⟩ := h
    exact hcontinues
  next =>
    exact passesRevision_eq_ok.mp h

variable [Primitives]

/-- Stock is not stored with the name of a profile alone. -/
theorem assessEvent_ne {s : State} {o : Organization} {p : RecordPayload}
    {company : Option Inventory} {profile : String} :
    assessEvent s o p ≠ .ok (.validated company (.businessRules profile)) := by
  intro h
  simp only [assessEvent, bind_eq_ok] at h
  obtain ⟨_, -, _, -, _, -, _, -, h⟩ := h
  split at h
  next =>
    simp only [bind_eq_ok, pure_eq_ok] at h
    obtain ⟨_, -, hsame⟩ := h
    cases hsame
  next =>
    simp only [bind_eq_ok, pure_eq_ok] at h
    obtain ⟨_, -, hsame⟩ := h
    cases hsame

theorem assessFact_ne {s : State} {o : Organization} {p : RecordPayload}
    {company : Option Inventory} {profile : String} :
    assessFact s o p ≠ .ok (.validated company (.businessRules profile)) := by
  intro h
  simp only [assessFact, bind_eq_ok] at h
  obtain ⟨_, -, _, -, _, -, _, -, _, -, _, -, h⟩ := h
  split at h
  next =>
    simp only [bind_eq_ok, pure_eq_ok] at h
    obtain ⟨_, -, hsame⟩ := h
    cases hsame
  next =>
    simp only [bind_eq_ok, pure_eq_ok] at h
    obtain ⟨_, -, hsame⟩ := h
    cases hsame

theorem assessFlowFact_ne {s : State} {o : Organization} {c : Command} {p : RecordPayload}
    {company : Option Inventory} {profile : String} :
    assessFlowFact s o c p ≠ .ok (.validated company (.businessRules profile)) := by
  intro h
  simp only [assessFlowFact, bind_eq_ok] at h
  obtain ⟨_, -, _, -, _, -, _, -, _, -, _, -, h⟩ := h
  split at h
  next =>
    simp only [bind_eq_ok, pure_eq_ok] at h
    obtain ⟨_, -, hsame⟩ := h
    cases hsame
  next =>
    simp only [bind_eq_ok, pure_eq_ok] at h
    obtain ⟨_, -, _, -, _, -, hsame⟩ := h
    cases hsame

/-- A body that was judged under a profile passed the rules of the profile's semantics. -/
theorem Call.assess_rules {k : Call} {s : State} {o : Organization} {profile : Profile}
    {p : RecordPayload} {before : Option BusinessRecord} {company : Option Inventory}
    {R : Ruleset} (hR : R ∈ rulesets)
    (h : k.assess s o profile p before = .ok (.validated company (.businessRules R.profile))) :
    profile.semantics = R.semantics ∧ R.valid p.body ∧ (before = none → R.first p.body) ∧
      ∀ prior, before = some prior → R.continues prior.body p.body := by
  -- the profile that the record is stored with tells which rules it passed
  have hnamed : ∀ S ∈ rulesets, Assessed.validated none (.businessRules S.profile) =
      .validated company (.businessRules R.profile) → S = R := by
    intro S hS hsame
    injection hsame with _ hsame
    injection hsame with hsame
    exact eq_of_profile hS hR hsame
  unfold Call.assess at h
  split at h
  case h_3 hsemantics =>
    simp only [bind_eq_ok, pure_eq_ok, passes_eq_ok, passesRevision_eq_ok] at h
    obtain ⟨_, hvalid, _, hcontinues, hsame⟩ := h
    rw [← hnamed productRules (by simp [rulesets]) hsame]
    exact ⟨hsemantics, hvalid, fun _ => trivial, hcontinues⟩
  case h_4 hsemantics =>
    simp only [bind_eq_ok, pure_eq_ok, passes_eq_ok, passesChain_eq_ok] at h
    obtain ⟨_, hvalid, _, ⟨hfirst, hcontinues⟩, hsame⟩ := h
    rw [← hnamed orderRules (by simp [rulesets]) hsame]
    exact ⟨hsemantics, hvalid, hfirst, hcontinues⟩
  case h_5 hsemantics =>
    simp only [bind_eq_ok, pure_eq_ok, passes_eq_ok, passesRevision_eq_ok] at h
    obtain ⟨_, hvalid, _, hcontinues, hsame⟩ := h
    rw [← hnamed forecastRules (by simp [rulesets]) hsame]
    exact ⟨hsemantics, hvalid, fun _ => trivial, hcontinues⟩
  case h_6 hsemantics =>
    simp only [bind_eq_ok, pure_eq_ok, passes_eq_ok, passesChain_eq_ok] at h
    obtain ⟨_, hvalid, _, -, _, ⟨hfirst, hcontinues⟩, hsame⟩ := h
    rw [← hnamed objectRules (by simp [rulesets]) hsame]
    exact ⟨hsemantics, hvalid, hfirst, hcontinues⟩
  case h_7 hsemantics =>
    simp only [bind_eq_ok, pure_eq_ok] at h
    obtain ⟨_, hparty, hsame⟩ := h
    rw [← hnamed partyRules (by simp [rulesets]) hsame]
    have hrules := k.assessParty_rules hparty
    exact ⟨hsemantics, hrules.1, fun _ => trivial, hrules.2⟩
  case h_1 =>
    cases (pure_eq_ok _ _).mp h
  case h_2 =>
    simp only [bind_eq_ok, pure_eq_ok] at h
    obtain ⟨_, -, _, -, hsame⟩ := h
    cases hsame
  case h_8 => exact absurd h assessFact_ne
  case h_9 => exact absurd h assessFlowFact_ne
  case h_10 => exact absurd h assessEvent_ne

/-- A record is stored as judged by the rules of the semantics of the profile that it is
appended under. -/
theorem Call.assess_stored {k : Call} {s : State} {o : Organization} {profile : Profile}
    {p : RecordPayload} {before : Option BusinessRecord} {company : Option Inventory}
    {validation : Validation} {R : Ruleset} (hR : R ∈ rulesets)
    (semantics : profile.semantics = R.semantics)
    (h : k.assess s o profile p before = .ok (.validated company validation)) :
    validation = .businessRules R.profile := by
  simp only [rulesets, List.mem_cons, List.not_mem_nil, or_false] at hR
  obtain rfl | rfl | rfl | rfl | rfl := hR
  all_goals
    simp only [productRules, orderRules, forecastRules, objectRules, partyRules] at semantics
    simp only [Call.assess, semantics, bind_eq_ok, pure_eq_ok] at h
  case inr.inr.inr.inl =>
    obtain ⟨_, -, _, -, _, -, hsame⟩ := h
    cases hsame
    rfl
  case inr.inr.inr.inr =>
    obtain ⟨_, -, hsame⟩ := h
    cases hsame
    rfl
  all_goals
    obtain ⟨_, -, _, -, hsame⟩ := h
    cases hsame
    rfl

omit [Primitives] [Reducers] in
theorem noIssue_eq_ok {rule : Attempt (List Issue)} {message : String} {u : Unit} :
    noIssue rule message = .ok u ↔ rule = .ok [] := by
  simp only [noIssue, bind_eq_ok, invalidSnapshot_eq_ok]
  constructor
  · intro h
    obtain ⟨issues, hrule, hnone⟩ := h
    rw [hrule, hnone]
  · intro h
    exact ⟨[], h, rfl⟩

/-- The revised record of a carried one, and the rule that compares the two. -/
def Compared (s : State) (snap : Snapshot) (r : BusinessRecord) (rule : Json → Json → Prop) :
    Prop :=
  ∀ id, r.supersedes = some id → ∃ b, priorRecord s snap r = some b ∧ rule b.body r.body

omit [Primitives] [Reducers] in
theorem revisionRule_eq_ok {s : State} {snap : Snapshot} {r : BusinessRecord}
    {rule : Json → Json → Attempt (List Issue)} {message : String} {u : Unit} :
    revisionRule s snap r rule message = .ok u ↔
      Compared s snap r fun a b => rule a b = .ok [] := by
  unfold revisionRule Compared
  cases hsup : r.supersedes with
  | none => simp
  | some id => simp [noIssue_eq_ok, require_eq_ok]

omit [Primitives] [Reducers] in
theorem chainRule_eq_ok {s : State} {snap : Snapshot} {r : BusinessRecord}
    {rule : Json → Json → Attempt (List Issue)} {genesis : Json → Attempt (List Issue)}
    {message : String} {u : Unit} :
    chainRule s snap r rule genesis message = .ok u ↔
      (r.supersedes = none → genesis r.body = .ok []) ∧
        Compared s snap r fun a b => rule a b = .ok [] := by
  unfold chainRule Compared
  cases hsup : r.supersedes with
  | none => simp [noIssue_eq_ok]
  | some id => simp [noIssue_eq_ok, require_eq_ok]

/-- A carried body that was judged under a profile passed the rules of the semantics. -/
theorem replayBusiness_rules {s : State} {snap : Snapshot} {replay replay' : RecordReplay}
    {r : BusinessRecord} {semantics : Semantics} {R : Ruleset} (hR : R ∈ rulesets)
    (h : replayBusiness s snap replay r semantics = .ok (.businessRules R.profile, replay')) :
    semantics = R.semantics ∧ R.valid r.body ∧ (r.supersedes = none → R.first r.body) ∧
      Compared s snap r R.continues := by
  have hnamed : ∀ S ∈ rulesets, Validation.businessRules S.profile = .businessRules R.profile →
      S = R := by
    intro S hS hsame
    injection hsame with hsame
    exact eq_of_profile hS hR hsame
  cases semantics with
  | structural =>
    simp only [replayBusiness, pure_eq_ok, Prod.mk.injEq] at h
    cases h.1
  | invoiceV1 =>
    simp only [replayBusiness, bind_eq_ok, pure_eq_ok, Prod.mk.injEq] at h
    obtain ⟨_, -, _, -, hsame, -⟩ := h
    cases hsame
  | inventoryV1 =>
    simp only [replayBusiness, replayEvent, bind_eq_ok, pure_eq_ok, Prod.mk.injEq] at h
    obtain ⟨_, -, _, -, _, -, _, -, hsame, -⟩ := h
    cases hsame
  | inventoryV2 =>
    simp only [replayBusiness, replayFact, bind_eq_ok, pure_eq_ok, Prod.mk.injEq] at h
    obtain ⟨_, -, _, -, _, -, _, -, _, -, _, -, hsame, -⟩ := h
    cases hsame
  | flowV1 =>
    simp only [replayBusiness, replayFlowFact, bind_eq_ok, pure_eq_ok, Prod.mk.injEq] at h
    obtain ⟨_, -, _, -, _, -, _, -, _, -, _, -, _, -, _, -, _, -, hsame, -⟩ := h
    cases hsame
  | productV1 =>
    simp only [replayBusiness, bind_eq_ok, pure_eq_ok, Prod.mk.injEq, noIssue_eq_ok,
      revisionRule_eq_ok] at h
    obtain ⟨_, hvalid, _, hcompared, hsame, -⟩ := h
    rw [← hnamed productRules (by simp [rulesets]) hsame]
    exact ⟨rfl, hvalid, fun _ => trivial, hcompared⟩
  | orderV1 =>
    simp only [replayBusiness, bind_eq_ok, pure_eq_ok, Prod.mk.injEq, noIssue_eq_ok,
      chainRule_eq_ok] at h
    obtain ⟨_, hvalid, _, ⟨hfirst, hcompared⟩, hsame, -⟩ := h
    rw [← hnamed orderRules (by simp [rulesets]) hsame]
    exact ⟨rfl, hvalid, hfirst, hcompared⟩
  | forecastV1 =>
    simp only [replayBusiness, bind_eq_ok, pure_eq_ok, Prod.mk.injEq, noIssue_eq_ok,
      revisionRule_eq_ok] at h
    obtain ⟨_, hvalid, _, hcompared, hsame, -⟩ := h
    rw [← hnamed forecastRules (by simp [rulesets]) hsame]
    exact ⟨rfl, hvalid, fun _ => trivial, hcompared⟩
  | objectV1 =>
    simp only [replayBusiness, bind_eq_ok, pure_eq_ok, Prod.mk.injEq, noIssue_eq_ok,
      chainRule_eq_ok] at h
    obtain ⟨_, hvalid, _, -, _, ⟨hfirst, hcompared⟩, hsame, -⟩ := h
    rw [← hnamed objectRules (by simp [rulesets]) hsame]
    exact ⟨rfl, hvalid, hfirst, hcompared⟩
  | partyV1 =>
    simp only [replayBusiness, replayParty, bind_eq_ok, pure_eq_ok, Prod.mk.injEq, noIssue_eq_ok,
      revisionRule_eq_ok] at h
    obtain ⟨_, ⟨_, hvalid, _, -, hcompared⟩, hsame, -⟩ := h
    rw [← hnamed partyRules (by simp [rulesets]) hsame]
    exact ⟨rfl, hvalid, fun _ => trivial, hcompared⟩

/-- The records of an accepted snapshot pass the rules of the profiles they are stored with,
each after a record of the snapshot. -/
theorem passes_of_valid {s : State} {snap : Snapshot} {installations : Table Uuid Installation}
    {opened : Inventory} {u : Unit} (h : validateRecords s snap installations opened = .ok u)
    {R : Ruleset} (hR : R ∈ rulesets) {r : BusinessRecord} (hr : r ∈ snap.records)
    (judged : r.validation = .businessRules R.profile) :
    R.Passes snap.record? r.toRecordPayload := by
  have hcarried := validateRecords_carried h
  simp only [validateRecords, bind_eq_ok] at h
  obtain ⟨_, hfold, -⟩ := h
  obtain ⟨_, _, hstep⟩ := foldlM_each hfold r hr
  simp only [replayRecord, bind_eq_ok, invalidSnapshot_eq_ok] at hstep
  obtain ⟨_, -, profile, -, _, -, _, -, _, -, _, -, _, -, _, -, ⟨expected, replay⟩, hbusiness, _,
    hexpected, -⟩ := hstep
  have hexpected : r.validation = expected := hexpected
  rw [← hexpected, judged] at hbusiness
  obtain ⟨-, hvalid, hfirst, hcompared⟩ := replayBusiness_rules hR hbusiness
  refine ⟨hvalid, hfirst, ?_⟩
  intro id hid
  obtain ⟨b, hb, hcontinues⟩ := hcompared id hid
  refine ⟨b, ?_, hcontinues⟩
  -- the predecessor is one of the snapshot's own
  obtain ⟨before, hbefore, hbid, -⟩ := hcarried.linked r hr id hid
  have hfound : (snap.record? id).isSome = true := by
    rw [Snapshot.record?, List.find?_isSome]
    exact ⟨before, hbefore, decide_eq_true hbid⟩
  obtain ⟨own, hown⟩ := Option.isSome_iff_exists.mp hfound
  rw [priorRecord, hid, Option.bind_some, hown, Option.some_or] at hb
  rw [hown]
  exact hb

/-- A carried record that an import accepts is stored as judged by the rules of the semantics
of its profile. -/
theorem carried_stored {s : State} {snap : Snapshot} {installations : Table Uuid Installation}
    {opened : Inventory} {u : Unit} (h : validateRecords s snap installations opened = .ok u)
    {r : BusinessRecord} (hr : r ∈ snap.records) :
    ∃ profile, candidateProfile s snap r.profileDigest = some profile ∧
      ∀ R ∈ rulesets, profile.semantics = R.semantics →
        r.validation = .businessRules R.profile := by
  simp only [validateRecords, bind_eq_ok] at h
  obtain ⟨_, hfold, -⟩ := h
  obtain ⟨_, _, hstep⟩ := foldlM_each hfold r hr
  simp only [replayRecord, bind_eq_ok, invalidSnapshot_eq_ok, require_eq_ok] at hstep
  obtain ⟨_, -, profile, hprofile, _, -, _, -, _, -, _, -, _, -, _, -, ⟨expected, replay⟩,
    hbusiness, _, hexpected, -⟩ := hstep
  refine ⟨profile, hprofile, fun R hR semantics => ?_⟩
  rw [show r.validation = expected from hexpected]
  simp only [rulesets, List.mem_cons, List.not_mem_nil, or_false] at hR
  obtain rfl | rfl | rfl | rfl | rfl := hR
  all_goals
    simp only [productRules, orderRules, forecastRules, objectRules, partyRules] at semantics
    simp only [replayBusiness, semantics, bind_eq_ok, pure_eq_ok, Prod.mk.injEq] at hbusiness
  case inr.inr.inr.inl =>
    obtain ⟨_, -, _, -, _, -, hsame, -⟩ := hbusiness
    exact hsame.symm
  case inr.inr.inr.inr =>
    obtain ⟨_, -, hsame, -⟩ := hbusiness
    exact hsame.symm
  all_goals
    obtain ⟨_, -, _, -, hsame, -⟩ := hbusiness
    exact hsame.symm

/-- Every record of a host passes the rules of the profile that it is stored with, after the
record that it supersedes. -/
def RulesKept (R : Ruleset) (s : State) : Prop :=
  ∀ id r, s.records.get? id = some r → r.validation = .businessRules R.profile →
    R.Passes s.records.get? r.toRecordPayload

omit [Primitives] [Reducers] in
theorem rulesKept_empty {R : Ruleset} : RulesKept R emptyState := by
  intro id r hr
  cases hr

omit [Primitives] [Reducers] in
theorem RulesKept.insertRecord {R : Ruleset} {s : State} (h : RulesKept R s) {org : Uuid}
    {r : BusinessRecord} (absent : s.records.get? r.id = none)
    (passes : r.validation = .businessRules R.profile →
      R.Passes s.records.get? r.toRecordPayload) :
    RulesKept R (Call.insertRecord s org r) := by
  have hkept : ∀ id b, s.records.get? id = some b →
      ∃ b', (Call.insertRecord s org r).records.get? id = some b' ∧ b'.body = b.body := by
    intro id b hb
    obtain ⟨b', hb', rfl⟩ := insertRecord_old org absent hb
    exact ⟨_, hb', rfl⟩
  intro id x hx judged
  rcases insertRecord_cases hx with ⟨-, rfl⟩ | ⟨-, old, hold, rfl⟩
  · exact (passes judged).mono hkept
  · exact (h id old hold judged).mono hkept

theorem RulesKept.takeOver {R : Ruleset} (hR : R ∈ rulesets) {s : State} (h : RulesKept R s)
    {snap : Snapshot} (valid : validateSnapshot s snap = .ok ()) :
    RulesKept R (takeOver s snap) := by
  obtain ⟨_, _, _, _, hvalid⟩ := (validateSnapshot_eq_ok s snap ()).mp valid
  have hcarried := validateRecords_carried hvalid.records
  have habsent := fun r hr => record_absent (hcarried.absent r hr)
  intro id x hx judged
  rcases takeOver_cases hx with ⟨i, r, hr, -, rfl⟩ | hold
  · refine (passes_of_valid hvalid.records hR (List.mem_of_getElem? hr) judged).mono ?_
    intro id b hb
    obtain ⟨j, hj⟩ := List.mem_iff_getElem?.mp (List.mem_of_find?_eq_some hb)
    have hid : b.id = id := by simpa using List.find?_some hb
    refine ⟨{ b with seq := 1 + j }, ?_, rfl⟩
    rw [← hid]
    exact takeOver_new hcarried.nodup hj
  · refine (h id x hold judged).mono ?_
    intro id b hb
    exact ⟨b, takeOver_old habsent hb, rfl⟩

omit [Primitives] [Reducers] in
theorem RulesKept.frame {R : Ruleset} {s t : State} (h : RulesKept R s)
    (records : t.records = s.records) : RulesKept R t := by
  unfold RulesKept
  rw [records]
  exact h

/-- A record that a host accepts has passed the rules of the profile that it is stored with. -/
theorem Call.Appends.passes {k : Call} {o : Organization} {p : RecordPayload} {profile : Profile}
    {before : Option BusinessRecord} {s : State} {company : Option Inventory} {R : Ruleset}
    (h : k.Appends o p profile before s) (hR : R ∈ rulesets)
    (assessed : k.assess s o profile p before =
      .ok (.validated company (.businessRules R.profile))) :
    R.Passes k.s.records.get? p := by
  obtain ⟨-, hvalid, hfirst, hcontinues⟩ := assess_rules hR assessed
  obtain ⟨hnone, hsome⟩ := predecessor_eq h.predecessor h.continues
  refine ⟨hvalid, fun hgenesis => hfirst (hnone.mpr hgenesis), ?_⟩
  intro id hid
  have hget := hsome id hid
  cases hbefore : before with
  | none =>
    rw [hnone.mp hbefore] at hid
    cases hid
  | some b =>
    rw [hbefore] at hget
    exact ⟨b, hget, hcontinues b hbefore⟩

theorem Accepted.rulesKept {R : Ruleset} (hR : R ∈ rulesets) {s : State} {c : Command}
    {ctx : Context} {signed : List KeyId} {reply : Reply} (keyed : Keyed s) (kept : RulesKept R s)
    (h : Accepted s c ctx signed reply) : RulesKept R (reply.next c) := by
  have hcompany : ∀ o : Organization,
      RulesKept R (pushHistory ((callOf s c ctx signed).setOrg o) c) := by
    intro o
    obtain ⟨organizations, heq⟩ := pushHistory_setOrg (callOf s c ctx signed) o c
    rw [heq]
    exact kept.frame rfl
  cases h.effect with
  | found orgId name nonce controllers threshold payload founds =>
    exact hcompany (Call.founded orgId name controllers threshold)
  | company o o' m result payload fresh inside change => exact hcompany o'
  | append o p profile before t company validation payload appends assessed =>
    obtain rfl : s = t := (counterparties_eq keyed.remoteAuthorities appends.attested).symm
    have hpasses : validation = .businessRules R.profile → R.Passes s.records.get? p := by
      intro hjudged
      rw [hjudged] at assessed
      exact appends.passes hR assessed
    have hinsert : ∀ u : State, u.records = s.records →
        RulesKept R (Call.insertRecord u o.id
          ((callOf s c ctx signed).appended o p validation)) := by
      intro u hu
      refine (kept.frame hu).insertRecord ?_ ?_
      · rw [hu]
        exact appends.absent
      · rw [hu]
        exact hpasses
    cases company with
    | none => exact hinsert s rfl
    | some company => exact hinsert (s.setInventory o.id company) rfl
  | duplicate o p profile before t company recordId recorded payload appends assessed known =>
    obtain rfl : s = t := (counterparties_eq keyed.remoteAuthorities appends.attested).symm
    exact kept.frame rfl
  | finalize migrationId token stage ready body snapshot payload stages binds inactive held
      absent digest valid activates =>
    exact (kept.takeOver hR valid).frame rfl
  | _ => exact kept.frame rfl

theorem Reachable.rulesKept {R : Ruleset} (hR : R ∈ rulesets) {s : State} (h : Reachable s) :
    RulesKept R s := by
  refine (h.invariant (P := fun s => Keyed s ∧ RulesKept R s) ⟨keyed_empty, rulesKept_empty⟩ ?_
    ?_).2
  · rintro s receipts ⟨hkeyed, hkept⟩
    exact ⟨{ hkeyed with }, hkept.frame rfl⟩
  · rintro s c ctx signed reply ⟨hkeyed, hkept⟩ accepted
    exact ⟨hkeyed.next accepted, accepted.rulesKept hR hkeyed hkept⟩

/-- A record is of a contract whose digest it names, and is stored as judged by the rules of
the contract's semantics. -/
def Profiled (r : BusinessRecord) : Prop :=
  ∃ contract : ProfileContract, Primitives.digestContract contract = r.profileDigest ∧
    ∀ R ∈ rulesets, contract.semantics = R.semantics → r.validation = .businessRules R.profile

theorem profiled_takeOver {s : State} (evidenced : Evidenced s) (keyed : Keyed s)
    (profiled : ∀ id r, s.records.get? id = some r → Profiled r) {snap : Snapshot}
    (valid : validateSnapshot s snap = .ok ()) {id : Uuid} {r : BusinessRecord}
    (hr : (takeOver s snap).records.get? id = some r) : Profiled r := by
  obtain ⟨_, _, _, _, validated⟩ := (validateSnapshot_eq_ok s snap ()).mp valid
  rcases takeOver_cases hr with ⟨i, old, hold, -, rfl⟩ | hold
  · obtain ⟨profile, hcandidate, hjudged⟩ :=
      carried_stored validated.records (List.mem_of_getElem? hold)
    exact ⟨profile.toProfileContract,
      evidenced.candidate keyed validated.profiles hcandidate, hjudged⟩
  · exact profiled id r hold

theorem Accepted.profiled {s : State} {c : Command} {ctx : Context} {signed : List KeyId}
    {reply : Reply} (keyed : Keyed s) (evidenced : Evidenced s)
    (profiled : ∀ id r, s.records.get? id = some r → Profiled r)
    (h : Accepted s c ctx signed reply) :
    ∀ id r, (reply.next c).records.get? id = some r → Profiled r := by
  have hcompany : ∀ o : Organization, ∀ id r,
      (pushHistory ((callOf s c ctx signed).setOrg o) c).records.get? id = some r →
        Profiled r := by
    intro o
    obtain ⟨organizations, heq⟩ := pushHistory_setOrg (callOf s c ctx signed) o c
    rw [heq]
    exact profiled
  cases h.effect with
  | found orgId name nonce controllers threshold payload founds =>
    exact hcompany (Call.founded orgId name controllers threshold)
  | company o o' m result payload fresh inside change => exact hcompany o'
  | append o p profile before t company validation payload appends assessed =>
    obtain rfl : s = t := (counterparties_eq keyed.remoteAuthorities appends.attested).symm
    have hpinned : s.profiles.get? p.profileDigest = some profile := appends.pinned
    have hdigest : profile.digest = p.profileDigest := keyed.profiles _ _ hpinned
    have hnew : Profiled ((callOf s c ctx signed).appended o p validation) :=
      ⟨profile.toProfileContract, (evidenced.profiles _ _ hpinned).digest.symm.trans hdigest,
        fun R hR semantics => Call.assess_stored hR semantics assessed⟩
    have hinsert : ∀ u : State, u.records = s.records → ∀ id r,
        (Call.insertRecord u o.id ((callOf s c ctx signed).appended o p validation)).records.get?
          id = some r → Profiled r := by
      intro u hu id r hr
      rcases insertRecord_cases hr with ⟨-, rfl⟩ | ⟨-, old, hold, rfl⟩
      · exact hnew
      · rw [hu] at hold
        exact profiled id old hold
    cases company with
    | none => exact hinsert s rfl
    | some company => exact hinsert (s.setInventory o.id company) rfl
  | duplicate o p profile before t company recordId recorded payload appends assessed known =>
    obtain rfl : s = t := (counterparties_eq keyed.remoteAuthorities appends.attested).symm
    exact profiled
  | finalize migrationId token stage ready body snapshot payload stages binds inactive held
      absent digest valid activates =>
    exact fun id r hr => profiled_takeOver evidenced keyed profiled valid hr
  | _ => exact profiled

/-- Appended or imported, every record of a host is judged by its profile's semantics. -/
theorem Reachable.profiled {s : State} (h : Reachable s) {id : Uuid} {r : BusinessRecord}
    (hr : s.records.get? id = some r) : Profiled r := by
  induction h generalizing id r with
  | empty => cases hr
  | step before accepted ih =>
    obtain ⟨signed, reply, haccepted, rfl, -⟩ := execute_eq_ok accepted
    exact haccepted.profiled before.keyed before.evidenced (fun _ _ => ih) id r hr

/-- The bodies of a chain, from the first one on. -/
def revisions (chain : List BusinessRecord) : List Json := (chain.map (·.body)).reverse

/-- A chain whose records were all accepted under a profile. -/
def JudgedUnder (profile : String) (chain : List BusinessRecord) : Prop :=
  ∀ r ∈ chain, r.validation = .businessRules profile

/-- A chain of records whose profiles have the semantics of the rules was accepted under them. -/
theorem RootChain.judgedUnder {s : State} (h : Reachable s) {R : Ruleset} (hR : R ∈ rulesets)
    {org root : Uuid} {chain : List BusinessRecord} (line : RootChain s org root chain)
    (semantics : ∀ r ∈ chain, ∀ contract : ProfileContract,
      Primitives.digestContract contract = r.profileDigest → contract.semantics = R.semantics) :
    JudgedUnder R.profile chain := by
  intro r hr
  have hget := (mem_records h.keyed).mp ((line.complete r).mp hr).1
  obtain ⟨contract, hdigest, hjudged⟩ := h.profiled hget
  exact hjudged R hR (semantics r hr contract hdigest)

/-- A chain under a profile passes its rules link by link. -/
theorem RootChain.passes {s : State} (h : Reachable s) {R : Ruleset} (hR : R ∈ rulesets)
    {org root : Uuid} {chain : List BusinessRecord} (line : RootChain s org root chain)
    (judged : JudgedUnder R.profile chain) :
    (∀ b ∈ revisions chain, R.valid b) ∧
      (∀ first, (revisions chain).head? = some first → R.first first) ∧
      (revisions chain).IsChain R.continues := by
  have hpasses : ∀ r ∈ chain, R.Passes s.records.get? r.toRecordPayload := by
    intro r hr
    have hget := (mem_records h.keyed).mp ((line.complete r).mp hr).1
    exact h.rulesKept hR r.id r hget (judged r hr)
  refine ⟨?_, ?_, ?_⟩
  · intro b hb
    obtain ⟨r, hr, rfl⟩ := List.mem_map.mp (List.mem_reverse.mp hb)
    exact (hpasses r hr).valid
  · intro first hfirst
    obtain ⟨g, hg, -, hnone⟩ := line.genesis
    rw [revisions, List.head?_reverse, List.getLast?_map, hg, Option.map_some] at hfirst
    rw [← Option.some.inj hfirst]
    exact (hpasses g (List.mem_of_getLast? hg)).first hnone
  · rw [revisions, List.isChain_reverse, List.isChain_map]
    refine line.linked.imp_of_mem_imp ?_
    intro a b ha hb hlink
    obtain ⟨prior, hprior, hcontinues⟩ := (hpasses a ha).continues b.id hlink
    have hget := (mem_records h.keyed).mp ((line.complete b).mp hb).1
    rw [Option.some.inj (hprior.symm.trans hget)] at hcontinues
    exact hcontinues

end

/-- What holds of the chains under each of the profiles. -/
structure ChainsKept (chain : List BusinessRecord) : Prop where
  product : JudgedUnder "dtp.product/1" chain → ProductHistory (revisions chain)
  order : JudgedUnder "dtp.order/1" chain → OrderHistory (revisions chain)
  forecast : JudgedUnder "dtp.forecast/1" chain → ForecastHistory (revisions chain)
  object : JudgedUnder "dtp.object/1" chain → ObjectHistory (revisions chain)
  party : JudgedUnder "dtp.party/1" chain → PartyHistory (revisions chain)

/-- Whatever was appended and imported, the chains of a host keep the histories that their
profiles ask for. -/
theorem chains_keep_histories [Primitives] (base : Reducers) :
    letI := withProfiles base
    ∀ {s : State}, Reachable s → ∀ {org root : Uuid} {chain : List BusinessRecord},
      RootChain s org root chain → ChainsKept chain := by
  let := withProfiles base
  intro s h org root chain line
  have hrules : ∀ R ∈ rulesets, JudgedUnder R.profile chain → _ := fun R hR =>
    line.passes h hR
  constructor
  · intro judged
    obtain ⟨hvalid, -, hlinked⟩ := hrules productRules (by simp [rulesets]) judged
    refine productHistory ?_ hlinked
    intro b hb
    exact Except.ok.inj (hvalid b hb)
  · intro judged
    obtain ⟨-, hfirst, hlinked⟩ := hrules orderRules (by simp [rulesets]) judged
    refine orderHistory ?_ hlinked
    intro first hhead
    exact Except.ok.inj (hfirst first hhead)
  · intro judged
    obtain ⟨hvalid, -, hlinked⟩ := hrules forecastRules (by simp [rulesets]) judged
    exact forecastHistory hvalid hlinked
  · intro judged
    obtain ⟨-, hfirst, hlinked⟩ := hrules objectRules (by simp [rulesets]) judged
    refine objectHistory ?_ hlinked
    intro first hhead
    exact Except.ok.inj (hfirst first hhead)
  · intro judged
    obtain ⟨-, -, hlinked⟩ := hrules partyRules (by simp [rulesets]) judged
    refine partyHistory (hlinked.imp ?_)
    intro a b hcontinues
    exact Except.ok.inj hcontinues

def sampleTextSchema (nullable : Bool) : Json :=
  .obj ([("type", .str "string"), ("maxLength", .num 500)] ++
    if nullable then [("nullable", .bool true)] else [])

def sampleObjectSchema (nullable : Bool) (properties : List (String × Json)) : Json :=
  .obj ([("type", .str "object"), ("properties", .obj properties),
    ("required", .arr (properties.map fun p => .str p.1)),
    ("additionalProperties", .bool false)] ++
      if nullable then [("nullable", .bool true)] else [])

def sampleListSchema : Json :=
  .obj [("type", .str "array"), ("maxItems", .num 16), ("items", sampleTextSchema false)]

/-- A profile for objects that lists neither identifiers nor evidence. -/
def sampleItemSchema : Json :=
  sampleObjectSchema false [("class", sampleTextSchema false), ("label", sampleTextSchema true),
    ("identifiers", sampleListSchema), ("status", sampleTextSchema false),
    ("retired", sampleObjectSchema true [("reason", sampleTextSchema false),
      ("note", sampleTextSchema true)]), ("evidence", sampleListSchema)]

def sampleItem (status : String) (retired : Json) : Json :=
  .obj [("class", .str "dtp/vehicle"), ("label", .null), ("identifiers", .arr []),
    ("status", .str status), ("retired", retired), ("evidence", .arr [])]

/-- A company writes down a vehicle and retires it. -/
def sampleRevisions : List (Command × Context) :=
  let mutations : List (Option Uuid × Mutation) := sampleMutations.take 3 ++
    [(some 1005, .profilePublish
        ⟨"item", "1.0.0", sampleItemSchema, .objectV1, [], .privateOnly, [], 704⟩),
      (some 1005, .recordAppend
        { sampleRecord 31 31 none with body := sampleItem "active" .null }),
      (some 1005, .recordAppend
        { sampleRecord 32 31 (some 31) with
          body := sampleItem "retired" (.obj [("reason", .str "lost"), ("note", .null)]) })]
  mutations.mapIdx fun i m =>
    (sampleCommand "a" 0 (i + 1) m.1 (.mutation m.2), sampleContext "a" 0)

theorem chains_keep_histories_sample :
    letI := samplePrimitives none
    letI := withProfiles sampleReducers
    ∃ chain, RootChain (finalState (run emptyState sampleRevisions)) 1005 31 chain ∧
      JudgedUnder "dtp.object/1" chain ∧ ObjectHistory (revisions chain) := by
  let := samplePrimitives none
  let := withProfiles sampleReducers
  have hrun : (run emptyState sampleRevisions).toBool = true := by decide
  have hreachable := Reachable.finalState hrun
  have hvalues : (finalState (run emptyState sampleRevisions)).records.values.all (fun r =>
      r.organizationId = 1005 ∧ r.rootId = 31 ∧ r.validation = .businessRules "dtp.object/1") =
        true := by decide
  have hsome : (finalState (run emptyState sampleRevisions)).records.values ≠ [] := by
    decide
  obtain ⟨r, hr⟩ := List.exists_mem_of_ne_nil _ hsome
  have hall := fun x hx => of_decide_eq_true (List.all_eq_true.mp hvalues x hx)
  obtain ⟨chain, hchain⟩ := (records_wellFormed hreachable).chain r hr
  rw [(hall r hr).1, (hall r hr).2.1] at hchain
  have hjudged : JudgedUnder "dtp.object/1" chain := by
    intro x hx
    exact (hall x ((hchain.complete x).mp hx).1).2.2
  exact ⟨chain, hchain, hjudged, (chains_keep_histories sampleReducers hreachable hchain).object
    hjudged⟩

end DirectTrade
