import DirectTrade.Compartments
import DirectTrade.Keeps

/-!
What a company's stock remembers of its observations. Every remembered observation names a
record of the company, under the policy and the profile that it was written under.
-/

namespace DirectTrade

open Library

namespace Inventory

/-- The tables of the remembered observations. -/
def notes (company : Inventory) : List (Table Digest Observed) :=
  [company.observations, company.ledgerIndex.facts, company.flowIndex.flowFacts]

def Noted (company : Inventory) (old : Observed) : Prop :=
  ∃ table ∈ company.notes, ∃ key : Digest, table[key]? = some old

theorem noted_congr {a b : Inventory} (h : a.notes = b.notes) (old : Observed) :
    a.Noted old ↔ b.Noted old := by
  unfold Noted
  rw [h]

/-- Every observation that `b` remembers is one of `a`, or the new one. -/
def NotesFrom (a b : Inventory) (new : Observed) : Prop :=
  ∀ old, b.Noted old → a.Noted old ∨ old = new

theorem NotesFrom.of_eq {a b : Inventory} {new : Observed} (h : b.notes = a.notes) :
    a.NotesFrom b new :=
  fun old hold => .inl ((noted_congr h old).mp hold)

theorem NotesFrom.congr {a a' b : Inventory} {new : Observed} (h : a.NotesFrom b new)
    (notes : a.notes = a'.notes) : a'.NotesFrom b new :=
  fun old hold => (h old hold).imp_left (noted_congr notes old).mp

/-- One observation more in one of the tables. -/
theorem NotesFrom.insert {a b : Inventory} {new : Observed} {table : Table Digest Observed}
    (key : Digest) (known : table ∈ a.notes)
    (tables : ∀ t ∈ b.notes, t ∈ a.notes ∨ t = table.insert key new) : a.NotesFrom b new := by
  rintro old ⟨t, ht, k, hk⟩
  rcases tables t ht with ht | rfl
  · exact .inl ⟨t, ht, k, hk⟩
  · rw [Std.ExtTreeMap.getElem?_insert] at hk
    split at hk
    · exact .inr (Option.some.inj hk).symm
    · exact .inl ⟨table, known, k, hk⟩

theorem notes_setIndex_eq (company : Inventory) (index : LedgerIndex) :
    (company.setIndex index).notes =
      [company.observations, index.facts, (index.flow.getD .empty).flowFacts] := rfl

theorem notesFrom_event (company : Inventory) (pools : Table Uuid Pool) (key : Digest)
    (new : Observed) :
    company.NotesFrom { company with
      pools := pools
      observations := company.observations.insert key new } new := by
  have hknown : company.observations ∈ company.notes := List.mem_cons_self ..
  refine .insert key hknown fun t ht => ?_
  rcases List.mem_cons.mp ht with rfl | ht
  · exact .inr rfl
  · exact .inl (List.mem_cons_of_mem _ ht)

theorem notesFrom_fact (company : Inventory) (ledgers : Table Uuid Ledger) (key : Digest)
    (new : Observed) :
    company.NotesFrom (company.setIndex { company.ledgerIndex with
      ledgers := ledgers
      facts := company.ledgerIndex.facts.insert key new }) new := by
  have hknown : company.ledgerIndex.facts ∈ company.notes := by simp [notes]
  refine .insert key hknown fun t ht => ?_
  simp only [notes_setIndex_eq, ledgerIndex_flow, List.mem_cons, List.not_mem_nil, or_false] at ht
  rcases ht with rfl | rfl | rfl
  · exact .inl (by simp [notes])
  · exact .inr rfl
  · exact .inl (by simp [notes, flowIndex])

theorem notesFrom_flow (company : Inventory) (books : Table Uuid Book) (key : Digest)
    (new : Observed) :
    company.NotesFrom (company.setFlow { company.flowIndex with
      books := books
      flowFacts := company.flowIndex.flowFacts.insert key new }) new := by
  have hknown : company.flowIndex.flowFacts ∈ company.notes := by simp [notes]
  refine .insert key hknown fun t ht => ?_
  simp only [setFlow, notes_setIndex_eq, List.mem_cons, List.not_mem_nil, or_false] at ht
  rcases ht with rfl | rfl | rfl
  · exact .inl (by simp [notes])
  · exact .inl (by simp [notes])
  · exact .inr rfl

/-- Ledgers and openings may change under the same observations. -/
theorem notes_setIndex {company : Inventory} {index : LedgerIndex}
    (facts : index.facts = company.ledgerIndex.facts) (flow : index.flow = company.flow) :
    (company.setIndex index).notes = company.notes := by
  have hobservations : (company.setIndex index).observations = company.observations := rfl
  simp [notes, flowIndex, facts, flow, hobservations]

theorem notes_setFlow {company : Inventory} {flow : FlowIndex}
    (facts : flow.flowFacts = company.flowIndex.flowFacts) :
    (company.setFlow flow).notes = company.notes := by
  have hobservations : (company.setFlow flow).observations = company.observations := rfl
  have hflow : (company.setFlow flow).flowIndex = flow := rfl
  have hfacts : (company.setFlow flow).ledgerIndex.facts = company.ledgerIndex.facts := rfl
  simp [notes, hobservations, hflow, hfacts, facts]

theorem notes_withLedgers (company : Inventory) : company.withLedgers.notes = company.notes :=
  notes_setIndex rfl company.ledgerIndex_flow

theorem notes_withBooks (company : Inventory) : company.withBooks.notes = company.notes :=
  notes_setFlow rfl

/-- A table of stock of which at most the entry of one resource changed, kept under a policy. -/
def Touches {σ : Type} (policyOf : σ → Uuid) (policyId resource : Uuid)
    (old new : Table Uuid σ) : Prop :=
  ∀ id : Uuid, new[id]? = old[id]? ∨ id = resource ∧ ∃ a b, old[id]? = some a ∧
    new[id]? = some b ∧ policyOf a = policyId ∧ policyOf b = policyId

theorem Touches.refl {σ : Type} {policyOf : σ → Uuid} {policyId resource : Uuid}
    {table : Table Uuid σ} : Touches policyOf policyId resource table table :=
  fun _ => .inl rfl

theorem Touches.insert {σ : Type} {policyOf : σ → Uuid} {policyId resource : Uuid}
    {table : Table Uuid σ} {a b : σ} (found : table[resource]? = some a)
    (held : policyOf a = policyId) (kept : policyOf b = policyId) :
    Touches policyOf policyId resource table (table.insert resource b) := by
  intro id
  by_cases hid : id = resource
  · subst hid
    exact .inr ⟨rfl, a, b, found, Std.ExtTreeMap.getElem?_insert_self, held, kept⟩
  · left
    rw [Std.ExtTreeMap.getElem?_insert, if_neg]
    intro heq
    exact hid (Std.LawfulEqCmp.eq_of_compare heq).symm

/-- Stock of which at most the pool, the ledger and the book of one resource changed. -/
structure Within (old new : Inventory) (policyId resource : Uuid) : Prop where
  pools : Touches (·.policyId) policyId resource old.pools new.pools
  ledgers : Touches (·.policyId) policyId resource old.ledgerIndex.ledgers
    new.ledgerIndex.ledgers
  books : Touches (·.policyId) policyId resource old.flowIndex.books new.flowIndex.books

end Inventory

variable [Primitives]

/-- What the rules of a record do to the company's stock. -/
inductive Assesses (old : Inventory) (p : RecordPayload) : Assessed → Prop
  | plain (v : Validation) : Assesses old p (.validated none v)
  | duplicate (company : Inventory) (seen : Observed) (notes : company.notes = old.notes)
      (pools : company.pools = old.pools)
      (ledgers : company.ledgerIndex.ledgers = old.ledgerIndex.ledgers)
      (books : company.flowIndex.books = old.flowIndex.books) (known : old.Noted seen)
      (policy : seen.policyId = p.policyId) (profile : seen.profileDigest = p.profileDigest) :
      Assesses old p (.duplicate company seen.recordId)
  | stock (company : Inventory) (v : Validation) (notes : old.NotesFrom company p.observed)
      (within : old.Within company p.policyId p.resourceId) :
      Assesses old p (.validated (some company) v)

theorem sameObservation_eq_ok {seen : Observed} {p : RecordPayload} {u : Unit}
    (h : sameObservation seen p = .ok u) :
    seen.policyId = p.policyId ∧ seen.profileDigest = p.profileDigest := by
  simp only [sameObservation, demand_eq_ok] at h
  exact h.2

variable [Reducers]

theorem assessEvent_assesses {s : State} {o : Organization} {p : RecordPayload}
    {outcome : Assessed} (h : assessEvent s o p = .ok outcome) :
    Assesses (companyInventory s o.id) p outcome := by
  simp only [assessEvent, Outcome.bind_eq_ok, require_eq_ok, demand_eq_ok] at h
  obtain ⟨_, -, _, -, pool, hpool, _, hpolicy, h⟩ := h
  split at h
  · rename_i seen hseen
    simp only [Outcome.bind_eq_ok, Outcome.pure_eq_ok] at h
    obtain ⟨_, hsame, rfl⟩ := h
    obtain ⟨policy, profile⟩ := sameObservation_eq_ok hsame
    have hknown : (companyInventory s o.id).Noted seen := ⟨_, List.mem_cons_self .., _, hseen⟩
    exact .duplicate _ seen rfl rfl rfl rfl hknown policy profile
  · simp only [Outcome.bind_eq_ok, Outcome.pure_eq_ok] at h
    obtain ⟨state, -, rfl⟩ := h
    exact .stock _ _ (Inventory.notesFrom_event _ _ _ _)
      ⟨.insert hpool hpolicy hpolicy, .refl, .refl⟩

theorem assessFact_assesses {s : State} {o : Organization} {p : RecordPayload}
    {outcome : Assessed} (h : assessFact s o p = .ok outcome) :
    Assesses (companyInventory s o.id) p outcome := by
  have hnotes : (inventoryState s o.id).notes = (companyInventory s o.id).notes :=
    Inventory.notes_withLedgers _
  have hflow : (inventoryState s o.id).flowIndex = (companyInventory s o.id).flowIndex := by
    simp [inventoryState, Inventory.withLedgers, Inventory.flowIndex]
  simp only [assessFact, Outcome.bind_eq_ok, require_eq_ok, demand_eq_ok] at h
  obtain ⟨_, -, _, -, ledger, hledger, _, hpolicy, _, -, _, -, h⟩ := h
  split at h
  · rename_i seen hseen
    simp only [Outcome.bind_eq_ok, Outcome.pure_eq_ok] at h
    obtain ⟨_, hsame, rfl⟩ := h
    obtain ⟨policy, profile⟩ := sameObservation_eq_ok hsame
    have hknown : (inventoryState s o.id).Noted seen := ⟨_, by simp [Inventory.notes], _, hseen⟩
    exact .duplicate _ seen hnotes rfl rfl (by rw [hflow])
      ((Inventory.noted_congr hnotes seen).mp hknown) policy profile
  · simp only [Outcome.bind_eq_ok, Outcome.pure_eq_ok] at h
    obtain ⟨state, -, rfl⟩ := h
    refine .stock _ _ (.congr (Inventory.notesFrom_fact _ _ _ _) hnotes)
      ⟨.refl, .insert hledger hpolicy hpolicy, ?_⟩
    have hbooks : (companyInventory s o.id).flowIndex.books =
        (inventoryState s o.id).flowIndex.books := by rw [hflow]
    rw [hbooks]
    simpa [Inventory.flowIndex] using Inventory.Touches.refl

theorem assessFlowFact_assesses {s : State} {o : Organization} {c : Command}
    {p : RecordPayload} {outcome : Assessed} (h : assessFlowFact s o c p = .ok outcome) :
    Assesses (companyInventory s o.id) p outcome := by
  have hnotes : (flowState s o.id).notes = (companyInventory s o.id).notes :=
    Inventory.notes_withBooks _
  simp only [assessFlowFact, Outcome.bind_eq_ok, require_eq_ok, demand_eq_ok] at h
  obtain ⟨_, -, book, hbook, _, hpolicy, _, -, _, -, _, -, h⟩ := h
  split at h
  · rename_i seen hseen
    simp only [Outcome.bind_eq_ok, Outcome.pure_eq_ok] at h
    obtain ⟨_, hsame, rfl⟩ := h
    obtain ⟨policy, profile⟩ := sameObservation_eq_ok hsame
    have hknown : (flowState s o.id).Noted seen := ⟨_, by simp [Inventory.notes], _, hseen⟩
    exact .duplicate _ seen hnotes rfl rfl rfl
      ((Inventory.noted_congr hnotes seen).mp hknown) policy profile
  · simp only [Outcome.bind_eq_ok, Outcome.pure_eq_ok] at h
    obtain ⟨_, -, state, -, revisions, -, rfl⟩ := h
    exact .stock _ _ (.congr (Inventory.notesFrom_flow _ _ _ _) hnotes)
      ⟨.refl, .refl, .insert hbook hpolicy hpolicy⟩

theorem Call.assess_assesses {k : Call} {s : State} {o : Organization} {profile : Profile}
    {p : RecordPayload} {before : Option BusinessRecord} {outcome : Assessed}
    (h : k.assess s o profile p before = .ok outcome) :
    Assesses (companyInventory s o.id) p outcome := by
  unfold assess at h
  split at h
  case h_8 => exact assessFact_assesses h
  case h_9 => exact assessFlowFact_assesses h
  case h_10 => exact assessEvent_assesses h
  all_goals
    simp only [Outcome.bind_eq_ok, Outcome.pure_eq_ok] at h
  · exact h ▸ .plain _
  · obtain ⟨_, -, _, -, rfl⟩ := h
    exact .plain _
  · obtain ⟨_, -, _, -, rfl⟩ := h
    exact .plain _
  · obtain ⟨_, -, _, -, rfl⟩ := h
    exact .plain _
  · obtain ⟨_, -, _, -, rfl⟩ := h
    exact .plain _
  · obtain ⟨_, -, _, -, _, -, rfl⟩ := h
    exact .plain _
  · obtain ⟨_, -, rfl⟩ := h
    exact .plain _

omit [Reducers] in
theorem replayOpening_notes {s : State} {snap : Snapshot} {policyIds : List Uuid}
    {rebuilt next : Inventory} {entry : Uuid × StoredCommand}
    (h : replayOpening s snap policyIds rebuilt entry = .ok next) :
    next.notes = rebuilt.notes := by
  simp only [replayOpening, Outcome.bind_eq_ok] at h
  obtain ⟨_, -, h⟩ := h
  split at h
  · simp only [Outcome.bind_eq_ok, Outcome.pure_eq_ok] at h
    obtain ⟨_, -, product, -, ledger, -, rfl⟩ := h
    exact Inventory.notes_setIndex rfl rebuilt.ledgerIndex_flow
  · simp at h

omit [Reducers] in
theorem replayBook_notes {snap : Snapshot} {policyIds : List Uuid} {rebuilt next : Inventory}
    {entry : Uuid × StoredCommand} (h : replayBook snap policyIds rebuilt entry = .ok next) :
    next.notes = rebuilt.notes := by
  simp only [replayBook, Outcome.bind_eq_ok] at h
  obtain ⟨_, -, h⟩ := h
  split at h
  · simp only [Outcome.bind_eq_ok, Outcome.pure_eq_ok] at h
    obtain ⟨_, -, rfl⟩ := h
    exact Inventory.notes_setFlow rfl
  · simp at h

omit [Reducers] in
theorem replayFlowLedger_notes {s : State} {snap : Snapshot} {rebuilt next : Inventory}
    {entry : Digest × StoredCommand} (h : replayFlowLedger s snap rebuilt entry = .ok next) :
    next.notes = rebuilt.notes := by
  simp only [replayFlowLedger, Outcome.bind_eq_ok] at h
  obtain ⟨_, -, h⟩ := h
  split at h
  · simp only [Outcome.bind_eq_ok, Outcome.pure_eq_ok] at h
    obtain ⟨_, -, book, -, opened, -, _, -, rfl⟩ := h
    exact Inventory.notes_setFlow rfl
  · simp at h

omit [Reducers] in
theorem replayCreation_notes {snap : Snapshot} {policyIds : List Uuid}
    {rebuilt next : Inventory} {entry : Uuid × StoredCommand}
    (h : replayCreation snap policyIds rebuilt entry = .ok next) :
    next.notes = rebuilt.notes := by
  simp only [replayCreation, Outcome.bind_eq_ok] at h
  obtain ⟨_, -, h⟩ := h
  split at h
  · simp only [Outcome.bind_eq_ok, Outcome.pure_eq_ok] at h
    obtain ⟨_, -, pool, -, rfl⟩ := h
    rfl
  · simp at h

omit [Primitives] [Reducers] in
theorem notes_foldlM {α : Type} {step : Inventory → α → Attempt Inventory} {l : List α}
    {start next : Inventory}
    (hstep : ∀ {a : Inventory} {x : α} {b : Inventory}, step a x = .ok b → b.notes = a.notes)
    (h : l.foldlM step start = .ok next) : next.notes = start.notes := by
  refine Outcome.foldlM_invariant (fun t => t.notes = start.notes) step l ?_ rfl h
  intro x _ t t' ht hx
  exact (hstep hx).trans ht

omit [Primitives] [Reducers] in
theorem not_noted_rebuiltStart (source : Option Inventory) (old : Observed) :
    ¬ (rebuiltStart source).Noted old := by
  have hnotes : (rebuiltStart source).notes = [∅, ∅, ∅] := by
    unfold Inventory.notes Inventory.ledgerIndex Inventory.flowIndex Inventory.flow rebuiltStart
    cases source.bind (·.index) with
    | none => rfl
    | some index =>
      obtain ⟨ledgers, openings, facts, flow⟩ := index
      cases flow <;> rfl
  rintro ⟨table, htable, key, hkey⟩
  have hempty : table = ∅ := by simpa [hnotes] using htable
  simp [hempty] at hkey

omit [Reducers] in
theorem validateOpenings_notes {s : State} {snap : Snapshot} {policyIds : List Uuid}
    {opened : Inventory} (h : validateOpenings s snap policyIds = .ok opened) (old : Observed) :
    ¬ opened.Noted old := by
  unfold validateOpenings at h
  cases hsource : snap.inventory[snap.organization.id]? with
  | none =>
    simp only [hsource] at h
    exact Except.ok.inj h ▸ not_noted_rebuiltStart none old
  | some company =>
    simp only [hsource, Outcome.bind_eq_ok] at h
    obtain ⟨a, ha, b, hb, c, hc, hd⟩ := h
    have hnotes : opened.notes = (rebuiltStart (some company)).notes := calc
      opened.notes = c.notes := notes_foldlM replayCreation_notes hd
      _ = b.notes := notes_foldlM replayFlowLedger_notes hc
      _ = a.notes := notes_foldlM replayBook_notes hb
      _ = (rebuiltStart (some company)).notes := notes_foldlM replayOpening_notes ha
    rw [Inventory.noted_congr hnotes]
    exact not_noted_rebuiltStart (some company) old

theorem replayBusiness_notes {s : State} {snap : Snapshot} {replay replay' : RecordReplay}
    {r : BusinessRecord} {semantics : Semantics} {v : Validation}
    (h : replayBusiness s snap replay r semantics = .ok (v, replay')) :
    replay.stock.NotesFrom replay'.stock r.observed := by
  cases semantics <;>
    simp only [replayBusiness, replayFact, replayFlowFact, replayEvent, Outcome.bind_eq_ok,
      Outcome.pure_eq_ok, Prod.mk.injEq] at h
  case structural => exact h.2 ▸ .of_eq rfl
  case inventoryV1 =>
    obtain ⟨_, -, pool, -, _, -, state, -, -, rfl⟩ := h
    exact Inventory.notesFrom_event _ _ _ _
  case invoiceV1 =>
    obtain ⟨_, -, _, -, -, rfl⟩ := h
    exact .of_eq rfl
  case inventoryV2 =>
    obtain ⟨_, -, ledger, -, _, -, unpublished, -, _, -, state, -, -, rfl⟩ := h
    exact Inventory.notesFrom_fact _ _ _ _
  case partyV1 =>
    obtain ⟨_, -, -, rfl⟩ := h
    exact .of_eq rfl
  case objectV1 =>
    obtain ⟨_, -, _, -, _, -, -, rfl⟩ := h
    exact .of_eq rfl
  case flowV1 =>
    obtain ⟨_, -, book, -, _, -, unpublished, -, _, -, _, -, _, -, state, -, revisions, -, -,
      rfl⟩ := h
    exact Inventory.notesFrom_flow _ _ _ _
  all_goals
    obtain ⟨_, -, _, -, -, rfl⟩ := h
    exact .of_eq rfl

theorem replayRecord_notes {s : State} {snap : Snapshot}
    {installations : Table Uuid Installation} {replay next : RecordReplay} {r : BusinessRecord}
    (h : replayRecord s snap installations replay r = .ok next) :
    replay.stock.NotesFrom next.stock r.observed := by
  simp only [replayRecord, Outcome.bind_eq_ok] at h
  obtain ⟨_, -, profile, -, proofs, -, _, -, _, -, _, -, _, -, _, -, ⟨expected, replay'⟩,
    business, _, -, _, -, chain⟩ := h
  have hnotes := replayBusiness_notes business
  obtain ⟨-, -, rfl⟩ := replayChain_eq_ok chain
  split <;> exact hnotes

/-- Every remembered observation names a carried record, written as it says. -/
theorem validateRecords_notes {s : State} {snap : Snapshot}
    {installations : Table Uuid Installation} {opened company : Inventory}
    (h : validateRecords s snap installations opened = .ok ())
    (start : ∀ old, ¬ opened.Noted old)
    (carried : snap.inventory[snap.organization.id]? = some company) :
    ∀ old, company.Noted old → ∃ r ∈ snap.records, r.observed = old := by
  simp only [validateRecords, Outcome.bind_eq_ok, invalidSnapshot_eq_ok] at h
  obtain ⟨replay, hfold, _, -, hsame⟩ := h
  have hcompany : company = replay.stock := by simpa [carried] using hsame
  rw [hcompany]
  refine Outcome.foldlM_prefix
    (fun pre (t : RecordReplay) => ∀ old, t.stock.Noted old → ∃ r ∈ pre, r.observed = old)
    ?_ (fun old hold => absurd hold (start old)) hfold
  intro pre r t t' ht hstep old hold
  rcases replayRecord_notes hstep old hold with hold | rfl
  · obtain ⟨x, hx, hobserved⟩ := ht old hold
    exact ⟨x, List.mem_append_left _ hx, hobserved⟩
  · exact ⟨r, List.mem_append_right _ (List.mem_singleton_self r), rfl⟩

omit [Primitives] [Reducers] in
/-- Every remembered observation names a record of the company, under its policy and
profile. -/
def ObservationsKept (s : State) : Prop :=
  ∀ org company, s.inventory.get? org = some company → ∀ old, company.Noted old →
    ∃ r, s.records.get? old.recordId = some r ∧ r.organizationId = org ∧
      r.policyId = old.policyId ∧ r.profileDigest = old.profileDigest

omit [Primitives] [Reducers] in
theorem ObservationsKept.frame {s t : State} (h : ObservationsKept s)
    (inventory : t.inventory = s.inventory) (records : t.records = s.records) :
    ObservationsKept t := by
  intro org company hcompany old hold
  rw [inventory] at hcompany
  rw [records]
  exact h org company hcompany old hold

omit [Primitives] [Reducers] in
/-- A company that has no entry remembers nothing. -/
theorem ObservationsKept.company {s : State} (h : ObservationsKept s) {org : Uuid}
    {old : Observed} (hold : (companyInventory s org).Noted old) :
    ∃ r, s.records.get? old.recordId = some r ∧ r.organizationId = org ∧
      r.policyId = old.policyId ∧ r.profileDigest = old.profileDigest := by
  cases hentry : s.inventory.get? org with
  | some company =>
    have hcompany : companyInventory s org = company := by simp [companyInventory, hentry]
    exact h org company hentry old (hcompany ▸ hold)
  | none =>
    have hempty : companyInventory s org = rebuiltStart none := by
      unfold companyInventory
      rw [hentry]
      rfl
    rw [hempty] at hold
    exact absurd hold (not_noted_rebuiltStart none old)

omit [Primitives] [Reducers] in
/-- An entry that remembers what the company's entry did may take its place. -/
theorem ObservationsKept.setInventory {s : State} (h : ObservationsKept s) {org : Uuid}
    {company : Inventory} (notes : company.notes = (companyInventory s org).notes) :
    ObservationsKept (s.setInventory org company) := by
  intro id entry hentry old hold
  by_cases hid : id = org
  · subst hid
    have hentry : company = entry := by simpa [State.setInventory] using hentry
    rw [← hentry, Inventory.noted_congr notes] at hold
    exact h.company hold
  · have hentry : s.inventory.get? id = some entry := by
      simpa [State.setInventory, Dict.get?_set_of_ne _ _ hid] using hentry
    exact h id entry hentry old hold

omit [Primitives] [Reducers] in
theorem ObservationsKept.insertRecord {s : State} (h : ObservationsKept s) (org : Uuid)
    {r : BusinessRecord} (absent : s.records.get? r.id = none) :
    ObservationsKept (Call.insertRecord s org r) := by
  intro id company hcompany old hold
  obtain ⟨x, hx, hfields⟩ := h id company hcompany old hold
  obtain ⟨y, hy, rfl⟩ := insertRecord_old org absent hx
  exact ⟨_, hy, hfields⟩

omit [Reducers] in
/-- A new record with the entry that remembers its observation. -/
theorem ObservationsKept.append {s : State} (h : ObservationsKept s) {org : Uuid}
    {company : Inventory} {r : BusinessRecord} (named : r.organizationId = org)
    (absent : s.records.get? r.id = none)
    (notes : (companyInventory s org).NotesFrom company r.toRecordPayload.observed) :
    ObservationsKept (Call.insertRecord (s.setInventory org company) org r) := by
  intro id entry hentry old hold
  have hbefore : ∀ r', s.records.get? old.recordId = some r' →
      r'.organizationId = id ∧ r'.policyId = old.policyId ∧ r'.profileDigest = old.profileDigest →
      ∃ x, (Call.insertRecord (s.setInventory org company) org r).records.get? old.recordId =
        some x ∧ x.organizationId = id ∧ x.policyId = old.policyId ∧
          x.profileDigest = old.profileDigest := by
    intro r' hr' hfields
    obtain ⟨x, hx, rfl⟩ := insertRecord_old (s := s.setInventory org company) org absent hr'
    exact ⟨_, hx, hfields⟩
  have hentry : (s.inventory.set org company).get? id = some entry := hentry
  by_cases hid : id = org
  · subst hid
    have hentry : company = entry := by simpa using hentry
    rcases notes old (hentry ▸ hold) with hold | rfl
    · obtain ⟨r', hr', hfields⟩ := h.company hold
      exact hbefore r' hr' hfields
    · have hnew := get?_insertRecord (s.setInventory id company) id r r.id
      rw [if_pos rfl] at hnew
      exact ⟨r, hnew, named, rfl, rfl⟩
  · rw [Dict.get?_set_of_ne _ _ hid] at hentry
    obtain ⟨r', hr', hfields⟩ := h id entry hentry old hold
    exact hbefore r' hr' hfields

theorem ObservationsKept.takeOver {s : State} (h : ObservationsKept s) {snap : Snapshot}
    (valid : validateSnapshot s snap = .ok ()) : ObservationsKept (takeOver s snap) := by
  obtain ⟨replay, claimed, policyIds, opened, validated⟩ :=
    (validateSnapshot_eq_ok s snap ()).mp valid
  have hcarried := validateRecords_carried validated.records
  have habsent : ∀ r ∈ snap.records, s.records.get? r.id = none :=
    fun r hr => record_absent (hcarried.absent r hr)
  intro id company hcompany old hold
  have hold' : s.inventory.get? id = some company →
      ∃ r, (DirectTrade.takeOver s snap).records.get? old.recordId = some r ∧
        r.organizationId = id ∧ r.policyId = old.policyId ∧
        r.profileDigest = old.profileDigest := by
    intro hentry
    obtain ⟨r, hr, hfields⟩ := h id company hentry old hold
    exact ⟨r, takeOver_old habsent hr, hfields⟩
  cases hentry : snap.inventory[snap.organization.id]? with
  | none =>
    have hsame : (DirectTrade.takeOver s snap).inventory = s.inventory := by
      simp only [DirectTrade.takeOver, hentry]
    exact hold' (hsame ▸ hcompany)
  | some carried =>
    have hset : (DirectTrade.takeOver s snap).inventory =
        s.inventory.set snap.organization.id carried := by
      simp only [DirectTrade.takeOver, hentry]
    rw [hset] at hcompany
    by_cases hid : id = snap.organization.id
    · subst hid
      have hcompany : carried = company := by simpa using hcompany
      obtain ⟨r, hr, hobserved⟩ := validateRecords_notes validated.records
        (validateOpenings_notes validated.openings) hentry old (hcompany ▸ hold)
      obtain ⟨i, hi⟩ := List.mem_iff_getElem?.mp hr
      rw [← hobserved]
      exact ⟨_, takeOver_new hcarried.nodup hi, hcarried.organization r hr, rfl, rfl⟩
    · rw [Dict.get?_set_of_ne _ _ hid] at hcompany
      exact hold' hcompany

omit [Primitives] [Reducers] in
theorem notes_stockBase (s : State) (org : Uuid) (m : Mutation) :
    (Call.stockBase s org m).notes = (companyInventory s org).notes := by
  unfold Call.stockBase
  split
  · rfl
  · exact Inventory.notes_withLedgers _
  · exact Inventory.notes_withBooks _

theorem Accepted.observationsKept {s : State} {c : Command} {ctx : Context}
    {signed : List KeyId} {reply : Reply} (keyed : Keyed s) (kept : ObservationsKept s)
    (h : Accepted s c ctx signed reply) : ObservationsKept (reply.next c) := by
  have hcompany : ∀ o, ObservationsKept (pushHistory ((callOf s c ctx signed).setOrg o) c) := by
    intro o
    obtain ⟨organizations, hnext⟩ := pushHistory_setOrg (callOf s c ctx signed) o c
    rw [hnext]
    exact kept.frame rfl rfl
  cases h.effect with
  | found orgId name nonce controllers threshold payload founds => exact hcompany _
  | company o o' m result payload fresh inside change => exact hcompany _
  | append o p profile before t company validation payload appends assessed =>
    obtain rfl : s = t := (counterparties_eq keyed.remoteAuthorities appends.attested).symm
    cases Call.assess_assesses assessed with
    | plain v => exact kept.insertRecord o.id appends.absent
    | stock company v notes within =>
      exact kept.append (r := (callOf s c ctx signed).appended o p validation) appends.own.1
        appends.absent notes
  | duplicate o p profile before t company recordId recorded payload appends assessed known =>
    obtain rfl : s = t := (counterparties_eq keyed.remoteAuthorities appends.attested).symm
    cases Call.assess_assesses assessed with
    | duplicate company seen notes => exact kept.setInventory notes
  | replayStock o m receipt payload opens inside previous =>
    exact kept.setInventory (notes_stockBase s o.id m)
  | stock o m company result payload fresh inside change =>
    refine kept.setInventory ?_
    cases change with
    | pool policyId poolId productId baseUnit pool writable absent opened => rfl
    | ledger policyId productId product ledger writable head absent opened =>
      exact (Inventory.notes_setIndex rfl (Inventory.ledgerIndex_flow _)).trans
        (Inventory.notes_withLedgers _)
    | book policyId bookId writable absent =>
      exact (Inventory.notes_setFlow rfl).trans (Inventory.notes_withBooks _)
    | bookLedger p book key opened writable found held opens =>
      exact (Inventory.notes_setFlow rfl).trans (Inventory.notes_withBooks _)
  | finalize migrationId token stage ready body snapshot payload stages binds inactive held
      absent digest valid activates => exact (kept.takeOver valid).frame rfl rfl
  | _ => exact kept.frame rfl rfl

theorem Reachable.observationsKept {s : State} (h : Reachable s) : ObservationsKept s := by
  have hboth : Keyed s ∧ ObservationsKept s := by
    refine Reachable.invariant (P := fun s => Keyed s ∧ ObservationsKept s) ?_ ?_ ?_ h
    · refine ⟨keyed_empty, fun org company hcompany => ?_⟩
      exact nomatch hcompany
    · intro s receipts hs
      exact ⟨{ hs.1 with }, hs.2.frame rfl rfl⟩
    · intro s c ctx signed reply hs accepted
      exact ⟨hs.1.next accepted, accepted.observationsKept hs.1 hs.2⟩
  exact hboth.2

end DirectTrade
