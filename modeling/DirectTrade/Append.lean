import DirectTrade.Publication

/-!
`record.append`: the write permission, the predecessor, the rules of the profile's
semantics, and the new head with the company's next sequence number.
-/

namespace DirectTrade

open Library

variable [Primitives] [Reducers]

/-- Refuses with the first issue a rule finds. -/
def passes (rule : Attempt (List Issue)) (code : String) : Attempt Unit := do
  let issues ← rule
  match issues with
  | [] => pure ()
  | issue :: _ => .error (.dtp code (issue.message ++ " at " ++ issue.path) 422)

/-- The next state a reducer decides, or the refusal it names. -/
def accepted {σ : Type} (change : Change σ) : Attempt σ :=
  match change with
  | .ok _ state => .ok state
  | .refused code message => .error (.dtp code message 409)

/-- What the rules of a semantics say about a record: an observation already recorded, or
a validation projection, with the stock entry to write. -/
inductive Assessed where
  | duplicate (company : Inventory) (recordId : Uuid)
  | validated (company : Option Inventory) (validation : Validation)

/-- An earlier observation must mean the same; its record answers for this one. -/
def sameObservation (old : Observed) (p : RecordPayload) : Attempt Unit :=
  demand (old.hash = Primitives.digestJson p.body ∧ old.policyId = p.policyId ∧
      old.profileDigest = p.profileDigest)
    "observation_conflict" "observation already has a different meaning" 409

def RecordPayload.observed (p : RecordPayload) : Observed :=
  ⟨Primitives.digestJson p.body, p.id, p.policyId, p.profileDigest⟩

/-- The current record of a root under a semantics, among a company's records. -/
def headRecord (s : State) (org : Uuid) (root : Option Uuid) (semantics : Semantics) :
    Option BusinessRecord :=
  s.records.values.find? fun r => r.organizationId = org && some r.rootId = root && r.isHead &&
    hasSemantics s.profiles.get? semantics r

def assessEvent (s : State) (o : Organization) (p : RecordPayload) : Attempt Assessed := do
  demand (p.supersedes = none)
    "invalid_inventory" "inventory corrections are new events" 422
  let company := companyInventory s o.id
  demand (p.body.names "company_id" o.id ∧ p.body.names "pool_id" p.resourceId)
    "forbidden" "inventory pool must equal authorized resource" 403
  let pool ← require company.pools[p.resourceId]?
    "pool_unavailable" "create stock pool before writing events" 422
  demand (pool.policyId = p.policyId) "forbidden" "stock pool belongs to another policy" 403
  let observation := eventKey p.body
  match company.observations[observation]? with
  | some old => do
    sameObservation old p
    pure (.duplicate company old.recordId)
  | none => do
    let state ← accepted (Reducers.applyInventoryEvent pool.toInventoryState p.body)
    let next := { company with
      pools := company.pools.insert p.resourceId (state.withPolicy pool.policyId)
      observations := company.observations.insert observation p.observed }
    pure (.validated (some next) (.stock "dtp.inventory/1" state.revision))

def assessFact (s : State) (o : Organization) (p : RecordPayload) : Attempt Assessed := do
  demand (p.supersedes = none)
    "invalid_inventory" "inventory facts are new events, never revisions" 422
  demand (p.body.names "product_id" p.resourceId)
    "forbidden" "ledger product must equal authorized resource" 403
  let company := inventoryState s o.id
  let index := company.ledgerIndex
  let ledger ← require index.ledgers[p.resourceId]?
    "ledger_unavailable" "open the product ledger before writing facts" 422
  demand (ledger.policyId = p.policyId) "forbidden" "ledger belongs to another policy" 403
  let product := headRecord s o.id (some p.resourceId) .productV1
  let unpublished ← Reducers.unpublishedPackaging p.body (product.map (·.body))
  demand (unpublished = false) "unknown_packaging"
    "pack conversion is not a published packaging revision of the product" 422
  let observation := factKey p.resourceId p.body
  match index.facts[observation]? with
  | some old => do
    sameObservation old p
    pure (.duplicate company old.recordId)
  | none => do
    let state ← accepted (Reducers.applyInventoryFact ledger.toInventoryLedger p.body)
    let next := company.setIndex { index with
      ledgers := index.ledgers.insert p.resourceId (state.withPolicy ledger.policyId)
      facts := index.facts.insert observation p.observed }
    pure (.validated (some next) (.stock "dtp.inventory/2" state.revision))

/-- Whether a fact has the lists that the owner rule reads. -/
def hasFlowLists (fact : Json) : Bool :=
  [["legs"], ["reservations"], ["settles"], ["act", "references"], ["act", "evidence"]].all
    fun names => (fact.path names).array?.isSome

/-- The owner rule runs only on a fact that has every list it reads. -/
def flowOwner (body : Json) (org : Uuid) : Attempt Unit :=
  if hasFlowLists body then passes (Reducers.checkFlowOwner body org) "invalid_flow" else pure ()

def assessFlowFact (s : State) (o : Organization) (c : Command) (p : RecordPayload) :
    Attempt Assessed := do
  demand (p.supersedes = none) "invalid_flow" "flow facts are new events, never revisions" 422
  let company := flowState s o.id
  let flow := company.flowIndex
  let book ← require flow.books[p.resourceId]?
    "book_unavailable" "open the book before writing facts" 422
  demand (book.policyId = p.policyId) "forbidden" "book belongs to another policy" 403
  flowOwner p.body o.id
  let unpublished ← Reducers.flowUnpublishedPackaging p.body fun root =>
    (parseUuid root).bind fun id => (headRecord s o.id (some id) .productV1).map (·.body)
  demand (unpublished = false) "unknown_packaging"
    "pack conversion is not a published packaging revision of the product" 422
  let observation := flowKey p.resourceId p.body
  match flow.flowFacts[observation]? with
  | some old => do
    sameObservation old p
    pure (.duplicate company old.recordId)
  | none => do
    -- the order between a fact and a ledger's opening is that of their signing times
    Outcome.each (fun key => demand
      (flow.ledgerOpenings[ledgerOpeningKey p.resourceId key]?.all fun opening =>
        opening.issuedAt ≤ c.issuedAt)
      "conflict" "flow fact precedes its ledger opening" 409) (factLedgers p.body)
    let state ← accepted (Reducers.applyFlowFact book.toFlowBook p.body)
    let next := company.setFlow { flow with
      books := flow.books.insert p.resourceId (state.withPolicy book.policyId)
      flowFacts := flow.flowFacts.insert observation p.observed }
    let revisions ← flowRevisions state p.body
    pure (.validated (some next) (.flow revisions))

namespace Call

/-- The predecessor, when the writer can read it. -/
def predecessor (k : Call) (o : Organization) (p : RecordPayload) :
    Attempt (Option BusinessRecord) :=
  match p.supersedes.bind k.s.records.get? with
  | none => pure none
  | some prior =>
    if prior.organizationId = o.id then do
      let readable ← k.can prior.policyId prior.resourceId .read
      pure (if readable then some prior else none)
    else pure none

/-- A readable predecessor must be the head of the same chain; without one the record is
a genesis. -/
def continuity (p : RecordPayload) : Option BusinessRecord → Attempt Unit
  | some before =>
    demand (before.isHead ∧ before.rootId = p.rootId ∧ before.policyId = p.policyId ∧
        before.resourceId = p.resourceId ∧ before.profileDigest = p.profileDigest ∧
        before.counterpartyIds = p.counterpartyIds)
      "conflict" "record continuity failed" 409
  | none =>
    demand (p.supersedes = none ∧ p.id = p.rootId)
      "conflict" "predecessor missing or genesis invalid" 409

def passesRevision (before : Option BusinessRecord) (body : Json)
    (rule : Json → Json → Attempt (List Issue)) (code : String) : Attempt Unit :=
  match before with
  | none => pure ()
  | some prior => passes (rule prior.body body) code

def passesChain (before : Option BusinessRecord) (body : Json)
    (rule : Json → Json → Attempt (List Issue)) (genesis : Json → Attempt (List Issue))
    (code : String) : Attempt Unit :=
  match before with
  | none => passes (genesis body) code
  | some prior => passes (rule prior.body body) code

def assessParty (k : Call) (p : RecordPayload) (before : Option BusinessRecord) :
    Attempt Unit := do
  passes (Reducers.validateParty p.body) "invalid_party"
  -- a person party is personal data
  if p.body.member? "kind" = some (.str "person") then
    let pol ← k.policy p.policyId
    demand (pol.classification = .personnel)
      "invalid_party" "a person party belongs under a personnel policy" 422
  passesRevision before p.body Reducers.checkPartyContinuity "invalid_party"

/-- The rules of the record's semantics, on the tables of `s`. -/
def assess (k : Call) (s : State) (o : Organization) (profile : Profile) (p : RecordPayload)
    (before : Option BusinessRecord) : Attempt Assessed :=
  match profile.semantics with
  | .structural => pure (.validated none (.structural profile.digest))
  | .invoiceV1 => do
    demand (p.body.names "seller_company_id" o.id ∧
        ∃ party ∈ p.counterpartyIds, p.body.names "buyer_company_id" party)
      "invalid_body" "invoice parties differ from envelope" 422
    let report := Reducers.validateInvoice p.body fun _ _ => .unknown
    demand (report.valid = true)
      "invalid_invoice" "invoice arithmetic or declared fields are invalid" 422
    pure (.validated none (.invoice report))
  | .productV1 => do
    passes (Reducers.validateProduct p.body) "invalid_product"
    passesRevision before p.body Reducers.checkProductContinuity "invalid_product"
    pure (.validated none (.businessRules "dtp.product/1"))
  | .orderV1 => do
    passes (Reducers.validateOrder p.body) "invalid_order"
    passesChain before p.body Reducers.checkOrderContinuity Reducers.checkOrderGenesis
      "invalid_order"
    pure (.validated none (.businessRules "dtp.order/1"))
  | .forecastV1 => do
    passes (Reducers.validateForecast p.body) "invalid_forecast"
    passesRevision before p.body Reducers.checkForecastContinuity "invalid_forecast"
    pure (.validated none (.businessRules "dtp.forecast/1"))
  | .objectV1 => do
    passes (Reducers.validateObject p.body) "invalid_object"
    passes (Reducers.checkObjectOwner p.body o.id) "invalid_object"
    passesChain before p.body Reducers.checkObjectContinuity Reducers.checkObjectGenesis
      "invalid_object"
    pure (.validated none (.businessRules "dtp.object/1"))
  | .partyV1 => do
    k.assessParty p before
    pure (.validated none (.businessRules "dtp.party/1"))
  | .inventoryV2 => assessFact s o p
  | .flowV1 => assessFlowFact s o k.c p
  | .inventoryV1 => assessEvent s o p

/-- Counterparties that are not active here need a fresh remote attestation. -/
def counterparties (k : Call) (parties : List Uuid) : Attempt State :=
  parties.foldlM (fun s party =>
    if (s.organizations.get? party).any (·.status = .active) then pure s
    else requireRemoteAuthority s party k.ctx) k.s

/-- The records once a predecessor, if there is one, stops being a head. -/
def retire (records : Dict Uuid BusinessRecord) (predecessor : Option Uuid) :
    Dict Uuid BusinessRecord :=
  match predecessor with
  | none => records
  | some id => records.modify id fun r => { r with isHead := false }

/-- The tables with a new head appended under the company's next number. -/
def insertRecord (s : State) (org : Uuid) (record : BusinessRecord) : State :=
  { s with
    records := (retire s.records record.supersedes).set record.id record
    recordSeq := s.recordSeq.set org (record.seq + 1) }

/-- An acting module must declare the profile it writes. -/
def declares (k : Call) (o : Organization) (profileDigest : Digest) : Attempt Unit :=
  match k.c.actor.kind with
  | .person => pure ()
  | .installation => do
    let profiles ← k.moduleProfiles o
    demand (profileDigest ∈ profiles)
      "forbidden" "module does not declare this profile" 403

def recordAppend (k : Call) (p : RecordPayload) : Attempt Reply := do
  let o ← k.currentOrg
  ids p.counterpartyIds 0 16
  demand (p.organizationId = o.id ∧ o.id ∉ p.counterpartyIds)
    "forbidden" "record write permission required" 403
  k.writable p.policyId p.resourceId "record write permission required"
  let profile ← require ((k.s.profiles.get? p.profileDigest).filter (accessibleProfile · o.id))
    "unsupported_profile" "pinned profile unavailable" 422
  k.declares o p.profileDigest
  match k.previous with
  | some receipt => pure (k.answer receipt.result)
  | none => do
    demand (k.s.records.get? p.id = none ∧ recordReserved k.s p.id = false)
      "conflict" "record ID exists or reserved" 409
    let next := nextRecordSeq k.s o.id
    demand (1 ≤ next ∧ next < maxSafeInteger)
      "capacity" "record sequence capacity exhausted" 507
    let before ← k.predecessor o p
    continuity p before
    let s ← k.counterparties p.counterpartyIds
    demand (validateShape profile.schema p.body = true)
      "invalid_body" "record does not conform to pinned schema" 422
    match ← k.assess s o profile p before with
    | .duplicate company recordId => do
      let recorded ← access (s.records.get? recordId)
      pure (Reply.write (s.setInventory o.id company) (.appended recordId recorded.seq true))
    | .validated company validation => do
      let s := company.elim s (s.setInventory o.id)
      let record : BusinessRecord :=
        { p with
          command := k.stored (.recordAppend p), seq := next, isHead := true,
          acceptedAt := k.ctx.now, validation := validation }
      pure (Reply.write (insertRecord s o.id record) (.appended p.id next false))

end Call
end DirectTrade
