import DirectTrade.Stock

/-!
Replay of the business data of a snapshot: stock is opened from its signed openings,
then every record is judged and applied in list order.
-/

namespace DirectTrade

open Library

variable [Primitives] [Reducers]

/-- The profiles an import can use: the snapshot's own, then the host's. -/
def candidateProfile (s : State) (snap : Snapshot) (d : Digest) : Option Profile :=
  (snap.profiles.find? (·.digest = d)).or (s.profiles.get? d)

def hasSemantics (profiles : Digest → Option Profile) (semantics : Semantics)
    (r : BusinessRecord) : Bool :=
  (profiles r.profileDigest).any (·.semantics = semantics)

/-- The current record of a root under a semantics. -/
def Snapshot.head? (snap : Snapshot) (profiles : Digest → Option Profile) (root : Option Uuid)
    (semantics : Semantics) : Option BusinessRecord :=
  snap.records.find? fun r =>
    some r.rootId = root && r.isHead && hasSemantics profiles semantics r

def openingContext (snap : Snapshot) (c : StoredCommand) : Attempt Unit := do
  let _ ← historicalPerson snap c snap.organization.id
  pure ()

def replayOpening (s : State) (snap : Snapshot) (policyIds : List Uuid) (rebuilt : Inventory)
    (entry : Uuid × StoredCommand) : Attempt Inventory := do
  openingContext snap entry.2
  match entry.2.payload with
  | .inventoryOpen policyId productId => do
    invalidSnapshot (entry.2.actor.id ∈ snap.associated ∧ productId = entry.1 ∧
        policyId ∈ policyIds)
      "invalid signed ledger opening"
    -- the product's base unit and tracking are immutable, so any head anchors the same ledger
    let product ← require (snap.head? (candidateProfile s snap) (some productId) .productV1)
      "invalid_snapshot" "ledger opened for a product the snapshot does not carry" 403
    let ledger ← require
      (openInventoryLedger snap.organization.id productId product.body)
      "invalid_snapshot" "product cannot anchor a ledger" 403
    let index := rebuilt.ledgerIndex
    pure (rebuilt.setIndex { index with
      ledgers := index.ledgers.insert productId (ledger.withPolicy policyId)
      openings := index.openings.insert productId entry.2 })
  | _ => .error (.dtp "invalid_snapshot" "invalid signed ledger opening" 403)

def replayBook (snap : Snapshot) (policyIds : List Uuid) (rebuilt : Inventory)
    (entry : Uuid × StoredCommand) : Attempt Inventory := do
  openingContext snap entry.2
  match entry.2.payload with
  | .flowOpen policyId bookId => do
    invalidSnapshot (entry.2.actor.id ∈ snap.associated ∧ bookId = entry.1 ∧
        policyId ∈ policyIds)
      "invalid signed book opening"
    let flow := rebuilt.flowIndex
    pure (rebuilt.setFlow { flow with
      books := flow.books.insert bookId
        ((openFlowBook snap.organization.id bookId).withPolicy policyId)
      bookOpenings := flow.bookOpenings.insert bookId entry.2 })
  | _ => .error (.dtp "invalid_snapshot" "invalid signed book opening" 403)

/-- The key and the next state of a book whose ledger a signed opening names. -/
def replayLedger (s : State) (snap : Snapshot) (book : Book) (p : LedgerPayload) :
    Attempt (String × FlowBook) :=
  let profiles := candidateProfile s snap
  match p.asset.product with
  | some productId => do
    let product ← require (snap.head? profiles (some productId) .productV1)
      "invalid_snapshot" "ledger opened for a product the snapshot does not carry" 403
    invalidSnapshot (p.asset.currency = none ∧ p.account = none ∧ p.balance = .nonnegative)
      "ledger opened for a product the snapshot does not carry"
    let next ← require (openGoodsLedger book.toFlowBook productId product.body)
      "invalid_snapshot" "invalid ledger opening" 403
    pure (goodsLedgerKey productId, next)
  | none => do
    -- the account's class is immutable, so any head shows that it was an account
    let account ← require (snap.head? profiles p.account .objectV1)
      "invalid_snapshot" "ledger opened for an account the snapshot does not carry" 403
    invalidSnapshot (account.body.member? "class" = some (.str "dtp/account"))
      "ledger opened for an account the snapshot does not carry"
    let accountId ← require p.account "invalid_snapshot" "invalid ledger opening" 403
    let currency ← require p.asset.currency "invalid_snapshot" "invalid ledger opening" 403
    let next ← require (openMoneyLedger book.toFlowBook currency accountId p.balance)
      "invalid_snapshot" "invalid ledger opening" 403
    pure (moneyLedgerKey currency accountId, next)

def replayFlowLedger (s : State) (snap : Snapshot) (rebuilt : Inventory)
    (entry : Digest × StoredCommand) : Attempt Inventory := do
  openingContext snap entry.2
  match entry.2.payload with
  | .flowLedgerOpen p => do
    invalidSnapshot (entry.2.actor.id ∈ snap.associated) "invalid signed ledger opening"
    let flow := rebuilt.flowIndex
    let book ← require (flow.books[p.bookId]?.filter (·.policyId = p.policyId))
      "invalid_snapshot" "invalid signed ledger opening" 403
    let (key, next) ← replayLedger s snap book p
    invalidSnapshot (ledgerOpeningKey p.bookId (.str key) = entry.1)
      "ledger opening key differs"
    pure (rebuilt.setFlow { flow with
      books := flow.books.insert p.bookId (next.withPolicy book.policyId)
      ledgerOpenings := flow.ledgerOpenings.insert entry.1 entry.2 })
  | _ => .error (.dtp "invalid_snapshot" "invalid signed ledger opening" 403)

def replayCreation (snap : Snapshot) (policyIds : List Uuid) (rebuilt : Inventory)
    (entry : Uuid × StoredCommand) : Attempt Inventory := do
  openingContext snap entry.2
  match entry.2.payload with
  | .inventoryCreate policyId poolId productId baseUnit => do
    invalidSnapshot (entry.2.actor.id ∈ snap.associated ∧ poolId = entry.1 ∧
        policyId ∈ policyIds)
      "invalid signed stock pool creation"
    let pool ← require
      (createInventoryState snap.organization.id poolId productId baseUnit)
      "invalid_snapshot" "invalid stock pool scope or unit" 403
    pure { rebuilt with
      pools := rebuilt.pools.insert poolId (pool.withPolicy policyId)
      creations := rebuilt.creations.insert poolId entry.2 }
  | _ => .error (.dtp "invalid_snapshot" "invalid signed stock pool creation" 403)

/-- The empty entry with the members that the carried entry has. -/
def rebuiltStart (source : Option Inventory) : Inventory :=
  { Inventory.empty with
    index := (source.bind (·.index)).map fun index =>
      { LedgerIndex.empty with flow := index.flow.map fun _ => .empty } }

/-- The company's stock as its signed openings leave it, before any record. -/
def validateOpenings (s : State) (snap : Snapshot) (policyIds : List Uuid) :
    Attempt Inventory :=
  let source := snap.inventory[snap.organization.id]?
  match source with
  | none => .ok (rebuiltStart none)
  | some company => do
    let openings := (company.index.map (·.openings.toList)).getD []
    let rebuilt ← openings.foldlM (replayOpening s snap policyIds) (rebuiltStart source)
    let books := (company.flow.map (·.bookOpenings.toList)).getD []
    let rebuilt ← books.foldlM (replayBook snap policyIds) rebuilt
    let ledgers := (company.flow.map (·.ledgerOpenings.toList)).getD []
    let rebuilt ← ledgers.foldlM (replayFlowLedger s snap) rebuilt
    company.creations.toList.foldlM (replayCreation snap policyIds) rebuilt

structure RecordReplay where
  recordIds : List Uuid
  roots : List Uuid
  predecessors : List Uuid
  priorSeq : ℕ
  productAt : Dict Uuid Json
  stock : Inventory

/-- A rule of a profile that must find nothing. -/
def noIssue (rule : Attempt (List Issue)) (message : String) : Attempt Unit := do
  let issues ← rule
  invalidSnapshot (issues = []) message

def Snapshot.record? (snap : Snapshot) (id : Uuid) : Option BusinessRecord :=
  snap.records.find? (·.id = id)

/-- The predecessor whose body a continuity rule compares with. -/
def priorRecord (s : State) (snap : Snapshot) (r : BusinessRecord) : Option BusinessRecord :=
  r.supersedes.bind fun id => (snap.record? id).or (s.records.get? id)

/-- Continuity of a revision, for a profile whose genesis has no rule. -/
def revisionRule (s : State) (snap : Snapshot) (r : BusinessRecord)
    (rule : Json → Json → Attempt (List Issue)) (message : String) : Attempt Unit :=
  match r.supersedes with
  | none => pure ()
  | some _ => do
    let prior ← require (priorRecord s snap r) "invalid_snapshot" message 403
    noIssue (rule prior.body r.body) message

/-- Continuity of a revision, or the genesis rule of a first record. -/
def chainRule (s : State) (snap : Snapshot) (r : BusinessRecord)
    (rule : Json → Json → Attempt (List Issue)) (genesis : Json → Attempt (List Issue))
    (message : String) : Attempt Unit :=
  match r.supersedes with
  | none => noIssue (genesis r.body) message
  | some _ => do
    let prior ← require (priorRecord s snap r) "invalid_snapshot" message 403
    noIssue (rule prior.body r.body) message

/-- The actor of a carried record, a person or an installation of the company. -/
def recordAttribution (snap : Snapshot) (installations : Table Uuid Installation)
    (r : BusinessRecord) (proofs : List KeyId) : Attempt Unit :=
  match r.command.actor.kind with
  | .person =>
    invalidSnapshot (r.command.actor.id ∈ snap.associated ∧
        snap.signedBy r.command.actor.id proofs ∧
        r.command.requestedBy = some r.command.actor.id)
      "record actor identity unavailable"
  | .installation => do
    let inst ← require installations[r.command.actor.id]?
      "invalid_snapshot" "record installation attribution differs" 403
    invalidSnapshot (inst.keyId = r.command.actor.keyId ∧ .write ∈ inst.actions ∧
        r.policyId ∈ inst.policyIds ∧
        ((snap.release? inst.releaseDigest).any fun release =>
          r.profileDigest ∈ release.profiles) ∧
        (match r.command.requestedBy with
          | none => decide (inst.mode = .automation)
          | some person => person ∈ snap.associated && snap.signedBy person proofs) = true)
      "record installation attribution differs"

/-- The next state of a reducer that applied an observation for the first time. -/
def applied {σ : Type} (change : Change σ) (message : String) : Attempt σ :=
  match change with
  | .ok false state => .ok state
  | .ok true _ | .refused _ _ => .error (.dtp "invalid_snapshot" message 403)

def BusinessRecord.observed (r : BusinessRecord) : Observed :=
  ⟨Primitives.digestJson r.body, r.id, r.policyId, r.profileDigest⟩

def replayEvent (replay : RecordReplay) (r : BusinessRecord) :
    Attempt (Validation × RecordReplay) := do
  invalidSnapshot (r.supersedes = none ∧ r.body.names "company_id" r.organizationId ∧
      r.body.names "pool_id" r.resourceId)
    "inventory event scope differs"
  let pool ← require (replay.stock.pools[r.resourceId]?.filter (·.policyId = r.policyId))
    "invalid_snapshot" "inventory event scope differs" 403
  let observation := eventKey r.body
  invalidSnapshot (replay.stock.observations[observation]? = none) "duplicate inventory effect"
  let state ← applied (Reducers.applyInventoryEvent pool.toInventoryState r.body)
    "inventory sequence violates profile"
  pure (.stock "dtp.inventory/1" state.revision, { replay with stock := { replay.stock with
    pools := replay.stock.pools.insert r.resourceId (state.withPolicy pool.policyId)
    observations := replay.stock.observations.insert observation r.observed } })

def replayFact (replay : RecordReplay) (r : BusinessRecord) :
    Attempt (Validation × RecordReplay) := do
  let index := replay.stock.ledgerIndex
  invalidSnapshot (r.supersedes = none ∧ r.body.names "product_id" r.resourceId)
    "inventory fact scope differs"
  let ledger ← require (index.ledgers[r.resourceId]?.filter (·.policyId = r.policyId))
    "invalid_snapshot" "inventory fact scope differs" 403
  let observation := factKey r.resourceId r.body
  invalidSnapshot (index.facts[observation]? = none) "duplicate inventory fact"
  let unpublished ← Reducers.unpublishedPackaging r.body (replay.productAt.get? r.resourceId)
  invalidSnapshot (unpublished = false)
    "inventory fact pins a packaging revision the product had not published (#59)"
  let state ← applied (Reducers.applyInventoryFact ledger.toInventoryLedger r.body)
    "inventory facts violate profile"
  pure (.stock "dtp.inventory/2" state.revision, { replay with
    stock := replay.stock.setIndex { index with
      ledgers := index.ledgers.insert r.resourceId (state.withPolicy ledger.policyId)
      facts := index.facts.insert observation r.observed } })

def replayFlowFact (replay : RecordReplay) (r : BusinessRecord) :
    Attempt (Validation × RecordReplay) := do
  let flow := replay.stock.flowIndex
  invalidSnapshot (r.supersedes = none) "flow fact scope differs"
  let book ← require (flow.books[r.resourceId]?.filter (·.policyId = r.policyId))
    "invalid_snapshot" "flow fact scope differs" 403
  noIssue (Reducers.checkFlowOwner r.body r.organizationId)
    "flow fact spells the writer's own object as foreign"
  let unpublished ← Reducers.flowUnpublishedPackaging r.body fun root =>
    (parseUuid root).bind replay.productAt.get?
  invalidSnapshot (unpublished = false)
    "flow fact pins a packaging revision the product had not published"
  -- a fact cannot predate the opening of a ledger it changes
  Outcome.each (fun key => invalidSnapshot
    (flow.ledgerOpenings.has (ledgerOpeningKey r.resourceId key) fun opening =>
      opening.issuedAt ≤ r.command.issuedAt)
    "flow fact precedes its ledger opening") (factLedgers r.body)
  let observation := flowKey r.resourceId r.body
  invalidSnapshot (flow.flowFacts[observation]? = none) "duplicate flow fact"
  let state ← applied (Reducers.applyFlowFact book.toFlowBook r.body)
    "flow facts violate profile"
  let revisions ← flowRevisions state r.body
  pure (.flow revisions, { replay with stock := replay.stock.setFlow { flow with
    books := flow.books.insert r.resourceId (state.withPolicy book.policyId)
    flowFacts := flow.flowFacts.insert observation r.observed } })

def replayParty (s : State) (snap : Snapshot) (r : BusinessRecord) : Attempt Unit := do
  noIssue (Reducers.validateParty r.body) "party violates profile"
  invalidSnapshot (r.body.member? "kind" ≠ some (.str "person") ∨
      ((snap.policies.find? (·.id = r.policyId)).any fun p => p.classification = .personnel))
    "person party outside a personnel policy"
  revisionRule s snap r Reducers.checkPartyContinuity "party continuity violated"

/-- The validation projection that a record must carry, and its effect on the replay. -/
def replayBusiness (s : State) (snap : Snapshot) (replay : RecordReplay) (r : BusinessRecord)
    (semantics : Semantics) : Attempt (Validation × RecordReplay) :=
  match semantics with
  | .structural => pure (.structural r.profileDigest, replay)
  | .invoiceV1 => do
    invalidSnapshot (r.body.names "seller_company_id" r.organizationId ∧
        ∃ party ∈ r.counterpartyIds, r.body.names "buyer_company_id" party)
      "invoice parties differ"
    let report := Reducers.validateInvoice r.body fun _ _ => .unknown
    invalidSnapshot (report.valid = true) "invalid invoice arithmetic"
    pure (.invoice report, replay)
  | .productV1 => do
    noIssue (Reducers.validateProduct r.body) "product violates profile"
    revisionRule s snap r Reducers.checkProductContinuity "product continuity violated"
    pure (.businessRules "dtp.product/1",
      { replay with productAt := replay.productAt.set r.rootId r.body })
  | .orderV1 => do
    noIssue (Reducers.validateOrder r.body) "order violates profile"
    chainRule s snap r Reducers.checkOrderContinuity Reducers.checkOrderGenesis
      "order continuity violated"
    pure (.businessRules "dtp.order/1", replay)
  | .forecastV1 => do
    noIssue (Reducers.validateForecast r.body) "forecast violates profile"
    revisionRule s snap r Reducers.checkForecastContinuity "forecast continuity violated"
    pure (.businessRules "dtp.forecast/1", replay)
  | .objectV1 => do
    noIssue (Reducers.validateObject r.body) "object violates profile"
    noIssue (Reducers.checkObjectOwner r.body r.organizationId) "object violates profile"
    chainRule s snap r Reducers.checkObjectContinuity Reducers.checkObjectGenesis
      "object continuity violated"
    pure (.businessRules "dtp.object/1", replay)
  | .partyV1 => do
    replayParty s snap r
    pure (.businessRules "dtp.party/1", replay)
  | .inventoryV2 => replayFact replay r
  | .flowV1 => replayFlowFact replay r
  | .inventoryV1 => replayEvent replay r

/-- A revision continues a record of the snapshot that nothing else continues. -/
def replayChain (snap : Snapshot) (replay : RecordReplay) (r : BusinessRecord) :
    Attempt RecordReplay :=
  match r.supersedes with
  | none => do
    invalidSnapshot (r.rootId = r.id) "genesis root must equal record ID"
    pure replay
  | some predecessor => do
    let before ← require (snap.record? predecessor)
      "invalid_snapshot" "invalid supersession continuity" 403
    invalidSnapshot (before.id ≠ r.id ∧ before.id ∈ replay.recordIds ∧
        before.id ∉ replay.predecessors ∧ before.isHead = false ∧ before.rootId = r.rootId ∧
        before.organizationId = r.organizationId ∧ before.policyId = r.policyId ∧
        before.resourceId = r.resourceId ∧ before.profileDigest = r.profileDigest ∧
        before.counterpartyIds = r.counterpartyIds)
      "invalid supersession continuity"
    pure { replay with predecessors := replay.predecessors ++ [before.id] }

def replayRecord (s : State) (snap : Snapshot) (installations : Table Uuid Installation)
    (replay : RecordReplay) (r : BusinessRecord) : Attempt RecordReplay := do
  invalidSnapshot (r.organizationId = snap.organization.id ∧ s.records.get? r.id = none ∧
      r.id ∉ replay.recordIds ∧ snap.policies.any (·.id = r.policyId))
    "record collision or dependency missing"
  let profile ← require (candidateProfile s snap r.profileDigest)
    "invalid_snapshot" "record collision or dependency missing" 403
  let replay := { replay with recordIds := replay.recordIds ++ [r.id] }
  let proofs ← verifyStored r.command
  recordAttribution snap installations r proofs
  invalidSnapshot (r.seq ≤ maxSafeInteger ∧ r.seq > replay.priorSeq ∧
      r.command.organizationId = some r.organizationId)
    "invalid record metadata/order"
  let replay := { replay with priorSeq := r.seq }
  invalidSnapshot (r.counterpartyIds.length ≤ 16 ∧ r.counterpartyIds.Nodup ∧
      ∀ id ∈ r.counterpartyIds, id ≠ r.organizationId)
    "invalid record counterparties"
  invalidSnapshot (validateShape profile.schema r.body = true)
    "record does not satisfy pinned profile"
  invalidSnapshot (r.command.payload = .recordAppend r.toRecordPayload)
    "signed record payload differs"
  let (expected, replay) ← replayBusiness s snap replay r profile.semantics
  invalidSnapshot (r.validation = expected)
    "record validation projection differs from deterministic profile"
  invalidSnapshot (r.isHead = false ∨ r.rootId ∉ replay.roots) "multiple current heads"
  let replay := if r.isHead then { replay with roots := replay.roots ++ [r.rootId] } else replay
  replayChain snap replay r

def validateRecords (s : State) (snap : Snapshot) (installations : Table Uuid Installation)
    (opened : Inventory) : Attempt Unit := do
  let replay ← snap.records.foldlM (replayRecord s snap installations)
    ⟨[], [], [], 0, ∅, opened⟩
  Outcome.each (fun (r : BusinessRecord) =>
    invalidSnapshot (r.isHead = true ↔ r.id ∉ replay.predecessors)
      "head flag differs from signed chain") snap.records
  invalidSnapshot (snap.inventory[snap.organization.id]?.all (· = replay.stock) = true)
    "inventory projection differs from signed events"

end DirectTrade
