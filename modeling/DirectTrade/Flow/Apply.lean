import DirectTrade.Flow.Book
import DirectTrade.Flow.Inventory

/-!
Facts applied to a book. Everything that can be said of a fact without changing the book
is checked first; then claims are settled, legs move quantities and claims are raised, and
at last the ledgers touched are compacted and chained to the fact.
-/

namespace DirectTrade.Flow

open Library Outcome
open Foundation (optionJson)

variable [FactHash]

def maxFlowLedgers : ℕ := 16
def maxFlowLegs : ℕ := 16
def maxFlowReservations : ℕ := 16
def maxSettlements : ℕ := 16

/-- The first issue of a header, if there is one. -/
def report : List ActIssue → Checked Unit
  | [] => .ok ()
  | issue :: _ => .error ⟨.invalid, issue.path ++ ": " ++ issue.message⟩

def admitFlowFact (fact : FlowFact) : Checked Unit := do
  let issues ← caught (validateAct fact.act "$.act")
  report issues
  demand ⟨.invalid, "$.act.verb: a flow fact moves, transforms or transfers"⟩
    (fact.act.verb = .move ∨ fact.act.verb = .transform ∨ fact.act.verb = .transfer)
  demand ⟨.invalid, "bounded legs, reservations, settlements and ledgers required"⟩
    (fact.legs.length ≤ maxFlowLegs ∧ fact.reservations.length ≤ maxFlowReservations ∧
      fact.settles.length ≤ maxSettlements ∧ fact.ledgers.length ≤ maxFlowLedgers)
  demand ⟨.invalid, "a fact carries at least one leg, reservation or settlement"⟩
    (fact.legs.length + fact.reservations.length + fact.settles.length ≠ 0)
  demand ⟨.invalid, "$.act.observation.source_id: member-name-safe source required"⟩
    (ident fact.act.observation.sourceId 200 = true)

def touch (book : FlowBook) (asset : Asset) (p : FlowPosition) (path : String)
    (touched : List Digest) : Checked (List Digest) :=
  if p.isVirtual then pure touched
  else do
    let (key, _) ← ledgerOf book asset p path
    pure (touched.insert key)

def shapeLeg (book : FlowBook) (touched : List Digest) (entry : FlowLeg × ℕ) :
    Checked (List Digest) := do
  let leg := entry.1
  let path := indexed "$.legs" entry.2
  checkAsset leg.asset (path ++ ".asset")
  checkPosition book leg.asset leg.fromPosition (path ++ ".from")
  checkPosition book leg.asset leg.toPosition (path ++ ".to")
  demand ⟨.invalid, path ++ ": a leg needs at least one real position"⟩
    (leg.fromPosition.isVirtual = false ∨ leg.toPosition.isVirtual = false)
  demand ⟨.invalid, path ++ ": from and to are the same position"⟩
    (flowPositionKey leg.fromPosition ≠ flowPositionKey leg.toPosition)
  demand ⟨.invalid, path ++ ": bounded reason or null required"⟩
    ((leg.reason.all fun v => text v 200) = true)
  demand ⟨.invalid, path ++ ": an adjustment requires a reason"⟩
    (leg.fromPosition.isAt "~adjustment" = true ∨ leg.toPosition.isAt "~adjustment" = true →
      leg.reason ≠ none)
  let touched ← touch book leg.asset leg.fromPosition (path ++ ".from") touched
  touch book leg.asset leg.toPosition (path ++ ".to") touched

def shapeReservation (book : FlowBook) (touched : List Digest)
    (entry : FlowReservation × ℕ) : Checked (List Digest) := do
  let op := entry.1
  let path := indexed "$.reservations" entry.2
  checkAsset op.asset (path ++ ".asset")
  demand ⟨.invalid, path ++ ": reservations claim goods"⟩ (op.asset.product ≠ none)
  demand ⟨.invalid, path ++ ": kind, reservation id and party or null required"⟩
    (ident op.reservationId 120 = true ∧
      ∀ party ∈ op.party, validateObjectRef party (path ++ ".party") = [])
  checkPosition book op.asset op.position (path ++ ".position")
  demand ⟨.invalid, path ++ ": reservations claim real stock"⟩ (op.position.isVirtual = false)
  demand ⟨.invalid, path ++ ": only available stock is reserved"⟩
    (op.position.status = .available)
  touch book op.asset op.position (path ++ ".position") touched

def FlowLeg.consumes (leg : FlowLeg) : Bool := leg.toPosition.isAt "~production"

def FlowLeg.produces (leg : FlowLeg) : Bool := leg.fromPosition.isAt "~production"

def checkYieldLoss (book : FlowBook) (fact : FlowFact) (entry : YieldLoss × ℕ) :
    Checked Unit := do
  let y := entry.1
  let path := indexed "$.transform.yield_loss" entry.2
  demand ⟨.invalid, path ++ ": product, quantity and reason required"⟩ (text y.reason 200 = true)
  demand ⟨.invalid, path ++ ": a loss is of an input"⟩
    (some y.product ∈ (fact.legs.filter FlowLeg.consumes).map fun leg => leg.asset.product)
  let _ ← toBase (book.ledgers.get? (goodsLedgerKey y.product)) ⟨some y.product, none⟩ y.quantity
    (path ++ ".quantity")
  pure ()

def checkTransform (book : FlowBook) (fact : FlowFact) : Checked Unit :=
  if fact.act.verb = .transform then do
    let t ← require
      ⟨.invalid, "$.transform: a transform states its recipe, yield loss and equipment"⟩
      fact.transform
    demand ⟨.invalid, "$.legs: a transform carries only production legs"⟩
      ((∀ leg ∈ fact.legs, (leg.produces || leg.consumes) = true) ∧ fact.reservations = [])
    demand ⟨.invalid,
      "$.legs: a transform consumes at least one input and produces at least one output"⟩
      (fact.legs.any FlowLeg.consumes = true ∧ fact.legs.any FlowLeg.produces = true)
    demand ⟨.invalid, "$.transform.recipe: object reference or null required"⟩
      (∀ recipe ∈ t.recipe, validateObjectRef recipe "$.transform.recipe" = [])
    demand ⟨.invalid, "$.transform.equipment: object references required"⟩
      (t.equipment.length ≤ 16 ∧ ∀ e ∈ t.equipment.zipIdx,
        validateObjectRef e.1 (indexed "$.transform.equipment" e.2) = [])
    demand ⟨.invalid, "$.transform.yield_loss: at most 16 entries"⟩ (t.yieldLoss.length ≤ 16)
    each (checkYieldLoss book fact) t.yieldLoss.zipIdx
  else do
    demand ⟨.invalid, "$.transform: only a transform carries one"⟩ (fact.transform = none)
    demand ⟨.invalid, "$.legs: production legs belong to a transform"⟩
      (∀ leg ∈ fact.legs, (leg.produces || leg.consumes) = false)

def FlowLeg.isPaid (leg : FlowLeg) : Bool :=
  leg.fromPosition.isAt "~counterparty" || leg.toPosition.isAt "~counterparty"

/-- What a transfer changes, in words. -/
def changesText (owner place : Bool) : String :=
  match owner, place with
  | true, true => "title and custody"
  | true, false => "title"
  | false, true => "custody"
  | false, false => "nothing"

def checkTransferLeg (rights : List Right) (entry : FlowLeg × ℕ) : Checked Unit := do
  let leg := entry.1
  let path := indexed "$.legs" entry.2
  let title := decide (Right.title ∈ rights)
  let custody := decide (Right.custody ∈ rights)
  if leg.asset.isMoney then do
    demand ⟨.rightsMismatch, path ++ ": money changes hands by title only"⟩
      (title = true ∧ custody = false)
    demand ⟨.rightsMismatch, path ++ ": money changes hands with a counterparty; " ++
      "between the company's own accounts it moves"⟩ (leg.isPaid = true)
  else do
    demand ⟨.rightsMismatch, path ++ ": a transfer of goods is between two real positions; " ++
      "goods enter and leave the book by a move"⟩
      (leg.fromPosition.isVirtual = false ∧ leg.toPosition.isVirtual = false)
    demand ⟨.rightsMismatch, path ++ ": a transfer changes neither lot nor status"⟩
      (leg.fromPosition.lotId = leg.toPosition.lotId ∧
        leg.fromPosition.status = leg.toPosition.status)
    let ownerChanged := decide (leg.fromPosition.owner ≠ leg.toPosition.owner)
    let placeChanged := decide (leg.fromPosition.location.ref ≠ leg.toPosition.location.ref)
    demand ⟨.rightsMismatch, path ++ ": the leg changes " ++
      changesText ownerChanged placeChanged ++ ", not what rights says"⟩
      (ownerChanged = title ∧ placeChanged = custody)

def checkPlainLeg (entry : FlowLeg × ℕ) : Checked Unit := do
  let leg := entry.1
  let path := indexed "$.legs" entry.2
  demand ⟨.rightsMismatch, path ++ ": a change of owner is a transfer of title"⟩
    (leg.asset.product ≠ none → leg.fromPosition.isVirtual = false →
      leg.toPosition.isVirtual = false → leg.fromPosition.owner = leg.toPosition.owner)
  demand ⟨.rightsMismatch, path ++ ": money paid or received is a transfer of title"⟩
    (leg.asset.isMoney = true → leg.isPaid = false)

/-- A move never changes title or custody's holder in place; a transfer changes exactly what
it says it does. -/
def checkRights (fact : FlowFact) : Checked Unit :=
  if fact.act.verb = .transfer then do
    let rights ← require ⟨.invalid, "$.rights: a transfer names the rights it moves"⟩ fact.rights
    demand ⟨.invalid, "$.rights: a transfer names the rights it moves"⟩
      (rights ≠ [] ∧ rights.Nodup)
    demand ⟨.invalid,
      "$.legs: a transfer moves something, or offsets or reverses settlements"⟩
      (fact.legs = [] → ∃ s ∈ fact.settles, s.kind ≠ .payment)
    each (checkTransferLeg rights) fact.legs.zipIdx
  else do
    demand ⟨.invalid, "$.rights: only a transfer names rights"⟩ (fact.rights = none)
    each checkPlainLeg fact.legs.zipIdx

def checkSettlement (fact : FlowFact) (entry : Settlement × ℕ) : Checked Unit := do
  let s := entry.1
  let path := indexed "$.settles" entry.2
  demand ⟨.invalid, path ++ ".claim: object reference required"⟩
    (validateObjectRef s.claim (path ++ ".claim") = [])
  demand ⟨.invalid, path ++ ": kind and currency required"⟩ (isCurrency s.currency = true)
  let amount ← orRefuse (parseDecimal s.amount moneyScale false)
    ⟨.invalid, path ++ ".amount: six-place decimal required"⟩
  demand ⟨.invalid, path ++ ".amount: positive amount required"⟩ (0 < amount)
  demand ⟨.invalid, path ++
    ".reverses: a reversal names the settlement fact it reverses, and only a reversal"⟩
    (s.kind = .reversal ↔ s.reverses ≠ none)
  demand ⟨.invalid, path ++ ".reverses: record id required"⟩ (s.reverses.all isUuidText = true)
  demand ⟨.invalid, path ++ ": a payment settles with money legs in its currency"⟩
    (s.kind = .payment → some s.currency ∈ fact.legs.map fun leg => leg.asset.currency)

def checkSettlements (fact : FlowFact) : Checked Unit := do
  each (checkSettlement fact) fact.settles.zipIdx
  let offsets := fact.settles.filter fun s => s.kind = .offset
  demand ⟨.invalid, "$.settles: an offset nets at least two distinct claims"⟩
    (offsets ≠ [] → 2 ≤ (offsets.map Settlement.claim).dedup.length)

def checkListed (book : FlowBook) (l : ListedLedger) : Checked Unit := do
  let ledger ← require ⟨.invalid, "Cannot read properties of undefined (reading 'revision')"⟩
    (book.ledgers.get? l.key)
  demand ⟨.invalid, "ledger revision capacity exhausted"⟩ (ledger.revision < maxSafeInteger)
  demand ⟨.revisionConflict, "ledger " ++ String.ofList ((FactHash.hex l.key).toList.take 12) ++
    " changed; reload before deciding a new action"⟩
    (l.expectedRevision = ledger.revision ∧ l.expectedDigest = ledger.head)

/-- The list names exactly the ledgers touched, each at its current revision and head. -/
def checkLedgers (book : FlowBook) (fact : FlowFact) (touched : List Digest) : Checked Unit := do
  each (fun entry => do
    demand ⟨.invalid, indexed "$.ledgers" entry.2 ++ ": key, revision and digest or null required"⟩
      (entry.1.expectedRevision ≤ maxSafeInteger)
    demand ⟨.invalid, indexed "$.ledgers" entry.2 ++ ": a ledger is listed once"⟩
      (entry.1.key ∉ (fact.ledgers.take entry.2).map ListedLedger.key)) fact.ledgers.zipIdx
  demand ⟨.wrongScope, "$.ledgers: name exactly the ledgers the fact changes"⟩
    (fact.ledgers.length = touched.length ∧ ∀ k ∈ touched, k ∈ fact.ledgers.map ListedLedger.key)
  each (checkListed book) fact.ledgers

/-- Rewrites the stock of one ledger. -/
def FlowBook.onLedger (book : FlowBook) (key : Digest)
    (change : FlowLedger → Checked (Stock FlowPosition ObjectRef)) : Checked FlowBook := do
  let ledger ← require ⟨.invalid, "Cannot read properties of undefined (reading 'positions')"⟩
    (book.ledgers.get? key)
  let stock ← change ledger
  pure { book with ledgers := book.ledgers.set key { ledger with toStock := stock } }

def goodsMeasure : Measure := ⟨goodsScale, true⟩

def applyReservation (phase : Phase) (book : FlowBook) (entry : FlowReservation × ℕ) :
    Checked FlowBook := do
  let op := entry.1
  let path := indexed "$.reservations" entry.2
  if op.kind.phase ≠ phase then pure book
  else do
    let (key, ledger) ← ledgerOf book op.asset op.position path
    let qty ← toBase (some ledger) op.asset op.quantity (path ++ ".quantity")
    book.onLedger key fun ledger =>
      ledger.toStock.reservation goodsMeasure ledger.tracking
        "a move naming its serials, plus a release" op.kind (flowPositionKey op.position)
        op.position op.reservationId qty op.party path

/-- The ledger a leg takes from or gives to, unless the counterpart is outside the book. -/
def legLedger (book : FlowBook) (asset : Asset) (p : FlowPosition) (path : String) :
    Checked (Option (Digest × FlowLedger)) :=
  if p.isVirtual then pure none
  else do
    let found ← ledgerOf book asset p path
    pure (some found)

/-- Takes a leg from its source; what comes from outside the book is new to the ledger. -/
def takeLeg (book : FlowBook) (leg : FlowLeg) (anchor : FlowLedger) (qty : ℤ)
    (serials : List String) (path : String) : Option (Digest × FlowLedger) → Checked FlowBook
  | some (key, _) => book.onLedger key fun ledger =>
      ledger.toStock.debit ⟨anchor.scale, true⟩ (flowPositionKey leg.fromPosition)
        leg.fromPosition qty serials (decide (ledger.balance = .nonnegative))
        (!leg.asset.isMoney)
        (if leg.asset.isMoney then "available in the account"
          else "unreserved at the source position") path
  | none => do
      anchor.toStock.absent serials "the ledger" path
      pure book

/-- Gives a leg to its target, unless it leaves the book. -/
def giveLeg (book : FlowBook) (leg : FlowLeg) (anchor : FlowLedger) (qty : ℤ)
    (serials : List String) : Option (Digest × FlowLedger) → Checked FlowBook
  | some (key, _) => book.onLedger key fun ledger =>
      ledger.toStock.credit ⟨anchor.scale, true⟩ (flowPositionKey leg.toPosition)
        leg.toPosition qty serials
  | none => pure book

def applyLeg (book : FlowBook) (entry : FlowLeg × ℕ) : Checked FlowBook := do
  let leg := entry.1
  let path := indexed "$.legs" entry.2
  let source ← legLedger book leg.asset leg.fromPosition path
  let target ← legLedger book leg.asset leg.toPosition path
  let (_, anchor) ← require
    ⟨.invalid, "Cannot read properties of undefined (reading 'unit')"⟩ (source.or target)
  let qty ← toBase (some anchor) leg.asset leg.quantity (path ++ ".quantity")
  let serials ← serialsOf anchor.tracking leg.serialIds qty
    (if leg.asset.isMoney then "money" else "this product") path
  let taken ← takeLeg book leg anchor qty serials path source
  giveLeg taken leg anchor qty serials target

/-- Compacts a ledger that the fact touched and chains it to the fact. -/
def closeLedger (digest : Digest) (book : FlowBook) (key : Digest) : Checked FlowBook := do
  let ledger ← require ⟨.invalid, "Cannot read properties of undefined (reading 'positions')"⟩
    (book.ledgers.get? key)
  let stock ← ledger.toStock.compact ledger.measure
  let closed :=
    { ledger with toStock := stock, revision := ledger.revision + 1, head := some digest }
  pure { book with ledgers := book.ledgers.set key closed }

/-- What is checked of a fact before any change: the ledgers it touches. -/
def checkFlowFact (book : FlowBook) (fact : FlowFact) : Checked (List Digest) := do
  let touched ← fact.legs.zipIdx.foldlM (shapeLeg book) []
  let touched ← fact.reservations.zipIdx.foldlM (shapeReservation book) touched
  checkTransform book fact
  checkRights fact
  checkSettlements fact
  checkLedgers book fact touched
  pure touched

def changeBook (state : FlowBook) (fact : FlowFact) : Checked FlowBook := do
  let touched ← checkFlowFact state fact
  let settled ← fact.reservations.zipIdx.foldlM (applyReservation .settle) state
  let moved ← fact.legs.zipIdx.foldlM applyLeg settled
  let claimed ← fact.reservations.zipIdx.foldlM (applyReservation .claim) moved
  let closed ← touched.foldlM (closeLedger (digestOf fact.json)) claimed
  let sources ← mark closed.sources fact.act.observation (digestOf fact.json)
  pure { closed with sources := sources }

/-- Applies one fact atomically to every ledger it names. -/
def applyFlowFact (state : FlowBook) (fact : FlowFact) : Result FlowBook :=
  answer state do
    admitFlowFact fact
    match ← observe state.sources fact.act.observation (digestOf fact.json) with
    | .duplicate => pure (true, state)
    | .fresh => do
      let next ← changeBook state fact
      pure (false, next)

/-- An own or foreign location. -/
def spell (p : FlowPosition) : String :=
  match p.location.ref with
  | none => ""
  | some ref =>
    match ref.mintedBy with
    | none => ref.root
    | some minter => minter ++ "/" ++ ref.root

/-- The order of texts by their code units. -/
def codeUnits (s : String) : List ℕ :=
  s.toList.flatMap fun c =>
    if c.toNat > 65535 then
      [55296 + (c.toNat - 65536) / 1024, 56320 + (c.toNat - 65536) % 1024]
    else [c.toNat]

def sortTexts (l : List String) : List String :=
  l.mergeSort fun a b => decide (codeUnits a ≤ codeUnits b)

structure InventoryView where
  organizationId : String
  productId : String
  baseUnit : String
  tracking : Tracking
  revision : ℕ
  positions : Dict Digest (PositionState Inventory.Position)
  reservations : Dict String (Claim String)

/-- The inventory position that a position of the company's own is spelled as. -/
def spelled (p : FlowPosition) : Inventory.Position := ⟨p.lotId, spell p, p.status⟩

/-- Positions that are spelled the same are summed, never overwritten. -/
def spellPosition (scale : ℕ) (positions : Dict Digest (PositionState Inventory.Position))
    (p : PositionState FlowPosition) :
    Except String (Dict Digest (PositionState Inventory.Position)) :=
  let position := spelled p.position
  let key := Inventory.positionKey position
  match positions.get? key with
  | none => .ok (positions.set key ⟨position, p.quantity, p.serials⟩)
  | some same => do
    let before ← parseDecimal same.quantity scale true
    let more ← parseDecimal p.quantity scale true
    let quantity ← formatDecimal (before + more) scale
    pure (positions.set key ⟨position, quantity, sortTexts (same.serials ++ p.serials)⟩)

/-- The company's own positions, with location ids spelled `root` or `minted_by/root`. -/
def projectInventory2 (book : FlowBook) (productId : String) : Except String InventoryView := do
  let ledger ← require "no ledger for that product" (book.ledgers.get? (goodsLedgerKey productId))
  let owned := ledger.positions.filter fun _ p => p.position.owner = none
  let positions ← owned.values.foldlM (spellPosition ledger.scale) ∅
  let moved := owned.mapValues fun p => Inventory.positionKey (spelled p.position)
  let held := ledger.reservations.filter fun _ r => (moved.get? r.position).isSome
  let reservations := held.mapValues fun r =>
    { position := (moved.get? r.position).getD r.position
      quantity := r.quantity
      party := r.party.bind fun party =>
        if party.mintedBy = none then some party.root else none : Claim String }
  pure { organizationId := book.organizationId, productId, baseUnit := ledger.unit
         tracking := ledger.tracking, revision := ledger.revision, positions, reservations }

end DirectTrade.Flow
