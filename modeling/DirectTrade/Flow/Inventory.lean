import DirectTrade.Flow.Stock

/-!
One company's stock ledger for one product: positions by lot, location and status,
changed by facts of moves between real and virtual locations with reservations beside
them, and the earlier profile's view of one location.
-/

namespace DirectTrade.Flow.Inventory

open Library Outcome
open Foundation (optionJson isDigitChar)

structure Position where
  lotId : Option String
  locationId : String
  status : PositionStatus
  deriving DecidableEq

structure Links where
  transformationId : Option String
  orderId : Option String
  deriving DecidableEq

structure MoveLeg where
  fromPosition : Position
  toPosition : Position
  quantity : Quantity
  serialIds : Option (List String)
  reason : Option String
  links : Links
  deriving DecidableEq

structure ReservationOp where
  kind : OpKind
  reservationId : String
  position : Position
  quantity : Quantity
  party : Option String
  deriving DecidableEq

structure InventoryFact where
  productId : String
  observation : Observation
  occurredAt : String
  expectedRevision : ℕ
  moves : List MoveLeg
  reservations : List ReservationOp
  deriving DecidableEq

structure InventoryLedger extends Stock Position String where
  organizationId : String
  productId : String
  baseUnit : String
  tracking : Tracking
  revision : ℕ
  sources : Dict String Source

def maxMoveLegs : ℕ := 16
def maxReservationOps : ℕ := 16

def virtualLocations : List String := ["~supplier", "~customer", "~adjustment", "~production"]

def openInventoryLedger (organizationId productId : String) (product : ProductAnchor) :
    Except String InventoryLedger := do
  demand "invalid ledger scope, unit or tracking"
    (isUuidText organizationId = true ∧ isUuidText productId = true ∧ product.system = .ucum ∧
      isUcum product.code = true)
  pure { Stock.empty with
    organizationId, productId, baseUnit := product.code, tracking := product.tracking
    revision := 0, sources := ∅ }

def Position.json (p : Position) : Json :=
  .obj [("lot_id", optionJson Json.str p.lotId), ("location_id", .str p.locationId),
    ("status", .str p.status.text)]

section

variable [FactHash]

def positionKey (p : Position) : Digest :=
  digestOf (.arr [optionJson Json.str p.lotId, .str p.locationId, .str p.status.text])

def MoveLeg.json (leg : MoveLeg) : Json :=
  .obj [("from", leg.fromPosition.json), ("to", leg.toPosition.json),
    ("quantity", leg.quantity.json), ("serial_ids", optionJson serialsJson leg.serialIds),
    ("reason", optionJson Json.str leg.reason),
    ("links", .obj [("transformation_id", optionJson Json.str leg.links.transformationId),
      ("order_id", optionJson Json.str leg.links.orderId)])]

def ReservationOp.json (op : ReservationOp) : Json :=
  .obj [("kind", .str op.kind.text), ("reservation_id", .str op.reservationId),
    ("position", op.position.json), ("quantity", op.quantity.json),
    ("party", optionJson Json.str op.party)]

def InventoryFact.json (fact : InventoryFact) : Json :=
  .obj [("product_id", .str fact.productId), ("observation", fact.observation.json),
    ("occurred_at", .str fact.occurredAt), ("expected_revision", .num fact.expectedRevision),
    ("moves", .arr (fact.moves.map MoveLeg.json)),
    ("reservations", .arr (fact.reservations.map ReservationOp.json))]

def toBase (ledger : InventoryLedger) (q : Quantity) (path : String) : Checked ℤ := do
  let amount ← orRefuse (parseDecimal q.amount goodsScale false)
    ⟨.invalid, path ++ ": three-place decimal amount required"⟩
  demand ⟨.invalid, path ++ ": positive quantity required"⟩ (0 < amount)
  if q.unit.system = .ucum then do
    demand ⟨.invalid, path ++ ": a ucum unit carries no packaging"⟩
      (q.unit.packagingId = none ∧ q.unit.version = none ∧ q.unit.baseUnitsPerPack = none)
    demand ⟨.unitMismatch, path ++ ": quantities are expressed in the product base unit " ++
      ledger.baseUnit ++ "; no unit is converted"⟩ (q.unit.code = some ledger.baseUnit)
    pure amount
  else packsToBase amount q.unit .invalid path

def isVirtual (location : String) : Bool := location.toList.head? = some '~'

def checkPosition (ledger : InventoryLedger) (p : Position) (path : String) : Checked Unit := do
  demand ⟨.invalid, path ++ ": bounded location required"⟩ (ident p.locationId 120 = true)
  if isVirtual p.locationId then
    demand ⟨.invalid, path ++ ": unknown virtual location"⟩ (p.locationId ∈ virtualLocations)
  else do
    demand ⟨.invalid, path ++ ": bounded lot or null required"⟩
      ((p.lotId.all fun lot => ident lot 120) = true)
    demand ⟨.trackingMismatch, path ++ ": this product is not lot-tracked"⟩
      (ledger.tracking = .none → p.lotId = none)
    demand ⟨.trackingMismatch, path ++ ": this product is lot-tracked; a lot is required"⟩
      (ledger.tracking ≠ .none → p.lotId ≠ none)

/-- A UTC timestamp to the second or up to six places below. -/
def isTimestamp (v : String) : Bool :=
  let chars := v.toList
  let fraction := match (chars.drop 19).head? with
    | some '.' => ((chars.drop 20).takeWhile isDigitChar).length
    | _ => 0
  hasShape "0000-00-00T00:00:00" (chars.take 19) &&
    (chars.drop 19 = ['Z'] ||
      1 ≤ fraction && fraction ≤ 6 && chars.drop (20 + fraction) = ['Z']) &&
    isCalendarDay chars && isTimeOfDay chars

/-- Quantities of inventory positions are never negative. -/
def inventoryMeasure : Measure := ⟨goodsScale, false⟩

def applyReservation (phase : Phase) (ledger : InventoryLedger) (entry : ReservationOp × ℕ) :
    Checked InventoryLedger := do
  let op := entry.1
  let path := indexed "reservations" entry.2
  demand ⟨.invalid, path ++ ": kind, reservation id and party or null required"⟩
    (ident op.reservationId 120 = true ∧ op.party.all isUuidText = true)
  if op.kind.phase ≠ phase then pure ledger
  else do
    checkPosition ledger op.position (path ++ ".position")
    let qty ← toBase ledger op.quantity (path ++ ".quantity")
    demand ⟨.invalid, path ++ ": reservations claim real stock"⟩
      (isVirtual op.position.locationId = false)
    demand ⟨.invalid, path ++ ": only available stock is reserved"⟩
      (op.position.status = .available)
    let stock ← ledger.toStock.reservation inventoryMeasure ledger.tracking
      "a move to ~customer naming its serials, plus a release" op.kind (positionKey op.position)
      op.position op.reservationId qty op.party path
    pure { ledger with toStock := stock }

def checkMove (leg : MoveLeg) (path : String) : Checked Unit := do
  let fromLocation := leg.fromPosition.locationId
  let toLocation := leg.toPosition.locationId
  demand ⟨.invalid, path ++ ": a move needs at least one real position"⟩
    (isVirtual fromLocation = false ∨ isVirtual toLocation = false)
  demand ⟨.invalid, path ++ ": from and to are the same position"⟩
    (positionKey leg.fromPosition ≠ positionKey leg.toPosition)
  demand ⟨.invalid, path ++ ": links are roots or null"⟩
    (leg.links.transformationId.all isUuidText = true ∧ leg.links.orderId.all isUuidText = true)
  demand ⟨.invalid, path ++ ": an adjustment requires a reason"⟩
    (fromLocation = "~adjustment" ∨ toLocation = "~adjustment" →
      (leg.reason.any fun v => text v 200) = true)
  demand ⟨.invalid, path ++ ": bounded reason or null required"⟩
    ((leg.reason.all fun v => text v 200) = true)
  demand ⟨.invalid, path ++ ": production legs name the transformation"⟩
    (fromLocation = "~production" ∨ toLocation = "~production" → leg.links.transformationId ≠ none)

/-- Takes from a real position; what comes from outside is new to the stock. -/
def takeMove (stock : Stock Position String) (p : Position) (qty : ℤ) (serials : List String)
    (path : String) : Checked (Stock Position String) :=
  if isVirtual p.locationId then do
    stock.absent serials "stock" path
    pure stock
  else
    stock.debit inventoryMeasure (positionKey p) p qty serials true true
      "unreserved at the source position" path

/-- Gives to a real position, or lets go. -/
def giveMove (stock : Stock Position String) (p : Position) (qty : ℤ) (serials : List String) :
    Checked (Stock Position String) :=
  if isVirtual p.locationId then pure stock
  else stock.credit inventoryMeasure (positionKey p) p qty serials

def applyMove (ledger : InventoryLedger) (entry : MoveLeg × ℕ) : Checked InventoryLedger := do
  let leg := entry.1
  let path := indexed "moves" entry.2
  checkPosition ledger leg.fromPosition (path ++ ".from")
  checkPosition ledger leg.toPosition (path ++ ".to")
  let qty ← toBase ledger leg.quantity (path ++ ".quantity")
  checkMove leg path
  let serials ← serialsOf ledger.tracking leg.serialIds qty "this product" path
  let taken ← takeMove ledger.toStock leg.fromPosition qty serials path
  let stock ← giveMove taken leg.toPosition qty serials
  pure { ledger with toStock := stock }

/-- What is checked before the observation is looked up. -/
def admitInventoryFact (state : InventoryLedger) (fact : InventoryFact) : Checked Unit := do
  demand ⟨.wrongScope, "fact belongs to another product ledger"⟩
    (fact.productId = state.productId)
  demand ⟨.invalid, "observation source and positive sequence required"⟩
    (ident fact.observation.sourceId 200 = true ∧ 1 ≤ fact.observation.sequence ∧
      fact.observation.sequence ≤ maxSafeInteger)
  demand ⟨.invalid, "occurred_at must be a real UTC timestamp"⟩
    (isTimestamp fact.occurredAt = true)
  demand ⟨.invalid, "invalid revision"⟩
    (fact.expectedRevision ≤ maxSafeInteger ∧ state.revision ≤ maxSafeInteger)
  demand ⟨.invalid, "a fact carries 1-16 move legs and 0-16 reservation operations"⟩
    (fact.moves.length ≤ maxMoveLegs ∧ fact.reservations.length ≤ maxReservationOps ∧
      fact.moves.length + fact.reservations.length ≠ 0)

/-- A fact that is not seen before, on a ledger that nobody else writes meanwhile. -/
def changeInventory (state : InventoryLedger) (fact : InventoryFact) :
    Checked InventoryLedger := do
  demand ⟨.invalid, "ledger revision capacity exhausted"⟩ (state.revision < maxSafeInteger)
  demand ⟨.revisionConflict, "ledger changed; reload before deciding a new action"⟩
    (fact.expectedRevision = state.revision)
  let settled ← fact.reservations.zipIdx.foldlM (applyReservation .settle) state
  let moved ← fact.moves.zipIdx.foldlM applyMove settled
  let claimed ← fact.reservations.zipIdx.foldlM (applyReservation .claim) moved
  let stock ← claimed.toStock.compact inventoryMeasure
  let sources ← mark claimed.sources fact.observation (digestOf fact.json)
  pure { claimed with toStock := stock, sources := sources, revision := state.revision + 1 }

/-- Applies one fact atomically. -/
def applyInventoryFact (state : InventoryLedger) (fact : InventoryFact) :
    Result InventoryLedger :=
  answer state do
    admitInventoryFact state fact
    match ← observe state.sources fact.observation (digestOf fact.json) with
    | .duplicate => pure (true, state)
    | .fresh => do
      let next ← changeInventory state fact
      pure (false, next)

/-- A pool as the earlier profile has it. -/
structure PoolView where
  companyId : String
  poolId : String
  productId : String
  baseUnit : String
  revision : ℕ
  onHand : String
  reservations : Dict String String

/-- The available stock of a location and its reservations. -/
def projectInventoryV1 (ledger : InventoryLedger) (locationId : String) :
    Except String PoolView := do
  let positions := ledger.positions.entries.filter fun e =>
    e.2.position.locationId = locationId ∧ e.2.position.status = .available
  let keys := positions.map Prod.fst
  let held ← positions.mapM fun e => parseDecimal e.2.quantity goodsScale false
  let reservations := ledger.reservations.filter fun _ r => r.position ∈ keys
  let onHand ← formatDecimal held.sum goodsScale
  pure { companyId := ledger.organizationId, poolId := locationId, productId := ledger.productId
         baseUnit := ledger.baseUnit, revision := ledger.revision, onHand := onHand
         reservations := reservations.mapValues Claim.quantity }

end

@[simp] theorem Position.json_inj (p q : Position) : p.json = q.json ↔ p = q := by
  cases p
  cases q
  simp [Position.json]

@[simp] theorem positionKey_inj [FactHash] (p q : Position) :
    positionKey p = positionKey q ↔ p = q := by
  cases p
  cases q
  simp [positionKey]

theorem MoveLeg.json_inj (leg leg' : MoveLeg) : leg.json = leg'.json ↔ leg = leg' := by
  cases leg with
  | mk fromPosition toPosition quantity serialIds reason links =>
  cases leg' with
  | mk fromPosition' toPosition' quantity' serialIds' reason' links' =>
  cases links
  cases links'
  simp [MoveLeg.json]

theorem ReservationOp.json_inj (op op' : ReservationOp) : op.json = op'.json ↔ op = op' := by
  cases op
  cases op'
  simp [ReservationOp.json]

@[simp] theorem InventoryFact.json_inj (fact fact' : InventoryFact) :
    fact.json = fact'.json ↔ fact = fact' := by
  cases fact
  cases fact'
  simp [InventoryFact.json, mapJson_inj MoveLeg.json_inj, mapJson_inj ReservationOp.json_inj]

end DirectTrade.Flow.Inventory
