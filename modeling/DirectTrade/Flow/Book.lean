import DirectTrade.Flow.Stock

/-!
A company's book of conserved ledgers: one for each product and one for each account of a
currency. Its facts, how ledgers are opened, and the checks of assets, positions and
quantities.
-/

namespace DirectTrade.Flow

open Library Outcome
open Foundation (optionJson)

/-- Exactly one of product and currency. -/
structure Asset where
  product : Option String
  currency : Option String
  deriving DecidableEq

structure Location where
  ref : Option ObjectRef
  virtual : Option String
  deriving DecidableEq

structure FlowPosition where
  lotId : Option String
  location : Location
  status : PositionStatus
  owner : Option ObjectRef
  deriving DecidableEq

structure FlowLeg where
  asset : Asset
  fromPosition : FlowPosition
  toPosition : FlowPosition
  quantity : Quantity
  serialIds : Option (List String)
  reason : Option String
  deriving DecidableEq

structure FlowReservation where
  kind : OpKind
  reservationId : String
  asset : Asset
  position : FlowPosition
  quantity : Quantity
  party : Option ObjectRef
  deriving DecidableEq

structure YieldLoss where
  product : String
  quantity : Quantity
  reason : String
  deriving DecidableEq

structure Transform where
  recipe : Option ObjectRef
  yieldLoss : List YieldLoss
  equipment : List ObjectRef
  deriving DecidableEq

inductive Right where
  | title
  | custody
  deriving DecidableEq

inductive SettlementKind where
  | payment
  | offset
  | reversal
  deriving DecidableEq

structure Settlement where
  claim : ObjectRef
  kind : SettlementKind
  amount : String
  currency : String
  reverses : Option String
  deriving DecidableEq

structure ListedLedger where
  key : Digest
  expectedRevision : ℕ
  expectedDigest : Option Digest
  deriving DecidableEq

structure FlowFact where
  act : Act
  ledgers : List ListedLedger
  legs : List FlowLeg
  reservations : List FlowReservation
  transform : Option Transform
  rights : Option (List Right)
  settles : List Settlement
  deriving DecidableEq

inductive Balance where
  | nonnegative
  | signed
  deriving DecidableEq

structure FlowLedger extends Stock FlowPosition ObjectRef where
  asset : Asset
  account : Option String
  unit : String
  tracking : Tracking
  balance : Balance
  revision : ℕ
  head : Option Digest
  deriving DecidableEq

structure FlowBook where
  organizationId : String
  bookId : String
  ledgers : Dict Digest FlowLedger
  sources : Dict String Source

section

variable [FactHash]

/-- The ledger key is the digest of its asset tuple. -/
def goodsLedgerKey (product : String) : Digest := digestOf (.arr [.str "product", .str product])

def moneyLedgerKey (currency account : String) : Digest :=
  digestOf (.arr [.str "money", .str currency, .str account])

def Location.json (l : Location) : Json :=
  .obj [("ref", optionJson ObjectRef.json l.ref), ("virtual", optionJson Json.str l.virtual)]

def flowPositionKey (p : FlowPosition) : Digest :=
  digestOf (.arr [optionJson Json.str p.lotId, p.location.json, .str p.status.text,
    optionJson ObjectRef.json p.owner])

def openFlowBook (organizationId bookId : String) : Except String FlowBook := do
  demand "invalid book scope" (isUuidText organizationId = true ∧ isUuidText bookId = true)
  pure { organizationId, bookId, ledgers := ∅, sources := ∅ }

/-- Opens a product's ledger, anchored by the product's immutable base unit and tracking. -/
def openGoodsLedger (book : FlowBook) (productId : String) (product : ProductAnchor) :
    Except String FlowBook := do
  demand "invalid product anchor"
    (isUuidText productId = true ∧ product.system = .ucum ∧ isUcum product.code = true)
  let key := goodsLedgerKey productId
  demand "ledger exists" ((book.ledgers.get? key).isNone = true)
  let ledger : FlowLedger :=
    { Stock.empty with
      asset := ⟨some productId, none⟩, account := none, unit := product.code
      tracking := product.tracking, balance := .nonnegative, revision := 0, head := none }
  pure { book with ledgers := book.ledgers.set key ledger }

/-- Opens a currency's ledger for one account. A signed account may go negative. -/
def openMoneyLedger (book : FlowBook) (currency account : String) (balance : Balance) :
    Except String FlowBook := do
  demand "invalid money anchor" (isCurrency currency = true ∧ isUuidText account = true)
  let key := moneyLedgerKey currency account
  demand "ledger exists" ((book.ledgers.get? key).isNone = true)
  let ledger : FlowLedger :=
    { Stock.empty with
      asset := ⟨none, some currency⟩, account := some account, unit := currency
      tracking := .none, balance := balance, revision := 0, head := none }
  pure { book with ledgers := book.ledgers.set key ledger }

def goodsVirtuals : List String := ["~supplier", "~customer", "~adjustment", "~production"]
def moneyVirtuals : List String := ["~counterparty", "~adjustment"]
def moneyScale : ℕ := 6

def FlowPosition.isVirtual (p : FlowPosition) : Bool := p.location.virtual.isSome

def FlowPosition.isAt (p : FlowPosition) (virtual : String) : Bool :=
  p.location.virtual = some virtual

def Asset.isMoney (asset : Asset) : Bool := asset.currency.isSome

def checkAsset (asset : Asset) (path : String) : Checked Unit := do
  demand ⟨.invalid, path ++ ": exactly one of product and currency"⟩
    (asset.product.isNone ≠ asset.currency.isNone)
  demand ⟨.invalid, path ++ ": product root required"⟩ (asset.product.all isUuidText = true)
  demand ⟨.invalid, path ++ ": currency code required"⟩ (asset.currency.all isCurrency = true)

/-- Where the quantities of an asset are kept; the account is the location's root. -/
def ledgerKey (asset : Asset) (p : FlowPosition) : Digest :=
  match asset.product with
  | some product => goodsLedgerKey product
  | none => moneyLedgerKey (asset.currency.getD "") ((p.location.ref.map ObjectRef.root).getD "")

/-- The ledger a real position belongs to: the product's, or the currency's for the account
the money is in. -/
def ledgerOf (book : FlowBook) (asset : Asset) (p : FlowPosition) (path : String) :
    Checked (Digest × FlowLedger) := do
  let key := ledgerKey asset p
  let what := if asset.product.isSome then "product" else "currency and account"
  let ledger ← require
    ⟨.ledgerUnavailable, path ++ ": no ledger is open for this " ++ what ++ " in the book"⟩
    (book.ledgers.get? key)
  pure (key, ledger)

/-- No lot, no owner and status available. -/
def FlowPosition.Plain (p : FlowPosition) : Prop :=
  p.lotId = none ∧ p.owner = none ∧ p.status = .available

instance (p : FlowPosition) : Decidable p.Plain := inferInstanceAs (Decidable (_ ∧ _ ∧ _))

def checkPosition (book : FlowBook) (asset : Asset) (p : FlowPosition) (path : String) :
    Checked Unit := do
  demand ⟨.invalid, path ++ ".location: exactly one of ref and virtual"⟩
    (p.location.ref.isNone ≠ p.location.virtual.isNone)
  demand ⟨.invalid, path ++ ".owner: object reference or null required"⟩
    (∀ owner ∈ p.owner, validateObjectRef owner (path ++ ".owner") = [])
  match p.location.virtual with
  | some virtual => do
    demand ⟨.invalid, path ++ ": unknown virtual location for this asset"⟩
      (virtual ∈ if asset.isMoney then moneyVirtuals else goodsVirtuals)
    demand ⟨.invalid, path ++
      ": a virtual position has no lot, owner or status other than available"⟩ p.Plain
  | none => do
    demand ⟨.invalid, path ++ ".location.ref: object reference required"⟩
      (∀ ref ∈ p.location.ref, validateObjectRef ref (path ++ ".location.ref") = [])
    let (_, ledger) ← ledgerOf book asset p path
    if asset.isMoney then do
      demand ⟨.invalid, path ++
        ": money is held in the company's own account, referenced by root"⟩
        (∀ ref ∈ p.location.ref, ref.mintedBy = none ∧ ref.recordId = none)
      demand ⟨.invalid, path ++
        ": money positions carry no lot, no owner and status available"⟩ p.Plain
    else do
      demand ⟨.invalid, path ++ ": bounded lot or null required"⟩
        ((p.lotId.all fun lot => ident lot 120) = true)
      demand ⟨.trackingMismatch, path ++ ": this product is not lot-tracked"⟩
        (ledger.tracking = .none → p.lotId = none)
      demand ⟨.trackingMismatch, path ++ ": this product is lot-tracked; a lot is required"⟩
        (ledger.tracking ≠ .none → p.lotId ≠ none)

/-- Goods: the product base unit or a published packaging revision, three places, never
rounded. Money: the currency, six places. -/
def toBase (ledger : Option FlowLedger) (asset : Asset) (q : Quantity) (path : String) :
    Checked ℤ := do
  let places := if asset.isMoney then "six" else "three"
  let amount ← orRefuse
    (parseDecimal q.amount (if asset.isMoney then moneyScale else goodsScale) false)
    ⟨.invalid, path ++ ": " ++ places ++ "-place decimal amount required"⟩
  demand ⟨.invalid, path ++ ": positive quantity required"⟩ (0 < amount)
  match asset.currency with
  | some currency => do
    demand ⟨.unitMismatch, path ++ ": money is counted in its currency"⟩
      (q.unit.system = .currency ∧ q.unit.packagingId = none ∧ q.unit.version = none ∧
        q.unit.baseUnitsPerPack = none)
    demand ⟨.unitMismatch, path ++ ": the amount is in " ++ currency ++
      "; no currency is converted"⟩ (q.unit.code = some currency)
    pure amount
  | none =>
    if q.unit.system = .ucum then do
      demand ⟨.invalid, path ++ ": a ucum unit carries no packaging"⟩
        (q.unit.packagingId = none ∧ q.unit.version = none ∧ q.unit.baseUnitsPerPack = none)
      demand ⟨.unitMismatch, path ++ ": quantities are in the product base unit " ++
        (ledger.elim "" FlowLedger.unit) ++ "; no unit is converted"⟩
        (∀ l ∈ ledger, q.unit.code = some l.unit)
      pure amount
    else
      packsToBase amount q.unit
        (if q.unit.system = .currency then .unitMismatch else .invalid) path

def FlowLedger.scale (l : FlowLedger) : ℕ :=
  if l.asset.currency.isSome then moneyScale else goodsScale

def FlowLedger.measure (l : FlowLedger) : Measure := ⟨l.scale, true⟩

def Right.text : Right → String
  | .title => "title"
  | .custody => "custody"

def SettlementKind.text : SettlementKind → String
  | .payment => "payment"
  | .offset => "offset"
  | .reversal => "reversal"

def Asset.json (a : Asset) : Json :=
  .obj [("product", optionJson Json.str a.product), ("currency", optionJson Json.str a.currency)]

def FlowPosition.json (p : FlowPosition) : Json :=
  .obj [("lot_id", optionJson Json.str p.lotId), ("location", p.location.json),
    ("status", .str p.status.text), ("owner", optionJson ObjectRef.json p.owner)]

def FlowLeg.json (leg : FlowLeg) : Json :=
  .obj [("asset", leg.asset.json), ("from", leg.fromPosition.json), ("to", leg.toPosition.json),
    ("quantity", leg.quantity.json), ("serial_ids", optionJson serialsJson leg.serialIds),
    ("reason", optionJson Json.str leg.reason)]

def FlowReservation.json (op : FlowReservation) : Json :=
  .obj [("kind", .str op.kind.text), ("reservation_id", .str op.reservationId),
    ("asset", op.asset.json), ("position", op.position.json), ("quantity", op.quantity.json),
    ("party", optionJson ObjectRef.json op.party)]

def YieldLoss.json (y : YieldLoss) : Json :=
  .obj [("product", .str y.product), ("quantity", y.quantity.json), ("reason", .str y.reason)]

def Transform.json (t : Transform) : Json :=
  .obj [("recipe", optionJson ObjectRef.json t.recipe),
    ("yield_loss", .arr (t.yieldLoss.map YieldLoss.json)),
    ("equipment", .arr (t.equipment.map ObjectRef.json))]

def rightsJson (rights : List Right) : Json := .arr (rights.map fun r => .str r.text)

def Settlement.json (s : Settlement) : Json :=
  .obj [("claim", s.claim.json), ("kind", .str s.kind.text), ("amount", .str s.amount),
    ("currency", .str s.currency), ("reverses", optionJson Json.str s.reverses)]

def ListedLedger.json (l : ListedLedger) : Json :=
  .obj [("key", l.key.json), ("expected_revision", .num l.expectedRevision),
    ("expected_digest", optionJson Digest.json l.expectedDigest)]

def FlowFact.json (fact : FlowFact) : Json :=
  .obj [("act", fact.act.json), ("ledgers", .arr (fact.ledgers.map ListedLedger.json)),
    ("legs", .arr (fact.legs.map FlowLeg.json)),
    ("reservations", .arr (fact.reservations.map FlowReservation.json)),
    ("transform", optionJson Transform.json fact.transform),
    ("rights", optionJson rightsJson fact.rights),
    ("settles", .arr (fact.settles.map Settlement.json))]

end

@[simp] theorem Location.json_inj (l m : Location) : l.json = m.json ↔ l = m := by
  cases l
  cases m
  simp [Location.json]

@[simp] theorem flowPositionKey_inj [FactHash] (p q : FlowPosition) :
    flowPositionKey p = flowPositionKey q ↔ p = q := by
  cases p
  cases q
  simp [flowPositionKey]

@[simp] theorem goodsLedgerKey_inj [FactHash] (p q : String) :
    goodsLedgerKey p = goodsLedgerKey q ↔ p = q := by
  simp [goodsLedgerKey]

@[simp] theorem moneyLedgerKey_inj [FactHash] (c d a b : String) :
    moneyLedgerKey c a = moneyLedgerKey d b ↔ c = d ∧ a = b := by
  simp [moneyLedgerKey]

theorem goodsLedgerKey_ne [FactHash] (p c a : String) : goodsLedgerKey p ≠ moneyLedgerKey c a := by
  simp [goodsLedgerKey, moneyLedgerKey]

@[simp] theorem Asset.json_inj (a b : Asset) : a.json = b.json ↔ a = b := by
  cases a
  cases b
  simp [Asset.json]

@[simp] theorem FlowPosition.json_inj (p q : FlowPosition) : p.json = q.json ↔ p = q := by
  cases p
  cases q
  simp [FlowPosition.json]

theorem FlowLeg.json_inj (leg leg' : FlowLeg) : leg.json = leg'.json ↔ leg = leg' := by
  cases leg
  cases leg'
  simp [FlowLeg.json]

theorem FlowReservation.json_inj (op op' : FlowReservation) : op.json = op'.json ↔ op = op' := by
  cases op
  cases op'
  simp [FlowReservation.json]

theorem YieldLoss.json_inj (y z : YieldLoss) : y.json = z.json ↔ y = z := by
  cases y
  cases z
  simp [YieldLoss.json]

theorem Transform.json_inj (t u : Transform) : t.json = u.json ↔ t = u := by
  cases t
  cases u
  simp [Transform.json, mapJson_inj YieldLoss.json_inj]

theorem Right.text_inj (r s : Right) : Json.str r.text = Json.str s.text ↔ r = s := by
  cases r <;> cases s <;> decide

theorem rightsJson_inj (l r : List Right) : rightsJson l = rightsJson r ↔ l = r := by
  simp [rightsJson, mapJson_inj Right.text_inj]

theorem Settlement.json_inj (s t : Settlement) : s.json = t.json ↔ s = t := by
  have hkind : ∀ k l : SettlementKind, k.text = l.text ↔ k = l := by
    intro k l
    cases k <;> cases l <;> decide
  cases s
  cases t
  simp [Settlement.json, hkind]

theorem ListedLedger.json_inj (l m : ListedLedger) : l.json = m.json ↔ l = m := by
  cases l
  cases m
  simp [ListedLedger.json]

@[simp] theorem FlowFact.json_inj (fact fact' : FlowFact) :
    fact.json = fact'.json ↔ fact = fact' := by
  have htransform : ∀ {a b : Option Transform},
      optionJson Transform.json a = optionJson Transform.json b ↔ a = b :=
    optionJson_inj Transform.json_inj (by simp [Transform.json])
  have hrights : ∀ {a b : Option (List Right)},
      optionJson rightsJson a = optionJson rightsJson b ↔ a = b :=
    optionJson_inj rightsJson_inj (by simp [rightsJson])
  cases fact
  cases fact'
  simp [FlowFact.json, mapJson_inj ListedLedger.json_inj, mapJson_inj FlowLeg.json_inj,
    mapJson_inj FlowReservation.json_inj, mapJson_inj Settlement.json_inj, htransform, hrights]

end DirectTrade.Flow
