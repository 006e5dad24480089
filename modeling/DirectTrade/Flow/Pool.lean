import DirectTrade.Flow.Canonical
import DirectTrade.Flow.Decimal
import DirectTrade.Library.Totals

/-!
A stock pool and the events that change it: goods received and corrected, quantities
reserved, released and fulfilled, and the packagings that quantities may be counted in.
Amounts are decimals with three places, counted here in thousandths.
-/

namespace DirectTrade.Flow.Pool

open Library Outcome
open Foundation (textLength isDigitChar)

structure PackagingRevision where
  companyId : String
  productId : String
  packagingId : String
  version : String
  baseUnit : String
  packUnit : String
  baseUnitsPerPack : String
  deriving DecidableEq

structure InventoryState where
  companyId : String
  poolId : String
  productId : String
  baseUnit : String
  revision : ℕ
  onHand : String
  /-- What each reservation still holds, under the digest of its id. -/
  reservations : Dict String String
  packaging : Dict String PackagingRevision
  /-- The digest of the event that each observation was made by. -/
  observations : Dict String String
  deriving DecidableEq

/-- What happens to stock, packagings apart. -/
inductive StockAct where
  | receive
  | adjust
  | reserve
  | release
  | fulfill
  deriving DecidableEq

inductive InventoryKind where
  | packaging
  | stock (act : StockAct)
  deriving DecidableEq

inductive InventoryIssue where
  | invalid
  | wrongScope
  | observationConflict
  | revisionConflict
  | packagingConflict
  | unknownPackaging
  | unitMismatch
  | insufficientStock
  | insufficientReservation
  deriving DecidableEq

inductive InventoryResult where
  | ok (duplicate : Bool) (state : InventoryState)
  | failed (code : InventoryIssue) (message : String) (state : InventoryState)
  deriving DecidableEq

def InventoryResult.state : InventoryResult → InventoryState
  | .ok _ state => state
  | .failed _ _ state => state

structure Refusal where
  code : InventoryIssue
  message : String
  deriving DecidableEq

abbrev Decided := Except Refusal

/-- What is thrown on the way is reported as invalid. -/
def thrown {α : Type} : Except String α → Decided α
  | .ok a => .ok a
  | .error message => .error ⟨.invalid, message⟩

def UNITS : List String := ["lb", "kg", "oz", "ton", "case", "pallet", "unit"]

def string? : Option Json → Option String
  | some (.str s) => some s
  | _ => none

/-- A nonempty text of at most 200 UTF-16 units. -/
def isIdentity (s : String) : Bool := 0 < textLength s && textLength s ≤ 200

def identity (value : Option Json) : Option String := (string? value).filter isIdentity

def unit? (value : Option Json) : Option String := (string? value).filter fun s => s ∈ UNITS

/-- A safe integer that is not negative. -/
def count? : Option Json → Option ℕ
  | some (.num n) => if 0 ≤ n ∧ n ≤ maxSafeInteger then some n.toNat else none
  | _ => none

def parseAmount (value : Option Json) (allowNegative : Bool) : Except String ℤ := do
  let text ← require "expected bounded decimal string" (string? value)
  parseDecimal text 3 allowNegative

/-- The names of the own members of a value. -/
def ownKeys : Json → List String
  | .obj members => members.map Prod.fst
  | _ => []

def sortedNames (v : Json) : String :=
  ",".intercalate ((sortKeys ((ownKeys v).map fun k => (k, ()))).map Prod.fst)

/-- Whether a value counts as present where a condition reads it. -/
def truthy : Option Json → Bool
  | none | some .null | some (.bool false) => false
  | some (.num n) => n ≠ 0
  | some (.str s) => s ≠ ""
  | _ => true

/-- Whether the text of a value has the form of a digest; an array of one has its item's text. -/
def looksLikeDigest : Json → Bool
  | .str s => isSha256 s
  | .arr [item] => looksLikeDigest item
  | _ => false

/-- `2020-01-31T23:59:59Z`, with up to six places of a second. -/
def isTimestamp : Option Json → Bool
  | some (.str s) =>
    let chars := s.toList
    let seconds := chars.take 19
    let rest := chars.drop 19
    let fraction := (rest.drop 1).takeWhile isDigitChar
    hasShape "0000-00-00T00:00:00" seconds && isCalendarDay seconds && isTimeOfDay seconds &&
      (rest == ['Z'] || (rest == '.' :: (fraction ++ ['Z']) && 1 ≤ fraction.length &&
        fraction.length ≤ 6))
  | _ => false

def kindOf (e : Json) : Option InventoryKind :=
  match string? (e.member? "kind") with
  | some "packaging" => some .packaging
  | some "receive" => some (.stock .receive)
  | some "adjust" => some (.stock .adjust)
  | some "reserve" => some (.stock .reserve)
  | some "release" => some (.stock .release)
  | some "fulfill" => some (.stock .fulfill)
  | _ => none

/-- The digest of a text, in hexadecimal. -/
class TextHash where
  sha256 : String → String

variable [TextHash]

def hash (v : Json) : Except String String := do
  let text ← canonicalize v
  pure (TextHash.sha256 text)

/-- The key of a tuple of ids: ids are arbitrary texts, which never name members themselves. -/
def inventoryKey (parts : List String) : Except String String := hash (.arr (parts.map .str))

def PackagingRevision.json (p : PackagingRevision) : Json :=
  .obj [("company_id", .str p.companyId), ("product_id", .str p.productId),
    ("packaging_id", .str p.packagingId), ("version", .str p.version),
    ("base_unit", .str p.baseUnit), ("pack_unit", .str p.packUnit),
    ("base_units_per_pack", .str p.baseUnitsPerPack)]

def packagingDigest (p : PackagingRevision) : Except String String :=
  hash (.obj [("profile", .str "dtp.packaging/1"), ("packaging", p.json)])

omit [TextHash] in
def createInventoryState (companyId poolId productId baseUnit : String) :
    Except String InventoryState := do
  demand "invalid inventory scope or unit"
    ((∀ id ∈ [companyId, poolId, productId], isIdentity id = true) ∧ baseUnit ∈ UNITS)
  pure ⟨companyId, poolId, productId, baseUnit, 0, "0", ∅, ∅, ∅⟩

/-- The members an event may have; undeclared semantics are not silently ignored. -/
def allowed (e : Json) : List String :=
  ["company_id", "pool_id", "source_id", "observation_id", "expected_revision", "occurred_at",
    "kind"] ++
  if kindOf e = some .packaging then ["packaging"]
  else ["quantity", "unit", "packaging_pin"] ++
    if kindOf e = some (.stock .receive) ∨ kindOf e = some (.stock .adjust) then ["reason"]
    else ["reservation_id"]

/-- The ids of the observation that an event was made by, and the revision it expects. -/
def admitEvent (s : InventoryState) (e : Json) : Decided (List String × ℕ) := do
  let refusal : Refusal := ⟨.invalid, "invalid event identity or revision"⟩
  let company ← require refusal (identity (e.member? "company_id"))
  let pool ← require refusal (identity (e.member? "pool_id"))
  let source ← require refusal (identity (e.member? "source_id"))
  let observation ← require refusal (identity (e.member? "observation_id"))
  let expected ← require refusal (count? (e.member? "expected_revision"))
  demand refusal (s.revision ≤ maxSafeInteger)
  demand ⟨.wrongScope, "event belongs to another company or stock pool"⟩
    (company = s.companyId ∧ pool = s.poolId)
  demand ⟨.invalid, "occurred_at must be a real UTC timestamp"⟩
    (isTimestamp (e.member? "occurred_at") = true)
  demand ⟨.invalid, "unknown required inventory semantics"⟩ (∀ k ∈ ownKeys e, k ∈ allowed e)
  pure ([company, source, observation], expected)

/-- A version that is registered already is only registered again as it is. -/
def checkUnchanged (old : Option PackagingRevision) (pack : PackagingRevision) : Decided Unit :=
  match old with
  | none => pure ()
  | some registered => do
    let before ← thrown (packagingDigest registered)
    let after ← thrown (packagingDigest pack)
    demand ⟨.packagingConflict, "packaging version is immutable; publish a new version"⟩
      (before = after)

/-- What an event registers as a packaging of the pool's product. -/
def readPackaging (s : InventoryState) (pack : Json) : Decided PackagingRevision := do
  demand ⟨.invalid, "invalid packaging revision"⟩
    (sortedNames pack =
      "base_unit,base_units_per_pack,company_id,pack_unit,packaging_id,product_id,version")
  let packagingId ← require ⟨.invalid, "invalid packaging revision"⟩
    (identity (pack.member? "packaging_id"))
  let version ← require ⟨.invalid, "invalid packaging revision"⟩
    (identity (pack.member? "version"))
  demand ⟨.wrongScope, "packaging revision belongs to another company, product or base unit"⟩
    (pack.member? "company_id" = some (.str s.companyId) ∧
      pack.member? "product_id" = some (.str s.productId) ∧
      pack.member? "base_unit" = some (.str s.baseUnit))
  let packUnit ← require ⟨.unitMismatch, "pack unit must be supported and differ from base unit"⟩
    (unit? (pack.member? "pack_unit"))
  demand ⟨.unitMismatch, "pack unit must be supported and differ from base unit"⟩
    (packUnit ≠ s.baseUnit)
  let perPack ← thrown (require "expected bounded decimal string"
    (string? (pack.member? "base_units_per_pack")))
  let factor ← thrown (parseDecimal perPack 3 false)
  demand ⟨.invalid, "pack conversion must be positive"⟩ (0 < factor)
  pure ⟨s.companyId, s.productId, packagingId, version, s.baseUnit, packUnit, perPack⟩

def registerPackaging (next : InventoryState) (pack : PackagingRevision) :
    Decided InventoryState := do
  let packKey ← thrown (inventoryKey [pack.packagingId, pack.version])
  checkUnchanged (next.packaging.get? packKey) pack
  pure { next with packaging := next.packaging.set packKey pack }

/-- The registered packaging that a pin names by its version and its digest. -/
def pinnedPackaging (s : InventoryState) (pin : Json) : Decided PackagingRevision := do
  let refusal : Refusal :=
    ⟨.unknownPackaging, "conversion requires exact packaging version and digest"⟩
  demand refusal (sortedNames pin = "digest,packaging_id,version")
  let packagingId ← require refusal (identity (pin.member? "packaging_id"))
  let version ← require refusal (identity (pin.member? "version"))
  demand refusal ((pin.member? "digest").any looksLikeDigest = true)
  let packKey ← thrown (inventoryKey [packagingId, version])
  let pack ← require ⟨.unknownPackaging, "packaging revision is not registered"⟩
    (s.packaging.get? packKey)
  let digest ← thrown (packagingDigest pack)
  demand ⟨.packagingConflict, "packaging digest does not match pinned revision"⟩
    (pin.member? "digest" = some (.str digest))
  pure pack

/-- A quantity in the pool's base unit, converted exactly where it is counted in packs. -/
def convert (s : InventoryState) (e : Json) (unit : String) (quantity : ℤ) : Decided ℤ :=
  if unit = s.baseUnit then do
    demand ⟨.unitMismatch, "base-unit event must not carry an unused packaging conversion"⟩
      (truthy (e.member? "packaging_pin") = false)
    pure quantity
  else do
    let pack ← pinnedPackaging s ((e.member? "packaging_pin").getD .null)
    demand ⟨.unitMismatch, "packaging does not define this conversion"⟩
      (pack.packUnit = unit ∧ pack.baseUnit = s.baseUnit)
    let perPack ← thrown (parseDecimal pack.baseUnitsPerPack 3 false)
    let product := quantity * perPack
    demand ⟨.invalid, "conversion exceeds base quantity precision; rounding stock is forbidden"⟩
      (product.tmod 1000 = 0)
    pure (product.tdiv 1000)

def baseQuantity (s : InventoryState) (e : Json) (act : StockAct) : Decided ℤ := do
  demand ⟨.invalid, "reason must be bounded text"⟩
    ((e.member? "reason").isSome = true → (identity (e.member? "reason")).isSome = true)
  demand ⟨.invalid, "correction requires an explicit reason"⟩
    (act = .adjust → (identity (e.member? "reason")).isSome = true)
  let quantity ← thrown (parseAmount (e.member? "quantity") (act = .adjust))
  demand ⟨.invalid, "zero quantity has no inventory effect"⟩ (quantity ≠ 0)
  let unit ← require ⟨.unitMismatch, "unsupported unit; no implicit conversion"⟩
    (unit? (e.member? "unit"))
  convert s e unit quantity

def reservedTotal (s : InventoryState) : Except String ℤ :=
  s.reservations.values.foldlM (fun sum value => do
    let amount ← parseDecimal value 3 false
    pure (sum + amount)) 0

def currentReservation (s : InventoryState) (key : String) : Except String ℤ :=
  match s.reservations.get? key with
  | some value => parseDecimal value 3 false
  | none => pure 0

/-- What is left of a reservation; nothing left is no reservation. -/
def keepRemainder (s : InventoryState) (key : String) (remainder : ℤ) :
    Except String (Dict String String) :=
  if remainder = 0 then pure (s.reservations.erase key)
  else do
    let text ← formatDecimal remainder 3
    pure (s.reservations.set key text)

/-- The reservations and the stock that an act on a reservation leaves. -/
def changeReservation (s : InventoryState) (e : Json) (act : StockAct)
    (quantity onHand reserved : ℤ) : Decided (Dict String String × ℤ) := do
  let id ← require ⟨.invalid, "reservation requires an explicit identity"⟩
    (identity (e.member? "reservation_id"))
  let key ← thrown (inventoryKey [id])
  let current ← thrown (currentReservation s key)
  if act = .reserve then do
    demand ⟨.insufficientStock, "reservation exceeds currently available stock"⟩
      (quantity ≤ onHand - reserved)
    let text ← thrown (formatDecimal (current + quantity) 3)
    pure (s.reservations.set key text, onHand)
  else do
    demand ⟨.insufficientReservation, "release or fulfillment exceeds this reservation"⟩
      (quantity ≤ current)
    let reservations ← thrown (keepRemainder s key (current - quantity))
    pure (reservations, if act = .fulfill then onHand - quantity else onHand)

/-- The reservations and the stock that an act leaves. -/
def changeStock (s : InventoryState) (e : Json) (act : StockAct) (quantity onHand reserved : ℤ) :
    Decided (Dict String String × ℤ) :=
  match act with
  | .receive | .adjust => do
    demand ⟨.insufficientStock,
      "correction would consume reserved stock or make stock negative"⟩
      (reserved ≤ onHand + quantity)
    pure (s.reservations, onHand + quantity)
  | .reserve | .release | .fulfill => changeReservation s e act quantity onHand reserved

def reservationInvariant : Refusal :=
  ⟨.invalid, "persisted state violates reservation invariant"⟩

def moveStock (s next : InventoryState) (e : Json) (act : StockAct) : Decided InventoryState := do
  let quantity ← baseQuantity s e act
  -- a converted quantity is bounded before it is added to anything
  let _ ← thrown (formatDecimal quantity 3)
  let onHand ← thrown (parseDecimal s.onHand 3 false)
  let reserved ← thrown (reservedTotal s)
  demand reservationInvariant (reserved ≤ onHand)
  let (reservations, left) ← changeStock s e act quantity onHand reserved
  let text ← thrown (formatDecimal left 3)
  pure { next with reservations, onHand := text }

/-- The next revision, in which an observation is known. -/
def InventoryState.next (s : InventoryState) (key eventHash : String) : InventoryState :=
  { s with revision := s.revision + 1, observations := s.observations.set key eventHash }

/-- The state after an event whose observation is new. -/
def recordEvent (s : InventoryState) (e : Json) (expected : ℕ) (key eventHash : String) :
    Decided InventoryState := do
  demand ⟨.invalid, "inventory revision capacity exhausted"⟩ (s.revision < maxSafeInteger)
  demand ⟨.revisionConflict, "stock pool changed; reload before deciding a new action"⟩
    (expected = s.revision)
  let kind ← require ⟨.invalid, "unsupported inventory event kind"⟩ (kindOf e)
  match kind with
  | .packaging => do
    let pack ← readPackaging s ((e.member? "packaging").getD .null)
    registerPackaging (s.next key eventHash) pack
  | .stock act => moveStock s (s.next key eventHash) e act

/-- Whether an event repeats one that was applied, and the state after it. -/
def decideEvent (s : InventoryState) (e : Json) : Decided (Bool × InventoryState) := do
  let (ids, expected) ← admitEvent s e
  let eventHash ← thrown (hash e)
  let key ← thrown (inventoryKey ids)
  match s.observations.get? key with
  | some known => do
    demand ⟨.observationConflict, "observation identity already names a different event"⟩
      (known = eventHash)
    pure (true, s)
  | none => do
    let next ← recordEvent s e expected key eventHash
    pure (false, next)

def applyInventoryEvent (s : InventoryState) (e : Json) : InventoryResult :=
  match decideEvent s e with
  | .ok (duplicate, next) => .ok duplicate next
  | .error refusal => .failed refusal.code refusal.message s

end DirectTrade.Flow.Pool
