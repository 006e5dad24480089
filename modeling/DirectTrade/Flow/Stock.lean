import DirectTrade.Flow.Act
import DirectTrade.Flow.Decimal
import DirectTrade.Library.Totals
import DirectTrade.Library.Window

/-!
Stock as positions with the claims on them, and what the profiles do with it: a position
is opened when it is first written, its quantity is read and written as a text, a claim
is raised, lowered or withdrawn, and empty positions are dropped.
-/

namespace DirectTrade.Flow

open Library Outcome
open Foundation (optionJson)

inductive Issue where
  | invalid
  | wrongScope
  | observationConflict
  | staleObservation
  | revisionConflict
  | unitMismatch
  | trackingMismatch
  | insufficientStock
  | insufficientReservation
  | serialConflict
  | rightsMismatch
  | ledgerUnavailable
  deriving DecidableEq

structure Refusal where
  code : Issue
  message : String
  deriving DecidableEq

abbrev Checked := Except Refusal

/-- An error that is no refusal makes a fact invalid. -/
def caught {α : Type} : Except String α → Checked α
  | .ok a => .ok a
  | .error message => .error ⟨.invalid, message⟩

@[simp] theorem caught_eq_ok {α : Type} {x : Except String α} {a : α} :
    caught x = .ok a ↔ x = .ok a := by
  cases x <;> simp [caught]

/-- A value, or the refusal that stands for whatever error prevents it. -/
def orRefuse {α : Type} (x : Except String α) (refusal : Refusal) : Checked α :=
  match x with
  | .ok a => .ok a
  | .error _ => .error refusal

@[simp] theorem orRefuse_eq_ok {α : Type} {x : Except String α} {refusal : Refusal} {a : α} :
    orRefuse x refusal = .ok a ↔ x = .ok a := by
  cases x <;> simp [orRefuse]

/-- The answer to a fact, with the state that holds afterwards. -/
inductive Result (σ : Type) where
  | ok (duplicate : Bool) (state : σ)
  | failed (code : Issue) (message : String) (state : σ)

def Result.state {σ : Type} : Result σ → σ
  | .ok _ state => state
  | .failed _ _ state => state

/-- The answer of a reducer that is caught: a refusal leaves the state as it was. -/
def answer {σ : Type} (state : σ) : Checked (Bool × σ) → Result σ
  | .ok (duplicate, next) => .ok duplicate next
  | .error refusal => .failed refusal.code refusal.message state

theorem answer_eq_ok {σ : Type} {state next : σ} {duplicate : Bool} {x : Checked (Bool × σ)} :
    answer state x = .ok duplicate next ↔ x = .ok (duplicate, next) := by
  cases x with
  | error refusal => simp [answer]
  | ok pair => simp [answer, Prod.ext_iff]

def observationWindow : ℕ := 64

abbrev Source := Marks Digest

/-- How a fact under a sequence number of a source is met. -/
inductive Sighting where
  | duplicate
  | fresh
  deriving DecidableEq

/-- A per-source high-water mark with a bounded window for late arrivals. -/
def observe (sources : Dict String Source) (o : Observation) (digest : Digest) :
    Checked Sighting :=
  match (marksOf sources o.sourceId).judge observationWindow o.sequence digest with
  | .fresh => .ok .fresh
  | .duplicate => .ok .duplicate
  | .conflict =>
    .error ⟨.observationConflict, "observation sequence already names a different fact"⟩
  | .stale => .error ⟨.staleObservation, "observation is older than the " ++
      toString observationWindow ++
      "-sequence window and cannot be told from a duplicate"⟩

/-- Marks a sequence number; a source under an inherited member has no marks to write to. -/
def mark (sources : Dict String Source) (o : Observation) (digest : Digest) :
    Checked (Dict String Source) := do
  demand ⟨.invalid, "Cannot set properties of undefined (setting '" ++ toString o.sequence ++ "')"⟩
    (sources.get? o.sourceId = none → o.sourceId ∉ inheritedMembers)
  pure (sources.set o.sourceId
    ((marksOf sources o.sourceId).record observationWindow o.sequence digest))

inductive PositionStatus where
  | available
  | quarantine
  | damaged
  | expired
  | inTransit
  deriving DecidableEq

inductive Tracking where
  | none
  | lot
  | serial
  deriving DecidableEq

inductive UnitSystem where
  | ucum
  | packaging
  | currency
  deriving DecidableEq

structure WireUnit where
  system : UnitSystem
  code : Option String
  packagingId : Option String
  version : Option String
  baseUnitsPerPack : Option String
  deriving DecidableEq

structure Quantity where
  amount : String
  unit : WireUnit
  deriving DecidableEq

/-- What a product fixes for its life. -/
structure ProductAnchor where
  system : UnitSystem
  code : String
  tracking : Tracking

def goodsScale : ℕ := 3

/-- Packs in base units; stock is never rounded. -/
def packsToBase (amount : ℤ) (u : WireUnit) (mismatch : Issue) (path : String) : Checked ℤ := do
  demand ⟨mismatch, path ++ ": packaging unit needs packaging_id and version"⟩
    (u.system = .packaging ∧ u.code = none ∧ (u.packagingId.any fun v => text v 80) = true ∧
      (u.version.any fun v => text v 40) = true)
  let conversion ← require ⟨.invalid, path ++ ": three-place pack conversion required"⟩
    u.baseUnitsPerPack
  let per ← orRefuse (parseDecimal conversion goodsScale false)
    ⟨.invalid, path ++ ": three-place pack conversion required"⟩
  demand ⟨.invalid, path ++ ": positive pack conversion required"⟩ (0 < per)
  demand ⟨.invalid, path ++ ": conversion exceeds base precision; stock is never rounded"⟩
    (amount * per % 1000 = 0)
  pure (amount * per / 1000)

structure PositionState (P : Type) where
  position : P
  quantity : String
  serials : List String
  deriving DecidableEq

structure Claim (R : Type) where
  position : Digest
  quantity : String
  party : Option R
  deriving DecidableEq

structure Stock (P R : Type) where
  positions : Dict Digest (PositionState P)
  reservations : Dict String (Claim R)
  deriving DecidableEq

/-- How the quantities of positions are written. -/
structure Measure where
  scale : ℕ
  signed : Bool

def Measure.read (m : Measure) (quantity : String) : Checked ℤ :=
  caught (parseDecimal quantity m.scale m.signed)

def Measure.write (m : Measure) (value : ℤ) : Checked String := caught (formatDecimal value m.scale)

/-- How the quantities of claims are written. -/
def claimMeasure : Measure := ⟨goodsScale, false⟩

namespace Stock

variable {P R : Type}

def empty : Stock P R := ⟨∅, ∅⟩

def reservedAt (s : Stock P R) (key : Digest) : Checked ℤ := do
  let held ← (s.reservations.values.filter fun r => r.position = key).mapM fun r =>
    claimMeasure.read r.quantity
  pure held.sum

/-- The position under a key, opened when there is none. -/
def positionAt (s : Stock P R) (key : Digest) (pos : P) : Stock P R × PositionState P :=
  match s.positions.get? key with
  | some p => (s, p)
  | none =>
    let p : PositionState P := ⟨pos, "0", []⟩
    ({ s with positions := s.positions.set key p }, p)

def write (s : Stock P R) (key : Digest) (p : PositionState P) : Stock P R :=
  { s with positions := s.positions.set key p }

def claim (s : Stock P R) (id : String) (r : Claim R) : Stock P R :=
  { s with reservations := s.reservations.set id r }

/-- Drops the positions that hold nothing. -/
def compact (m : Measure) (s : Stock P R) : Checked (Stock P R) := do
  each (fun p => do
    let _ ← m.read p.quantity
    pure ()) s.positions.values
  pure { s with positions := s.positions.filter fun _ p =>
    ¬ (value 0 (m.read p.quantity) = 0 ∧ p.serials = []) }

/-- An inherited member stands for a claim on no position. -/
def Misnamed (s : Stock P R) (id : String) : Prop :=
  s.reservations.get? id = none ∧ id ∈ inheritedMembers

instance (s : Stock P R) (id : String) : Decidable (s.Misnamed id) := by
  unfold Misnamed
  cases s.reservations.get? id with
  | none => exact decidable_of_iff (id ∈ inheritedMembers) (by simp)
  | some r => exact isFalse (by simp)

/-- What is held under a reservation so far. -/
def held : Option (Claim R) → Checked ℤ
  | none => .ok 0
  | some r => claimMeasure.read r.quantity

def reserve (m : Measure) (s : Stock P R) (key : Digest) (pos : P) (id : String) (qty : ℤ)
    (party : Option R) (path : String) : Checked (Stock P R) := do
  let current := s.reservations.get? id
  demand ⟨.invalid, path ++ ": a reservation claims one position"⟩
    (¬ s.Misnamed id ∧ ∀ r ∈ current, r.position = key)
  let (s, p) := s.positionAt key pos
  let have_ ← m.read p.quantity
  let reserved ← s.reservedAt key
  demand ⟨.insufficientStock, path ++ ": reservation exceeds unreserved stock at the position"⟩
    (qty ≤ have_ - reserved)
  let held ← held current
  let quantity ← claimMeasure.write (held + qty)
  pure (s.claim id ⟨key, quantity, (current.bind Claim.party).or party⟩)

def release (s : Stock P R) (key : Digest) (id : String) (qty : ℤ) (path : String) :
    Checked (Stock P R) := do
  let current ← require
    ⟨.insufficientReservation, path ++ ": no such reservation at that position"⟩
    (s.reservations.get? id)
  demand ⟨.insufficientReservation, path ++ ": no such reservation at that position"⟩
    (current.position = key)
  let held ← claimMeasure.read current.quantity
  demand
    ⟨.insufficientReservation, path ++ ": release or fulfilment exceeds the reservation"⟩
    (qty ≤ held)
  if held = qty then
    pure { s with reservations := s.reservations.erase id }
  else do
    let quantity ← claimMeasure.write (held - qty)
    pure (s.claim id { current with quantity := quantity })

/-- Takes what was released for a fulfilment. -/
def consume (m : Measure) (s : Stock P R) (key : Digest) (pos : P) (qty : ℤ) (path : String) :
    Checked (Stock P R) := do
  let (s, p) := s.positionAt key pos
  let have_ ← m.read p.quantity
  demand ⟨.insufficientStock, path ++ ": fulfilment exceeds the position"⟩ (qty ≤ have_)
  let quantity ← m.write (have_ - qty)
  pure (s.write key { p with quantity := quantity })

end Stock

inductive OpKind where
  | reserve
  | release
  | fulfill
  deriving DecidableEq

/-- Releases and fulfilments settle existing claims before any leg moves stock; reserves
claim stock after the legs. -/
inductive Phase where
  | settle
  | claim
  deriving DecidableEq

def OpKind.phase : OpKind → Phase
  | .reserve => .claim
  | .release | .fulfill => .settle

namespace Stock

variable {P R : Type}

/-- `serialized` says how serialized stock is fulfilled, which is not by an operation. -/
def reservation (m : Measure) (tracking : Tracking) (serialized : String) (s : Stock P R)
    (kind : OpKind) (key : Digest) (pos : P) (id : String) (qty : ℤ) (party : Option R)
    (path : String) : Checked (Stock P R) :=
  match kind with
  | .reserve => s.reserve m key pos id qty party path
  | .release => s.release key id qty path
  | .fulfill => do
    let s ← s.release key id qty path
    demand ⟨.trackingMismatch, path ++ ": serialized stock is fulfilled by " ++ serialized⟩
      (tracking ≠ .serial)
    s.consume m key pos qty path

end Stock

def maxSerialsPerLeg : ℕ := 256

/-- The serials a leg moves: exactly the units of a serialized product. -/
def serialsOf (tracking : Tracking) (serialIds : Option (List String)) (qty : ℤ)
    (what path : String) : Checked (List String) :=
  if tracking = .serial then do
    let ids ← require ⟨.trackingMismatch, path ++
      ": this product is serialized; the leg must name its serials"⟩ serialIds
    demand ⟨.serialConflict, path ++ ": serialized stock moves by distinct serial"⟩
      (ids ≠ [] ∧ ids.length ≤ maxSerialsPerLeg ∧ (ids.all fun s => ident s 120) = true ∧ ids.Nodup)
    demand ⟨.serialConflict, path ++ ": quantity must equal the number of serials"⟩
      ((ids.length : ℤ) * 1000 = qty)
    pure ids
  else do
    demand ⟨.trackingMismatch, path ++ ": " ++ what ++ " is not serialized"⟩ (serialIds = none)
    pure []

def removeSerials (path : String) (held serials : List String) : Checked (List String) :=
  serials.foldlM (fun held s => do
    demand ⟨.serialConflict, path ++ ": serial " ++ s ++ " is not at the source position"⟩
      (s ∈ held)
    pure (held.erase s)) held

namespace Stock

variable {P R : Type}

/-- What claims bind at a position; money is never claimed. -/
def boundAt (s : Stock P R) (claimed : Bool) (key : Digest) : Checked ℤ :=
  if claimed then s.reservedAt key else .ok 0

/-- Refuses to take more than what is left, where a balance may not go below zero. -/
def demandLeft (m : Measure) (bounded : Bool) (left qty : ℤ) (free path : String) : Checked Unit :=
  if bounded = true ∧ left < qty then do
    let shown ← m.write left
    throw ⟨.insufficientStock, path ++ ": only " ++ shown ++ " " ++ free⟩
  else .ok ()

def debit (m : Measure) (s : Stock P R) (key : Digest) (pos : P) (qty : ℤ)
    (serials : List String) (bounded claimed : Bool) (free path : String) :
    Checked (Stock P R) := do
  let (s, p) := s.positionAt key pos
  let have_ ← m.read p.quantity
  let reserved ← s.boundAt claimed key
  demandLeft m bounded (have_ - reserved) qty free path
  let quantity ← m.write (have_ - qty)
  let serials ← removeSerials path p.serials serials
  pure (s.write key { p with quantity := quantity, serials := serials })

def credit (m : Measure) (s : Stock P R) (key : Digest) (pos : P) (qty : ℤ)
    (serials : List String) : Checked (Stock P R) := do
  let (s, p) := s.positionAt key pos
  let have_ ← m.read p.quantity
  let quantity ← m.write (have_ + qty)
  pure (s.write key { p with quantity := quantity, serials := p.serials ++ serials })

/-- Serials that enter the stock are in no position of it. -/
def absent (s : Stock P R) (serials : List String) (place path : String) : Checked Unit :=
  each (fun x => demand
    ⟨.serialConflict, path ++ ": serial " ++ x ++ " already exists in " ++ place⟩
    (∀ p ∈ s.positions.values, x ∉ p.serials)) serials

end Stock

def PositionStatus.text : PositionStatus → String
  | .available => "available"
  | .quarantine => "quarantine"
  | .damaged => "damaged"
  | .expired => "expired"
  | .inTransit => "in_transit"

def UnitSystem.text : UnitSystem → String
  | .ucum => "ucum"
  | .packaging => "packaging"
  | .currency => "currency"

def OpKind.text : OpKind → String
  | .reserve => "reserve"
  | .release => "release"
  | .fulfill => "fulfill"

def WireUnit.json (u : WireUnit) : Json :=
  .obj [("system", .str u.system.text), ("code", optionJson Json.str u.code),
    ("packaging_id", optionJson Json.str u.packagingId),
    ("version", optionJson Json.str u.version),
    ("base_units_per_pack", optionJson Json.str u.baseUnitsPerPack)]

def Quantity.json (q : Quantity) : Json :=
  .obj [("amount", .str q.amount), ("unit", q.unit.json)]

def serialsJson (ids : List String) : Json := .arr (ids.map Json.str)

@[simp] theorem PositionStatus.text_inj (v w : PositionStatus) : v.text = w.text ↔ v = w := by
  cases v <;> cases w <;> decide

@[simp] theorem UnitSystem.text_inj (v w : UnitSystem) : v.text = w.text ↔ v = w := by
  cases v <;> cases w <;> decide

@[simp] theorem OpKind.text_inj (v w : OpKind) : v.text = w.text ↔ v = w := by
  cases v <;> cases w <;> decide

@[simp] theorem Quantity.json_inj (q r : Quantity) : q.json = r.json ↔ q = r := by
  obtain ⟨amount, unit⟩ := q
  obtain ⟨amount', unit'⟩ := r
  cases unit
  cases unit'
  simp [Quantity.json, WireUnit.json]

theorem serialsJson_inj (l r : List String) : serialsJson l = serialsJson r ↔ l = r := by
  simp [serialsJson, mapJson_inj]

@[simp] theorem optionSerials_inj {a b : Option (List String)} :
    optionJson serialsJson a = optionJson serialsJson b ↔ a = b :=
  optionJson_inj serialsJson_inj (by simp [serialsJson])

end DirectTrade.Flow
