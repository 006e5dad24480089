import DirectTrade.History

/-!
Stock of one company: the entry and its parts, the identity of an observation, and
the ledgers that signed openings anchor.
-/

namespace DirectTrade

open Library

def Inventory.empty : Inventory := ⟨∅, ∅, ∅, none⟩

def LedgerIndex.empty : LedgerIndex := ⟨∅, ∅, ∅, none⟩

def FlowIndex.empty : FlowIndex := ⟨∅, ∅, ∅, ∅⟩

namespace Inventory

def ledgerIndex (company : Inventory) : LedgerIndex := company.index.getD .empty

def flowIndex (company : Inventory) : FlowIndex := company.flow.getD .empty

def setIndex (company : Inventory) (index : LedgerIndex) : Inventory :=
  { company with index := some index }

def setFlow (company : Inventory) (flow : FlowIndex) : Inventory :=
  company.setIndex { company.ledgerIndex with flow := some flow }

@[simp] theorem setIndex_ledgerIndex (company : Inventory) (index : LedgerIndex) :
    (company.setIndex index).ledgerIndex = index := rfl

@[simp] theorem setIndex_flow (company : Inventory) (index : LedgerIndex) :
    (company.setIndex index).flow = index.flow := rfl

@[simp] theorem ledgerIndex_flow (company : Inventory) :
    company.ledgerIndex.flow = company.flow := by
  unfold ledgerIndex flow
  cases company.index <;> rfl

/-- The entry with the members its first ledger needs. -/
def withLedgers (company : Inventory) : Inventory := company.setIndex company.ledgerIndex

/-- The entry with the members its first book needs. -/
def withBooks (company : Inventory) : Inventory := company.setFlow company.flowIndex

end Inventory

/-- A company's entry, created empty when it is absent. -/
def companyInventory (s : State) (org : Uuid) : Inventory :=
  (s.inventory.get? org).getD .empty

def inventoryState (s : State) (org : Uuid) : Inventory := (companyInventory s org).withLedgers

def flowState (s : State) (org : Uuid) : Inventory := (companyInventory s org).withBooks

def State.setInventory (s : State) (org : Uuid) (company : Inventory) : State :=
  { s with inventory := s.inventory.set org company }

/-- A member of a value that may be absent; `undefined` serializes as `null`. -/
def Json.path (value : Json) (names : List String) : Json :=
  match names with
  | [] => value
  | name :: rest => ((value.member? name).getD .null).path rest

def Json.array? : Json → Option (List Json)
  | .arr items => some items
  | _ => none

def idJson (id : Uuid) : Json := .str (uuidText id)

/-- Whether a member of a value is the text of an identifier. -/
def Json.names (value : Json) (name : String) (id : Uuid) : Prop :=
  value.member? name = some (idJson id)

instance (value : Json) (name : String) (id : Uuid) : Decidable (value.names name id) :=
  inferInstanceAs (Decidable (_ = _))

def hexValue (c : Char) : ℕ := "0123456789abcdef".toList.idxOf c

/-- The identifier that a text spells. -/
def parseUuid (text : String) : Option Uuid :=
  if isUuidText text then
    some ((text.toList.filter (· ≠ '-')).foldl (fun n c => 16 * n + hexValue c) 0)
  else none

variable [Primitives]

/-- The key of an `inventory-v1` observation. -/
def eventKey (event : Json) : Digest :=
  Primitives.inventoryKey [event.path ["source_id"], event.path ["observation_id"]]

/-- The key of an `inventory-v2` observation of a product. -/
def factKey (productId : Uuid) (fact : Json) : Digest :=
  Primitives.inventoryKey [idJson productId, fact.path ["observation", "source_id"],
    fact.path ["observation", "sequence"]]

/-- The key of a `flow-v1` observation in a book. -/
def flowKey (bookId : Uuid) (fact : Json) : Digest :=
  Primitives.inventoryKey [idJson bookId, fact.path ["act", "observation", "source_id"],
    fact.path ["act", "observation", "sequence"]]

/-- The key of a ledger's opening in a book. -/
def ledgerOpeningKey (bookId : Uuid) (key : Json) : Digest :=
  Primitives.inventoryKey [idJson bookId, key]

/-- The keys of the ledgers that a fact lists; none when the list is no array. -/
def factLedgers (fact : Json) : List Json :=
  ((fact.path ["ledgers"]).array?.getD []).map (·.path ["key"])

def stockUnits : List String := ["lb", "kg", "oz", "ton", "case", "pallet", "unit"]

def createInventoryState (companyId poolId productId : Uuid) (baseUnit : String) :
    Option InventoryState :=
  if baseUnit ∈ stockUnits then
    some
      { companyId := companyId, poolId := poolId, productId := productId, baseUnit := baseUnit,
        revision := 0, onHand := "0", reservations := ∅, packaging := ∅, observations := ∅ }
  else none

/-- One to 32 printable ASCII characters other than the blank. -/
def isUcum (code : String) : Bool :=
  1 ≤ code.length && code.length ≤ 32 && code.toList.all fun c => '!' ≤ c && c ≤ '~'

def trackingOf : Json → Option Tracking
  | .str "none" => some .none
  | .str "lot" => some .lot
  | .str "serial" => some .serial
  | _ => none

/-- The base unit and the tracking by which a product anchors a ledger. -/
def productAnchor (product : Json) : Option (String × Tracking) := do
  let code ← (product.path ["base_unit", "code"]).str?
  let tracking ← trackingOf (product.path ["tracking"])
  if product.path ["base_unit", "system"] = .str "ucum" ∧ isUcum code then
    some (code, tracking)
  else none

def openInventoryLedger (organizationId productId : Uuid) (product : Json) :
    Option InventoryLedger :=
  (productAnchor product).map fun (code, tracking) =>
    { organizationId := organizationId, productId := productId, baseUnit := code,
      tracking := tracking, revision := 0, positions := ∅, reservations := ∅, sources := ∅ }

def openFlowBook (organizationId bookId : Uuid) : FlowBook := ⟨organizationId, bookId, ∅, ∅⟩

def digestText (d : Digest) : String := String.ofList (hexText 64 d)

def goodsLedgerKey (productId : Uuid) : String :=
  digestText (Primitives.digestJson (.arr [.str "product", idJson productId]))

def moneyLedgerKey (currency : String) (account : Uuid) : String :=
  digestText (Primitives.digestJson (.arr [.str "money", .str currency, idJson account]))

/-- A book with a new ledger under a key that no ledger has. -/
def FlowBook.openAt (book : FlowBook) (key : String) (ledger : FlowLedger) : Option FlowBook :=
  if book.ledgers[key]? = none then
    some { book with ledgers := book.ledgers.insert key ledger }
  else none

def openGoodsLedger (book : FlowBook) (productId : Uuid) (product : Json) : Option FlowBook :=
  (productAnchor product).bind fun (code, tracking) =>
    book.openAt (goodsLedgerKey productId)
      { asset := ⟨some productId, none⟩, account := none, unit := code, tracking := tracking,
        balance := .nonnegative, revision := 0, head := none, positions := ∅, reservations := ∅ }

def isCurrency (currency : String) : Bool :=
  3 ≤ currency.length && currency.length ≤ 8 && currency.toList.all Char.isUpper

def openMoneyLedger (book : FlowBook) (currency : String) (account : Uuid)
    (balance : Balance) : Option FlowBook :=
  if isCurrency currency then
    book.openAt (moneyLedgerKey currency account)
      { asset := ⟨none, some currency⟩, account := some account, unit := currency,
        tracking := .none, balance := balance, revision := 0, head := none, positions := ∅,
        reservations := ∅ }
  else none

def InventoryState.withPolicy (state : InventoryState) (policyId : Uuid) : Pool :=
  { state with policyId := policyId }

def InventoryLedger.withPolicy (state : InventoryLedger) (policyId : Uuid) : Ledger :=
  { state with policyId := policyId }

def FlowBook.withPolicy (state : FlowBook) (policyId : Uuid) : Book :=
  { state with policyId := policyId }

/-- The revisions of the ledgers that an accepted fact lists. -/
def flowRevisions (state : FlowBook) (fact : Json) : Attempt (Table String ℕ) := do
  let listed ← access (fact.path ["ledgers"]).array?
  let entries ← listed.mapM fun l => do
    let key ← access (l.path ["key"]).str?
    let ledger ← access state.ledgers[key]?
    pure (key, ledger.revision)
  pure (Std.ExtTreeMap.ofList entries compare)

end DirectTrade
