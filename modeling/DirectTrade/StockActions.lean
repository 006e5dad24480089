import DirectTrade.Reading

/-!
Opening and reading stock: pools, product ledgers, books and the ledgers in a book.
-/

namespace DirectTrade

open Library

variable [Primitives] [Reducers]

namespace Call

def inventoryCreate (k : Call) (m : Mutation) (policyId poolId productId : Uuid)
    (baseUnit : String) : Attempt Reply := do
  k.writable policyId poolId "stock pool write permission required"
  let o ← k.currentOrg
  let company := companyInventory k.s o.id
  match k.previous with
  | some receipt => pure ⟨k.s.setInventory o.id company, receipt.result, false⟩
  | none => do
    demand (company.pools[poolId]? = none) "conflict" "pool exists" 409
    let pool ← require (createInventoryState o.id poolId productId baseUnit)
      "invalid_inventory" "invalid product or base unit" 422
    let next := { company with
      pools := company.pools.insert poolId (pool.withPolicy policyId)
      creations := company.creations.insert poolId (k.stored m) }
    pure (Reply.write (k.s.setInventory o.id next) (.pool poolId))

/-- The head of a root that the caller can read and understands. -/
def readableHead (k : Call) (o : Organization) (root : Option Uuid) (semantics : Semantics)
    (message : String) : Attempt BusinessRecord := do
  let head ← require (headRecord k.s o.id root semantics) "not_found" message 404
  let allowed ← k.readable head
  demand (allowed = true) "not_found" message 404
  pure head

def inventoryOpen (k : Call) (m : Mutation) (policyId productId : Uuid) : Attempt Reply := do
  let o ← k.currentOrg
  k.writable policyId productId "ledger write permission required"
  let product ← k.readableHead o (some productId) .productV1 "product unavailable"
  let company := inventoryState k.s o.id
  match k.previous with
  | some receipt => pure ⟨k.s.setInventory o.id company, receipt.result, false⟩
  | none => do
    let index := company.ledgerIndex
    demand (index.ledgers[productId]? = none) "conflict" "ledger exists" 409
    let ledger ← require (openInventoryLedger o.id productId product.body)
      "invalid_inventory" "product cannot anchor a ledger" 422
    let next := company.setIndex { index with
      ledgers := index.ledgers.insert productId (ledger.withPolicy policyId)
      openings := index.openings.insert productId (k.stored m) }
    pure (Reply.write (k.s.setInventory o.id next) (.ledgerOpened productId))

def flowOpen (k : Call) (m : Mutation) (policyId bookId : Uuid) : Attempt Reply := do
  let o ← k.currentOrg
  k.writable policyId bookId "book write permission required"
  let company := flowState k.s o.id
  match k.previous with
  | some receipt => pure ⟨k.s.setInventory o.id company, receipt.result, false⟩
  | none => do
    let flow := company.flowIndex
    demand (flow.books[bookId]? = none) "conflict" "book exists" 409
    let next := company.setFlow { flow with
      books := flow.books.insert bookId ((openFlowBook o.id bookId).withPolicy policyId)
      bookOpenings := flow.bookOpenings.insert bookId (k.stored m) }
    pure (Reply.write (k.s.setInventory o.id next) (.bookOpened bookId))

/-- The key of the ledger that a payload names, and the book with it opened. -/
def openLedger (k : Call) (o : Organization) (book : Book) (p : LedgerPayload) :
    Attempt (String × FlowBook) :=
  match p.asset.product with
  | some productId => do
    demand (p.asset.currency = none ∧ p.account = none ∧ p.balance = .nonnegative)
      "invalid_flow" "a goods ledger names a product, no account, and a nonnegative balance" 422
    let product ← k.readableHead o (some productId) .productV1 "product unavailable"
    let key := goodsLedgerKey productId
    demand (book.ledgers[key]? = none) "conflict" "ledger exists" 409
    let next ← require (openGoodsLedger book.toFlowBook productId product.body)
      "invalid_flow" "product cannot anchor a ledger" 422
    pure (key, next)
  | none => do
    let message := "account unavailable: an active dtp/account object the company owns"
    let account ← k.readableHead o p.account .objectV1 message
    demand (account.body.member? "class" = some (.str "dtp/account") ∧
        account.body.member? "status" = some (.str "active"))
      "not_found" message 404
    let currency ← require p.asset.currency
      "invalid_flow" "a money ledger names a currency" 422
    let accountId ← access p.account
    let key := moneyLedgerKey currency accountId
    demand (book.ledgers[key]? = none) "conflict" "ledger exists" 409
    let next ← require (openMoneyLedger book.toFlowBook currency accountId p.balance)
      "invalid_flow" "invalid currency, account or balance" 422
    pure (key, next)

def flowLedgerOpen (k : Call) (m : Mutation) (p : LedgerPayload) : Attempt Reply := do
  let o ← k.currentOrg
  k.writable p.policyId p.bookId "book write permission required"
  let company := flowState k.s o.id
  let flow := company.flowIndex
  let book ← require (flow.books[p.bookId]?.filter (·.policyId = p.policyId))
    "not_found" "book unavailable" 404
  match k.previous with
  | some receipt => pure ⟨k.s.setInventory o.id company, receipt.result, false⟩
  | none => do
    let (key, opened) ← k.openLedger o book p
    let next := company.setFlow { flow with
      books := flow.books.insert p.bookId (opened.withPolicy book.policyId)
      ledgerOpenings :=
        flow.ledgerOpenings.insert (ledgerOpeningKey p.bookId (.str key)) (k.stored m) }
    pure (Reply.write (k.s.setInventory o.id next) (.flowLedgerOpened p.bookId key))

/-- Whether the caller's module declares some profile of a semantics. -/
def consumes (k : Call) (o : Organization) (semantics : Semantics) : Attempt Bool :=
  match k.c.actor.kind with
  | .person => pure true
  | .installation => do
    let profiles ← k.moduleProfiles o
    pure (profiles.any fun d => (k.s.profiles.get? d).any (·.semantics = semantics))

/-- Whether the caller understands every record written about a resource under a
semantics. -/
def understandsAll (k : Call) (o : Organization) (resource : Uuid) (semantics : Semantics) :
    Attempt Bool :=
  Outcome.every (fun (r : BusinessRecord) => k.understands r.profileDigest)
    (k.s.records.values.filter fun r => r.organizationId = o.id && r.resourceId = resource &&
      hasSemantics k.s.profiles.get? semantics r)

/-- A stock read: the value must exist under the named policy, and the caller must be
able to read it and understand it. -/
def readStock {σ : Type} (k : Call) (o : Organization) (value : Option σ) (policyOf : σ → Uuid)
    (policyId resource : Uuid) (semantics : Semantics) (message : String) : Attempt σ := do
  let consumer ← k.consumes o semantics
  let understood ← k.understandsAll o resource semantics
  let held ← require (value.filter fun v => policyOf v = policyId) "not_found" message 404
  let allowed ← k.can policyId resource .read
  demand (allowed ∧ consumer ∧ understood) "not_found" message 404
  pure held

def inventoryLedger (k : Call) (policyId productId : Uuid) : Attempt Reply := do
  let o ← k.currentOrg
  let ledger := (companyInventory k.s o.id).ledgerIndex.ledgers[productId]?
  let held ← k.readStock o ledger (·.policyId) policyId productId .inventoryV2
    "ledger unavailable"
  pure (k.answer (some (.ledgerState held)))

def flowBook (k : Call) (policyId bookId : Uuid) : Attempt Reply := do
  let o ← k.currentOrg
  let book := (companyInventory k.s o.id).flowIndex.books[bookId]?
  let held ← k.readStock o book (·.policyId) policyId bookId .flowV1 "book unavailable"
  pure (k.answer (some (.bookState held)))

def inventoryGet (k : Call) (policyId poolId : Uuid) : Attempt Reply := do
  let o ← k.currentOrg
  let pool := (companyInventory k.s o.id).pools[poolId]?
  let held ← k.readStock o pool (·.policyId) policyId poolId .inventoryV1 "pool unavailable"
  pure (k.answer (some (.poolState held)))

end Call
end DirectTrade
