import DirectTrade.Profiles.Fields

/-!
Orders: the rules of a body, the moves of its status, and what a revision must keep of the one
before it. An order is born placed; once it has left that status its lines and terms are frozen.
-/

namespace DirectTrade.Profiles

open DirectTrade.Flow (isCurrency indexed inheritedMembers)
open Library Outcome

inductive OrderStatus where
  | placed
  | acknowledged
  | rejected
  | partiallyFulfilled
  | fulfilled
  | cancelled
  | closed
  deriving DecidableEq

def OrderStatus.text : OrderStatus → String
  | .placed => "placed"
  | .acknowledged => "acknowledged"
  | .rejected => "rejected"
  | .partiallyFulfilled => "partially_fulfilled"
  | .fulfilled => "fulfilled"
  | .cancelled => "cancelled"
  | .closed => "closed"

def orderStatuses : List OrderStatus :=
  [.placed, .acknowledged, .rejected, .partiallyFulfilled, .fulfilled, .cancelled, .closed]

/-- Every revision that an order may take, one that keeps the status included. -/
def orderTransitions : OrderStatus → List OrderStatus
  | .placed => [.placed, .acknowledged, .rejected, .cancelled]
  | .acknowledged => [.acknowledged, .partiallyFulfilled, .fulfilled, .cancelled]
  | .partiallyFulfilled => [.partiallyFulfilled, .fulfilled, .cancelled]
  | .fulfilled => [.closed]
  | .rejected => []
  | .cancelled => []
  | .closed => []

def orderStatusOf (s : String) : Option OrderStatus := orderStatuses.find? (·.text = s)

/-- The status of a body, when it is one of the profile's. -/
def orderStatus (b : Json) : Option OrderStatus :=
  ((b.member? "status").bind Json.str?).bind orderStatusOf

theorem orderStatusOf_eq_some {s : String} {status : OrderStatus} :
    orderStatusOf s = some status ↔ s = status.text := by
  constructor
  · intro h
    have htext : status.text = s := by simpa using List.find?_some h
    exact htext.symm
  · intro h
    subst h
    cases status <;> decide

theorem orderStatus_eq_some {b : Json} {status : OrderStatus} :
    orderStatus b = some status ↔ b.member? "status" = some (.str status.text) := by
  unfold orderStatus
  cases hmember : b.member? "status" with
  | none => simp
  | some v =>
    cases v <;> simp [Json.str?, orderStatusOf_eq_some]

def checkRole (b : Json) (role : String) : List Issue × Bool :=
  let r := b.member? role
  let field := fun name => r.bind (·.member? name)
  match field "self" with
  | some (.bool self) =>
    if exact r ["self", "party_id", "revision"] && uuidOrNull (field "party_id") &&
        uuidOrNull (field "revision") then
      (issueUnless (!self || (field "party_id" = some .null && field "revision" = some .null))
          ("$." ++ role) "the company itself has no party record" ++
        issueUnless (self || field "party_id" ≠ some .null) ("$." ++ role)
          "a counterparty names its party record", self)
    else ([⟨"$." ++ role, "self flag, party root or null, revision or null required"⟩], false)
  | _ => ([⟨"$." ++ role, "self flag, party root or null, revision or null required"⟩], false)

def checkLineProduct (p : Option Json) (path : String) : List Issue :=
  let field := fun name => p.bind (·.member? name)
  if exact p ["product_id", "revision", "description"] && uuidOrNull (field "product_id") &&
      uuidOrNull (field "revision") && orNull (isText 500) (field "description") then
    issueUnless (field "product_id" ≠ some .null || field "description" ≠ some .null)
        (path ++ ".product") "a product root or a description is required" ++
      issueUnless (field "product_id" ≠ some .null || field "revision" = some .null)
        (path ++ ".product.revision") "a revision needs its product root"
  else [⟨path ++ ".product", "product root, revision and description, each or null, required"⟩]

def checkLineQuantity (q : Option Json) (path : String) : List Issue :=
  let field := fun name => q.bind (·.member? name)
  if exact q ["amount", "unit"] then
    (match amount 3 (field "amount") with
      | none => [⟨path ++ ".quantity.amount", "three-place decimal required"⟩]
      | some n => issueUnless (0 < n) (path ++ ".quantity.amount") "positive quantity required") ++
    checkUnit (field "unit") (path ++ ".quantity.unit")
  else [⟨path ++ ".quantity", "amount and unit required"⟩]

def checkLinePrice (currency price : Option Json) (path : String) : List Issue :=
  let field := fun name => price.bind (·.member? name)
  if price = some .null then []
  else if exact price ["amount", "currency"] then
    issueUnless (amount 6 (field "amount")).isSome (path ++ ".price.amount")
        "six-place decimal required" ++
      issueUnless (field "currency" = currency) (path ++ ".price.currency")
        "line currency must be the order currency"
  else [⟨path ++ ".price", "amount and currency required"⟩]

/-- The end of a window of two dates does not come before its start. -/
def checkWindow (window : Option Json) (path : String) : List Issue :=
  let field := fun name => window.bind (·.member? name)
  if window = some .null then []
  else if exact window ["start", "end"] && isLocalDate (field "start") &&
      isLocalDate (field "end") then
    match field "start", field "end" with
    | some (.str start), some (.str last) =>
      issueUnless (!decide (last < start)) (path ++ ".requested") "window ends before it starts"
    | _, _ => []
  else [⟨path ++ ".requested", "start and end dates required"⟩]

def checkLine (currency : Option Json) (seen : List Json) (i : ℕ) (l : Json) :
    List Issue × List Json :=
  let path := indexed "$.lines" i
  let links := l.member? "links"
  if exact l ["line_id", "product", "quantity", "price", "requested", "links"] then
    (issueUnless (isText 80 (l.member? "line_id")) (path ++ ".line_id")
        "bounded line id required" ++
      issueUnless (!seen.contains (canonical (l.member? "line_id"))) path "duplicate line id" ++
      checkLineProduct (l.member? "product") path ++
      checkLineQuantity (l.member? "quantity") path ++
      checkLinePrice currency (l.member? "price") path ++
      checkWindow (l.member? "requested") path ++
      issueUnless (exact links ["contract_id"] && uuidOrNull (links.bind (·.member? "contract_id")))
        (path ++ ".links") "contract root or null required",
      seen ++ [canonical (l.member? "line_id")])
  else ([⟨path, "exact line fields required"⟩], seen)

def checkTerms (terms : Option Json) : List Issue :=
  let field := fun name => terms.bind (·.member? name)
  if exact terms ["payment_net_days", "incoterm"] then
    issueUnless (orNull (isIntegerIn 0 365) (field "payment_net_days")) "$.terms.payment_net_days"
        "0-365 or null required" ++
      issueUnless (orNull (textOf (isCode 3)) (field "incoterm")) "$.terms.incoterm"
        "three-letter incoterm or null required"
  else [⟨"$.terms", "payment_net_days and incoterm required"⟩]

def validateOrder (b : Json) : Attempt (List Issue) :=
  if exact b ["buyer", "seller", "placed_at", "currency", "external", "lines", "status", "terms",
      "replaces"] then do
    let (buyerIssues, buyerSelf) := checkRole b "buyer"
    let (sellerIssues, sellerSelf) := checkRole b "seller"
    let placedAt ← isInstant (b.member? "placed_at")
    pure (buyerIssues ++ sellerIssues ++
      issueUnless (buyerSelf != sellerSelf) "$"
        "exactly one of buyer and seller is the company itself" ++
      issueUnless placedAt "$.placed_at" "UTC millisecond instant required" ++
      issueUnless (textOf isCurrency (b.member? "currency")) "$.currency"
        "currency code required" ++
      checkIdentifiers (b.member? "external") "$.external" 16 "at most 16 external identifiers"
        "namespaced scheme required" (fun _ _ _ => []) ++
      (if isArrayOf 1 256 (b.member? "lines") then
        forEach (checkLine (b.member? "currency")) [] 0 (elements (b.member? "lines"))
      else [⟨"$.lines", "1-256 lines required"⟩]) ++
      issueUnless (oneOf (orderStatuses.map (·.text)) (b.member? "status")) "$.status"
        "unknown status" ++
      checkTerms (b.member? "terms") ++
      issueUnless (uuidOrNull (b.member? "replaces")) "$.replaces"
        "replaced order root or null required")
  else pure [⟨"$", "exact order fields required"⟩]

def checkOrderGenesis (b : Json) : List Issue :=
  issueUnless (b.member? "status" = some (.str "placed")) "$.status" "an order is born placed"

/-- The statuses that the table lists after one; a name that every object has is no list. -/
def listedAfter (status : String) : Attempt (List String) :=
  match orderStatusOf status with
  | some known => pure ((orderTransitions known).map (·.text))
  | none => if inheritedMembers.contains status then .error .fault else pure []

/-- Both bodies are assumed valid, so their statuses are texts. -/
def checkTransition (previous next : Json) : Attempt (List Issue) :=
  match previous.member? "status", next.member? "status" with
  | some (.str before), some (.str after) => do
    let listed ← listedAfter before
    pure (issueUnless (listed.contains after) "$.status"
      ("no transition from " ++ before ++ " to " ++ after))
  | _, _ => .error .fault

def checkFrozen (previous next : Json) : List Issue :=
  if previous.member? "status" = some (.str "placed") then []
  else
    issueUnless (sameMember previous next "lines") "$.lines"
        "lines are frozen once acknowledged; a change is a new order that replaces this one" ++
      issueUnless (sameMember previous next "terms") "$.terms"
        "terms are frozen once acknowledged"

/-- The members of an order that no revision changes. -/
def orderConstants : List String := ["buyer", "seller", "placed_at", "currency", "replaces"]

def checkOrderContinuity (previous next : Json) : Attempt (List Issue) := do
  let status ← checkTransition previous next
  let kept ← identifierKeys (next.member? "external")
  let held ← identifierKeys (previous.member? "external")
  pure (orderConstants.flatMap (fun key =>
      issueUnless (sameMember previous next key) ("$." ++ key) (key ++ " is immutable")) ++
    status ++ checkFrozen previous next ++
    held.zipIdx.flatMap fun (key, i) => issueUnless (kept.contains key) (indexed "$.external" i)
      "an external identifier is never removed")

theorem placed_of_genesis {b : Json} (h : checkOrderGenesis b = []) :
    orderStatus b = some .placed := by
  rw [checkOrderGenesis, issueUnless_eq_nil, decide_eq_true_eq] at h
  exact orderStatus_eq_some.mpr h

/-- The status moves along the table. -/
def OrderMoves (previous next : Json) : Prop :=
  ∃ before after, orderStatus previous = some before ∧ orderStatus next = some after ∧
    after ∈ orderTransitions before

/-- What a later revision keeps of an order. -/
structure KeepsOrder (previous next : Json) : Prop where
  constant : ∀ key ∈ orderConstants,
    canonical (next.member? key) = canonical (previous.member? key)
  external : ∀ e ∈ identifiers (previous.member? "external"),
    e ∈ identifiers (next.member? "external")
  left : orderStatus previous ≠ some .placed → orderStatus next ≠ some .placed
  frozen : orderStatus previous ≠ some .placed →
    canonical (next.member? "lines") = canonical (previous.member? "lines") ∧
      canonical (next.member? "terms") = canonical (previous.member? "terms")

theorem orderMoves_of_transition {previous next : Json}
    (h : checkTransition previous next = .ok []) : OrderMoves previous next := by
  unfold checkTransition at h
  split at h
  next before after hbefore hafter =>
    simp only [bind_eq_ok, pure_eq_ok, issueUnless_eq_nil, List.contains_eq_mem,
      decide_eq_true_eq] at h
    obtain ⟨listed, hlisted, hmem⟩ := h
    unfold listedAfter at hlisted
    split at hlisted
    next known hknown =>
      have hlist : (orderTransitions known).map (·.text) = listed := Except.ok.inj hlisted
      rw [← hlist, List.mem_map] at hmem
      obtain ⟨status, hstatus, htext⟩ := hmem
      refine ⟨known, status, orderStatus_eq_some.mpr ?_, orderStatus_eq_some.mpr ?_, hstatus⟩
      · rw [hbefore, orderStatusOf_eq_some.mp hknown]
      · rw [hafter, htext]
    next =>
      split at hlisted
      · cases hlisted
      · have hlist : [] = listed := Except.ok.inj hlisted
        rw [← hlist] at hmem
        exact absurd hmem (List.not_mem_nil)
  next => cases h

theorem orderContinuity {previous next : Json}
    (h : checkOrderContinuity previous next = .ok []) :
    OrderMoves previous next ∧ KeepsOrder previous next := by
  simp only [checkOrderContinuity, bind_eq_ok, pure_eq_ok, List.append_eq_nil_iff,
    List.flatMap_eq_nil_iff, issueUnless_eq_nil] at h
  obtain ⟨status, hstatus, kept, hkept, held, hheld, ⟨⟨hconstant, rfl⟩, hfrozen⟩, hexternal⟩ := h
  have hmoves := orderMoves_of_transition hstatus
  refine ⟨hmoves, ⟨?_, ?_, ?_, ?_⟩⟩
  · intro key hkey
    have hsame := hconstant key hkey
    rw [sameMember, decide_eq_true_eq] at hsame
    exact hsame.symm
  · intro e he
    rw [← identifierKeys_eq_ok hheld] at he
    rw [← identifierKeys_eq_ok hkept]
    obtain ⟨i, hi⟩ := List.mem_iff_getElem?.mp he
    have hindexed : (e, i) ∈ held.zipIdx := by simpa [List.mem_zipIdx_iff_getElem?] using hi
    simpa using hexternal (e, i) hindexed
  · intro hleft hplaced
    obtain ⟨before, after, hbefore, hafter, hlisted⟩ := hmoves
    rw [hbefore] at hleft
    rw [hafter] at hplaced
    injection hplaced with hplaced
    subst hplaced
    cases before <;> simp [orderTransitions] at hlisted hleft
  · intro hleft
    unfold checkFrozen at hfrozen
    have hother : previous.member? "status" ≠ some (.str "placed") :=
      fun hplaced => hleft (orderStatus_eq_some.mpr hplaced)
    rw [if_neg hother] at hfrozen
    simp only [List.append_eq_nil_iff, issueUnless_eq_nil, sameMember, decide_eq_true_eq]
      at hfrozen
    exact ⟨hfrozen.1.symm, hfrozen.2.symm⟩

theorem KeepsOrder.trans {a b c : Json} (h : KeepsOrder a b) (h' : KeepsOrder b c) :
    KeepsOrder a c where
  constant key hkey := (h'.constant key hkey).trans (h.constant key hkey)
  external e he := h'.external e (h.external e he)
  left hleft := h'.left (h.left hleft)
  frozen hleft :=
    have hfirst := h.frozen hleft
    have hsecond := h'.frozen (h.left hleft)
    ⟨hsecond.1.trans hfirst.1, hsecond.2.trans hfirst.2⟩

/-- A status after which no revision is accepted. -/
def OrderStatus.terminal (status : OrderStatus) : Prop := orderTransitions status = []

/-- An order from its first revision on. -/
structure OrderHistory (revisions : List Json) : Prop where
  born : ∀ first, revisions.head? = some first → orderStatus first = some .placed
  path : revisions.IsChain OrderMoves
  keeps : revisions.Pairwise KeepsOrder
  final : ∀ before b after, revisions = before ++ b :: after →
    (∃ status, orderStatus b = some status ∧ status.terminal) → after = []

theorem orderHistory {revisions : List Json}
    (born : ∀ first, revisions.head? = some first → checkOrderGenesis first = [])
    (linked : revisions.IsChain fun a b => checkOrderContinuity a b = .ok []) :
    OrderHistory revisions := by
  have hpath : revisions.IsChain OrderMoves := linked.imp fun _ _ h => (orderContinuity h).1
  have hkeeps : revisions.IsChain KeepsOrder := linked.imp fun _ _ h => (orderContinuity h).2
  have : Trans KeepsOrder KeepsOrder KeepsOrder := ⟨KeepsOrder.trans⟩
  refine ⟨fun first hfirst => placed_of_genesis (born first hfirst), hpath,
    List.isChain_iff_pairwise.mp hkeeps, ?_⟩
  intro before b after hsplit hfinal
  obtain ⟨status, hstatus, hterminal⟩ := hfinal
  cases after with
  | nil => rfl
  | cons next rest =>
    -- a revision after this one would have moved on from a terminal status
    rw [hsplit] at hpath
    obtain ⟨-, hmove, -⟩ := List.isChain_append_cons_cons.mp hpath
    obtain ⟨status', _, hstatus', -, hlisted⟩ := hmove
    have hsame : status' = status := Option.some.inj (hstatus'.symm.trans hstatus)
    rw [hsame, hterminal] at hlisted
    exact absurd hlisted List.not_mem_nil

end DirectTrade.Profiles
