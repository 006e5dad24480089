import DirectTrade.Business.Amounts
import DirectTrade.Business.Dates
import DirectTrade.Json

/-!
The arithmetic profile of an invoice. A body of any shape is checked and every problem is
reported; the amounts of a body that is reported valid are those that exact arithmetic gives.
-/

namespace DirectTrade.Business

open Encoding Library Outcome Calendar

inductive IssueCode where
  | invalidShape
  | invalidDecimal
  | unsupportedCurrency
  | unsupportedUnit
  | arithmeticMismatch
  | invalidPaymentState
  | invalidDate
  | referenceMissing
  | referenceUnknown
  | referenceInaccessible
  | referenceMismatch
  deriving DecidableEq

inductive Severity where
  | error
  | unresolved
  deriving DecidableEq

/-- The text of an issue. An expected amount is followed by the currency, whatever value that
is. -/
inductive Message where
  | text (s : String)
  | expected (normalized : String) (currency : Value)

structure ValidationIssue where
  code : IssueCode
  path : String
  severity : Severity
  message : Message

structure ValidationReport where
  profile : String
  valid : Bool
  complete : Bool
  issues : List ValidationIssue

/-- An issue that makes an invoice invalid. -/
def problem (code : IssueCode) (path message : String) : ValidationIssue :=
  { code, path, severity := .error, message := .text message }

def report (issues : List ValidationIssue) : ValidationReport where
  profile := "dtp.invoice-arithmetic/1"
  valid := !issues.any fun i => i.severity = .error
  complete := issues.length = 0
  issues := issues

/-- The member of an object under a name of the profile. -/
def field (value : Value) (name : String) : Value := value.get (units name)

/-- Whether a value is one of some texts. -/
def isOneOf (allowed : List String) : Value → Bool
  | .str t => (allowed.map units).contains t
  | _ => false

def unitNames : List String := ["lb", "kg", "oz", "ton", "case", "pallet", "unit"]

def currencies : List String := ["USD", "USDC"]

/-- A money object. `own` tells the object that the invoice currency was read from. -/
def amount (currency raw : Value) (own : Bool) (path : String) :
    List ValidationIssue × Option ℤ :=
  if raw.isObject then
    let foreign := if (field raw "currency").equals own currency then []
      else [problem .unsupportedCurrency (path ++ ".currency")
        "all amounts must use the invoice currency"]
    match parseDecimal (field raw "amount") 6 false with
    | .ok value => (foreign, some value)
    | .error message => (foreign ++ [problem .invalidDecimal (path ++ ".amount") message], none)
  else ([problem .invalidShape path "expected money object"], none)

/-- Compares an amount that is present with the one expected. Writing the currency may itself be
refused, as may an amount past the bound of the format. -/
def equal (currency : Value) (actual : Option ℤ) (expected : ℤ) (path : String) :
    List ValidationIssue :=
  match Flow.formatDecimal expected 6 with
  | .error message => [problem .invalidDecimal path message]
  | .ok normalized =>
    match actual with
    | none => []
    | some value =>
      if value = expected then []
      else if currency.hasText then
        [{ code := .arithmeticMismatch, path, severity := .error,
           message := .expected normalized currency }]
      else [problem .invalidDecimal path "Cannot convert object to primitive value"]

/-- What a loop over lines or deductions has gathered. -/
structure Tally where
  issues : List ValidationIssue
  sum : ℤ
  valid : Bool

def checkLine (currency : Value) (t : Tally) (entry : Value × ℕ) : Except String Tally :=
  let path := s!"line_items[{entry.2}]"
  let quantity := field entry.1 "quantity"
  if entry.1.isObject && quantity.isObject then
    let ofUnit := if isOneOf unitNames (field quantity "unit") then []
      else [problem .unsupportedUnit (path ++ ".quantity.unit")
        "unit requires an explicit supported profile"]
    let parsed := parseDecimal (field quantity "amount") 3 false
    let ofQuantity := match parsed with
      | .ok _ => []
      | .error message => [problem .invalidDecimal (path ++ ".quantity.amount") message]
    let price := amount currency (field entry.1 "unit_price") false (path ++ ".unit_price")
    let value := amount currency (field entry.1 "amount") false (path ++ ".amount")
    let issues := t.issues ++ ofUnit ++ ofQuantity ++ price.1 ++ value.1
    match parsed, price.2, value.2 with
    | .ok q, some p, some v => do
      let expected ← multiplyRounded q 3 p 6 6
      pure { t with issues := issues ++ equal currency (some v) expected (path ++ ".amount"),
                    sum := t.sum + v }
    | _, _, _ => pure { t with issues := issues, valid := false }
  else pure { t with
    issues := t.issues ++ [problem .invalidShape path "expected line and quantity objects"],
    valid := false }

def checkLines (currency lineItems : Value) : Except String Tally :=
  match lineItems with
  | .arr items =>
    if items.length < 1 ∨ items.length > 1000 then
      pure { issues := [problem .invalidShape "line_items" "expected 1 to 1000 invoice lines"],
             sum := 0, valid := false }
    else items.zipIdx.foldlM (checkLine currency) { issues := [], sum := 0, valid := true }
  | _ => pure { issues := [problem .invalidShape "line_items" "expected 1 to 1000 invoice lines"],
                sum := 0, valid := false }

def checkDeduction (currency : Value) (t : Tally) (entry : Value × ℕ) : Tally :=
  let value := amount currency (if entry.1.isObject then field entry.1 "amount" else .undefined)
    false s!"deductions[{entry.2}].amount"
  match value.2 with
  | none => { t with issues := t.issues ++ value.1, valid := false }
  | some v => { t with issues := t.issues ++ value.1, sum := t.sum + v }

def checkDeductions (currency deductions : Value) : Tally :=
  match deductions with
  | .arr items =>
    if items.length > 1000 then
      { issues := [problem .invalidShape "deductions" "expected at most 1000 deductions"],
        sum := 0, valid := false }
    else items.zipIdx.foldl (checkDeduction currency) { issues := [], sum := 0, valid := true }
  | _ => { issues := [problem .invalidShape "deductions" "expected at most 1000 deductions"],
           sum := 0, valid := false }

def checkTotal (currency : Value) (subtotal total : Option ℤ) (deductions : Tally) :
    List ValidationIssue :=
  match subtotal with
  | none => []
  | some s =>
    if deductions.valid then
      (if deductions.sum > s then
        [problem .arithmeticMismatch "deductions"
          "deductions exceed subtotal; use an explicit credit-note profile"]
       else []) ++ equal currency total (s - deductions.sum) "total.amount"
    else []

def checkPayment (status : Value) (paid total : Option ℤ) : List ValidationIssue :=
  match paid, total with
  | some paid, some total =>
    (if paid > total then
      [problem .invalidPaymentState "paid_amount" "paid amount exceeds invoice total"] else []) ++
    (if isOneOf ["paid"] status && paid ≠ total then
      [problem .invalidPaymentState "status" "paid requires exact total payment"] else []) ++
    (if isOneOf ["partially_paid"] status && !(paid > 0 && paid < total) then
      [problem .invalidPaymentState "status"
        "partially_paid requires payment between zero and total"] else [])
  | _, _ => []

def date (value : Value) (path : String) : List ValidationIssue × Option Text :=
  let refused := ([problem .invalidDate path "expected a real UTC date/time"], none)
  match value with
  | .str t => if isDate t then ([], some (normalized t)) else refused
  | _ => refused

def checkDates (issued due : Value) : List ValidationIssue :=
  let issuedAt := date issued "issued_at"
  let dueAt := date due "due_at"
  issuedAt.1 ++ dueAt.1 ++
    match issuedAt.2, dueAt.2 with
    | some i, some d =>
      if d < i then [problem .invalidDate "due_at" "due time must not precede issue time"] else []
    | _, _ => []

/-- What the caller answers about a record, if it is asked and does not throw. -/
abbrev Resolver := Text → String → Except Unit Value

inductive ObservationStatus where
  | present
  | missing
  | unknown
  | inaccessible
  deriving DecidableEq

/-- The status that an observation states, when it is one of the four. -/
def statusOf (observation : Value) : Option ObservationStatus :=
  let status := field observation "status"
  if isOneOf ["present"] status then some .present
  else if isOneOf ["missing"] status then some .missing
  else if isOneOf ["unknown"] status then some .unknown
  else if isOneOf ["inaccessible"] status then some .inaccessible
  else none

def unknownObservation : Value := .obj [(units "status", .str (units "unknown"))]

def observe (resolveReference : Option Resolver) (id : Text) (expectedType : String) :
    Value × ObservationStatus :=
  let answered := match resolveReference with
    | none => unknownObservation
    | some resolve =>
      match resolve id expectedType with
      | .ok answer => if answer.present then answer else unknownObservation
      | .error _ => unknownObservation
  match answered.truthy, statusOf answered with
  | true, some status => (answered, status)
  | _, _ => (unknownObservation, .unknown)

def unresolved (code : IssueCode) (path status : String) : ValidationIssue :=
  { code, path, severity := .unresolved,
    message := .text ("reference evidence is " ++ status ++ "; no verification inferred") }

def checkParty (body observation : Value) (path party : String) : List ValidationIssue :=
  let observed := field observation party
  if !observed.equals false .undefined && !observed.equals false (field body party) then
    [problem .referenceMismatch path ("reference " ++ party ++ " does not match invoice")]
  else []

def checkReference (body : Value) (resolveReference : Option Resolver)
    (reference : Value × String × String) : List ValidationIssue :=
  let (id, expectedType, path) := reference
  match id with
  | .str t =>
    if isUuidText (written t) then
      let (observation, status) := observe resolveReference t expectedType
      match status with
      | .missing => [unresolved .referenceMissing path "missing"]
      | .unknown => [unresolved .referenceUnknown path "unknown"]
      | .inaccessible => [unresolved .referenceInaccessible path "inaccessible"]
      | .present =>
        (if isOneOf [expectedType] (field observation "type") then []
         else [problem .referenceMismatch path ("expected reference type " ++ expectedType)]) ++
        checkParty body observation path "seller_company_id" ++
        checkParty body observation path "buyer_company_id"
    else [problem .invalidShape path "expected a record UUID"]
  | _ => [problem .invalidShape path "expected a record UUID"]

/-- Whether a set of the values would have as many of them. -/
def distinct : List Value → Bool
  | [] => true
  | value :: rest => !rest.any value.sameValueZero && distinct rest

def checkReferences (body : Value) (resolveReference : Option Resolver) : List ValidationIssue :=
  let fulfillment := field body "fulfillment_id"
  let first := (field body "contract_id", "trade.contract", "contract_id") ::
    if fulfillment.present then [(fulfillment, "trade.fulfillment", "fulfillment_id")] else []
  let refused :=
    problem .invalidShape "settlement_event_ids" "expected at most 1000 settlement references" ::
      first.flatMap (checkReference body resolveReference)
  match field body "settlement_event_ids" with
  | .arr ids =>
    if ids.length > 1000 then refused
    else
      (if distinct ids then [] else
        [problem .referenceMismatch "settlement_event_ids" "duplicate settlement reference"]) ++
      (first ++ ids.zipIdx.map fun entry =>
        (entry.1, "finance.settlement_event", s!"settlement_event_ids[{entry.2}]")).flatMap
          (checkReference body resolveReference)
  | _ => refused

def validateInvoice (body : Value) (resolveReference : Option Resolver) :
    Except String ValidationReport :=
  if body.isObject then do
    let currency := field (field body "total") "currency"
    let ofCurrency := if isOneOf currencies currency then []
      else [problem .unsupportedCurrency "total.currency"
        "profile supports USD and USDC without conversion"]
    let subtotal := amount currency (field body "subtotal") false "subtotal"
    let total := amount currency (field body "total") true "total"
    let paid := amount currency (field body "paid_amount") false "paid_amount"
    let lines ← checkLines currency (field body "line_items")
    let ofSubtotal := if lines.valid then equal currency subtotal.2 lines.sum "subtotal.amount"
      else []
    let deductions := checkDeductions currency (field body "deductions")
    pure (report (ofCurrency ++ subtotal.1 ++ total.1 ++ paid.1 ++ lines.issues ++ ofSubtotal ++
      deductions.issues ++ checkTotal currency subtotal.2 total.2 deductions ++
      checkPayment (field body "status") paid.2 total.2 ++
      checkDates (field body "issued_at") (field body "due_at") ++
      checkReferences body resolveReference))
  else pure (report [problem .invalidShape "$" "invoice must be an object"])

/-- None of the issues makes the invoice invalid. -/
def Clean (issues : List ValidationIssue) : Prop := ∀ i ∈ issues, i.severity ≠ .error

theorem report_valid {issues : List ValidationIssue} :
    (report issues).valid = true ↔ Clean issues := by
  simp [report, Clean]

theorem clean_append {a b : List ValidationIssue} : Clean (a ++ b) ↔ Clean a ∧ Clean b := by
  unfold Clean
  constructor
  · intro h
    exact ⟨fun i hi => h i (List.mem_append_left _ hi),
      fun i hi => h i (List.mem_append_right _ hi)⟩
  · intro h i hi
    cases List.mem_append.mp hi with
    | inl ha => exact h.1 i ha
    | inr hb => exact h.2 i hb

theorem not_clean_problem {code : IssueCode} {path message : String} :
    ¬ Clean [problem code path message] := by
  intro h
  exact h _ (List.mem_singleton.mpr rfl) rfl

theorem clean_guard {p : Prop} [Decidable p] {code : IssueCode} {path message : String} :
    Clean (if p then [problem code path message] else []) ↔ ¬ p := by
  split
  next hp => exact ⟨fun h => absurd h not_clean_problem, fun h => absurd hp h⟩
  next hp => exact ⟨fun _ => hp, fun _ i hi => nomatch hi⟩

/-- The number that a quantity or a money object states. -/
def amountOf (raw : Value) : Option ℚ := denoted (field raw "amount")

theorem amount_eq_some {currency raw : Value} {own : Bool} {path : String} {n : ℤ}
    (h : (amount currency raw own path).2 = some n) :
    0 ≤ n ∧ amountOf raw = some ((n : ℚ) / 10 ^ 6) := by
  unfold amount at h
  by_cases hobject : raw.isObject = true
  · rw [if_pos hobject] at h
    cases hparse : parseDecimal (field raw "amount") 6 false with
    | ok m =>
      rw [hparse] at h
      obtain rfl : m = n := Option.some.inj h
      have hdenoted := denoted_of_parseDecimal hparse
      exact ⟨hdenoted.2, hdenoted.1⟩
    | error message =>
      rw [hparse] at h
      exact nomatch h
  · rw [if_neg hobject] at h
    exact nomatch h

theorem clean_amount {currency raw : Value} {own : Bool} {path : String}
    (h : Clean (amount currency raw own path).1) :
    ∃ n, (amount currency raw own path).2 = some n := by
  unfold amount at h ⊢
  by_cases hobject : raw.isObject = true
  · rw [if_pos hobject] at h ⊢
    cases hparse : parseDecimal (field raw "amount") 6 false with
    | ok n => exact ⟨n, rfl⟩
    | error message =>
      rw [hparse] at h
      exact absurd (clean_append.mp h).2 not_clean_problem
  · rw [if_neg hobject] at h
    exact absurd h not_clean_problem

theorem eq_of_clean_equal {currency : Value} {n expected : ℤ} {path : String}
    (h : Clean (equal currency (some n) expected path)) : n = expected := by
  unfold equal at h
  cases hformat : Flow.formatDecimal expected 6 with
  | error message =>
    rw [hformat] at h
    exact absurd h not_clean_problem
  | ok normalized =>
    simp only [hformat] at h
    by_contra hne
    rw [if_neg hne] at h
    split at h
    · exact h _ (List.mem_singleton.mpr rfl) rfl
    · exact absurd h not_clean_problem

structure LineFigures where
  quantity : ℚ
  unitPrice : ℚ
  amount : ℚ

/-- The figures that a line states. -/
structure LineFigures.Of (f : LineFigures) (line : Value) : Prop where
  quantity : amountOf (field line "quantity") = some f.quantity
  unitPrice : amountOf (field line "unit_price") = some f.unitPrice
  amount : amountOf (field line "amount") = some f.amount

def LineFigures.Sound (f : LineFigures) : Prop :=
  f.amount = roundHalfUp 6 (f.quantity * f.unitPrice)

/-- What a loop has gathered from lines that were all in order. -/
structure Gathered (t : Tally) (figures : List LineFigures) (lines : List Value) : Prop where
  of : List.Forall₂ LineFigures.Of figures lines
  sound : ∀ f ∈ figures, f.Sound
  sum : (t.sum : ℚ) / 10 ^ 6 = (figures.map LineFigures.amount).sum

/-- A line never makes the check throw, and one that is in order adds its figures. -/
theorem checkLine_returns (currency : Value) (t : Tally) (entry : Value × ℕ) :
    ∃ t', checkLine currency t entry = .ok t' ∧ (Clean t'.issues → Clean t.issues ∧
      t'.valid = t.valid ∧ ∀ figures lines, Gathered t figures lines →
        ∃ f, Gathered t' (figures ++ [f]) (lines ++ [entry.1])) := by
  unfold checkLine
  by_cases hshape : (entry.1.isObject && (field entry.1 "quantity").isObject) = true
  · simp only [hshape, if_true]
    cases hparse : parseDecimal (field (field entry.1 "quantity") "amount") 3 false with
    | error message =>
      refine ⟨_, rfl, ?_⟩
      intro h
      simp only [clean_append] at h
      exact absurd h.1.1.2 not_clean_problem
    | ok q =>
      cases hp : (amount currency (field entry.1 "unit_price") false
          (s!"line_items[{entry.2}]" ++ ".unit_price")).2 with
      | none =>
        refine ⟨_, rfl, ?_⟩
        intro h
        simp only [clean_append] at h
        obtain ⟨p, hsome⟩ := clean_amount h.1.2
        rw [hp] at hsome
        exact nomatch hsome
      | some p =>
        cases hv : (amount currency (field entry.1 "amount") false
            (s!"line_items[{entry.2}]" ++ ".amount")).2 with
        | none =>
          refine ⟨_, rfl, ?_⟩
          intro h
          simp only [clean_append] at h
          obtain ⟨v, hsome⟩ := clean_amount h.2
          rw [hv] at hsome
          exact nomatch hsome
        | some v =>
          have hquantity := denoted_of_parseDecimal hparse
          have hprice := amount_eq_some hp
          have hvalue := amount_eq_some hv
          obtain ⟨expected, hproduct, hrounded⟩ := multiplyRounded_eq
            hquantity.2 hprice.1 (by decide : 3 ≤ 12 ∧ 6 ≤ 12 ∧ 6 ≤ 12)
          simp only [hproduct, ok_bind]
          refine ⟨_, rfl, ?_⟩
          intro h
          simp only [clean_append] at h
          refine ⟨h.1.1.1.1.1, rfl, ?_⟩
          intro figures lines hgathered
          have hexact : v = expected := eq_of_clean_equal h.2
          subst hexact
          refine ⟨⟨(q : ℚ) / 10 ^ 3, (p : ℚ) / 10 ^ 6, (v : ℚ) / 10 ^ 6⟩, ?_, ?_, ?_⟩
          · exact List.rel_append hgathered.of
              (.cons ⟨hquantity.1, hprice.2, hvalue.2⟩ .nil)
          · intro f hf
            cases List.mem_append.mp hf with
            | inl hold => exact hgathered.sound f hold
            | inr hnew =>
              rw [List.mem_singleton.mp hnew]
              exact hrounded
          · rw [List.map_append, List.sum_append, ← hgathered.sum]
            push_cast
            simp only [List.map_cons, List.map_nil, List.sum_cons, List.sum_nil]
            ring
  · simp only [if_neg hshape]
    refine ⟨_, rfl, ?_⟩
    intro h
    exact absurd (clean_append.mp h).2 not_clean_problem

theorem checkEachLine_returns (currency : Value) (entries : List (Value × ℕ)) (t : Tally) :
    ∃ t', entries.foldlM (checkLine currency) t = .ok t' ∧ (Clean t'.issues → Clean t.issues ∧
      t'.valid = t.valid ∧ ∀ figures lines, Gathered t figures lines →
        ∃ more, Gathered t' (figures ++ more) (lines ++ entries.map Prod.fst)) := by
  induction entries generalizing t with
  | nil =>
    refine ⟨t, rfl, ?_⟩
    intro h
    refine ⟨h, rfl, ?_⟩
    intro figures lines hgathered
    exact ⟨[], by simpa using hgathered⟩
  | cons entry rest ih =>
    obtain ⟨t₁, hfirst, hclean⟩ := checkLine_returns currency t entry
    obtain ⟨t₂, hrest, hclean'⟩ := ih t₁
    refine ⟨t₂, ?_, ?_⟩
    · rw [List.foldlM_cons, hfirst, ok_bind, hrest]
    · intro h
      obtain ⟨hissues', hvalid', hgathers'⟩ := hclean' h
      obtain ⟨hissues, hvalid, hgathers⟩ := hclean hissues'
      refine ⟨hissues, hvalid'.trans hvalid, ?_⟩
      intro figures lines hgathered
      obtain ⟨f, hone⟩ := hgathers figures lines hgathered
      obtain ⟨more, hmore⟩ := hgathers' _ _ hone
      refine ⟨f :: more, ?_⟩
      simpa using hmore

theorem checkLines_returns (currency lineItems : Value) :
    ∃ t, checkLines currency lineItems = .ok t ∧ (Clean t.issues → t.valid = true ∧
      ∃ items figures, lineItems = .arr items ∧ Gathered t figures items) := by
  have hnone : Gathered { issues := [], sum := 0, valid := true } [] [] :=
    ⟨.nil, (fun _ hf => nomatch hf), by simp⟩
  unfold checkLines
  cases lineItems with
  | arr items =>
    by_cases hlength : items.length < 1 ∨ items.length > 1000
    · simp only [if_pos hlength]
      exact ⟨_, rfl, fun h => absurd h not_clean_problem⟩
    · simp only [if_neg hlength]
      obtain ⟨t, ht, hclean⟩ := checkEachLine_returns currency items.zipIdx
        { issues := [], sum := 0, valid := true }
      refine ⟨t, ht, ?_⟩
      intro h
      obtain ⟨_, hvalid, hgathers⟩ := hclean h
      obtain ⟨figures, hgathered⟩ := hgathers [] [] hnone
      refine ⟨hvalid, items, figures, rfl, ?_⟩
      simpa using hgathered
  | undefined | null | bool | num | bigint | str | obj | other =>
    exact ⟨_, rfl, fun h => absurd h not_clean_problem⟩

/-- The amounts that a list of deductions states. -/
def DeductionsOf (amounts : List ℚ) (deductions : List Value) : Prop :=
  List.Forall₂ (fun a deduction => amountOf (field deduction "amount") = some a) amounts deductions

theorem checkDeduction_clean {currency : Value} {t : Tally} {entry : Value × ℕ}
    (h : Clean (checkDeduction currency t entry).issues) :
    Clean t.issues ∧ (checkDeduction currency t entry).valid = t.valid ∧
      ∃ n : ℤ, (checkDeduction currency t entry).sum = t.sum + n ∧
        amountOf (field entry.1 "amount") = some ((n : ℚ) / 10 ^ 6) := by
  unfold checkDeduction at h ⊢
  cases hvalue : (amount currency (if entry.1.isObject then field entry.1 "amount" else .undefined)
      false s!"deductions[{entry.2}].amount").2 with
  | none =>
    simp only [hvalue, clean_append] at h
    obtain ⟨n, hsome⟩ := clean_amount h.2
    rw [hvalue] at hsome
    exact nomatch hsome
  | some n =>
    simp only [hvalue, clean_append] at h ⊢
    have hamount := (amount_eq_some hvalue).2
    refine ⟨h.1, trivial, n, rfl, ?_⟩
    split at hamount
    · exact hamount
    · exact nomatch hamount

theorem checkDeductions_clean {currency deductions : Value}
    (h : Clean (checkDeductions currency deductions).issues) :
    (checkDeductions currency deductions).valid = true ∧ ∃ items amounts, deductions = .arr items ∧
      DeductionsOf amounts items ∧
      ((checkDeductions currency deductions).sum : ℚ) / 10 ^ 6 = amounts.sum := by
  have hfold : ∀ (entries : List (Value × ℕ)) (t : Tally),
      Clean (entries.foldl (checkDeduction currency) t).issues → Clean t.issues ∧
        (entries.foldl (checkDeduction currency) t).valid = t.valid ∧ ∃ amounts,
          DeductionsOf amounts (entries.map Prod.fst) ∧
          ((entries.foldl (checkDeduction currency) t).sum : ℚ) / 10 ^ 6 =
            t.sum / 10 ^ 6 + amounts.sum := by
    intro entries
    induction entries with
    | nil => exact fun t ht => ⟨ht, rfl, [], .nil, by simp⟩
    | cons entry rest ih =>
      intro t ht
      obtain ⟨hclean, hvalid, amounts, hof, hsum⟩ := ih _ ht
      obtain ⟨hissues, hsame, n, hn, hamount⟩ := checkDeduction_clean hclean
      refine ⟨hissues, hvalid.trans hsame, (n : ℚ) / 10 ^ 6 :: amounts, .cons hamount hof, ?_⟩
      rw [List.foldl_cons, hsum, hn, List.sum_cons]
      push_cast
      ring
  unfold checkDeductions at h ⊢
  cases deductions with
  | arr items =>
    by_cases hlength : items.length > 1000
    · simp only [if_pos hlength] at h
      exact absurd h not_clean_problem
    · simp only [if_neg hlength] at h ⊢
      obtain ⟨_, hvalid, amounts, hof, hsum⟩ := hfold _ _ h
      refine ⟨hvalid, items, amounts, rfl, by simpa using hof, ?_⟩
      rw [hsum]
      simp
  | undefined | null | bool | num | bigint | str | obj | other =>
    exact absurd h not_clean_problem

/-- The moment that a date names. -/
def DateOf (m : Moment) (value : Value) : Prop :=
  ∃ t, value = .str t ∧ matchesDate t = true ∧ m = moment t

theorem clean_date {value : Value} {path : String} (h : Clean (date value path).1) :
    ∃ t, value = .str t ∧ isDate t = true ∧ (date value path).2 = some (normalized t) := by
  cases value with
  | str t =>
    unfold date at h ⊢
    by_cases hdate : isDate t = true
    · simp only [if_pos hdate]
      exact ⟨t, rfl, hdate, rfl⟩
    · simp only [if_neg hdate] at h
      exact absurd h not_clean_problem
  | undefined | null | bool | num | bigint | arr | obj | other =>
    exact absurd h not_clean_problem

theorem checkDates_clean {issued due : Value} (h : Clean (checkDates issued due)) :
    ∃ m n, DateOf m issued ∧ DateOf n due ∧ m.Real ∧ n.Real ∧ m.instant ≤ n.instant := by
  unfold checkDates at h
  simp only [clean_append] at h
  obtain ⟨a, rfl, ha, hissued⟩ := clean_date h.1.1
  obtain ⟨b, rfl, hb, hdue⟩ := clean_date h.1.2
  have horder := h.2
  rw [hissued, hdue] at horder
  have hle := instant_le_of_not_lt ha hb (clean_guard.mp horder)
  simp only [isDate, Bool.and_eq_true, decide_eq_true_eq] at ha hb
  exact ⟨moment a, moment b, ⟨a, rfl, ha.1, rfl⟩, ⟨b, rfl, hb.1, rfl⟩, ha.2, hb.2, hle⟩

structure InvoiceFigures where
  lines : List LineFigures
  deductions : List ℚ
  subtotal : ℚ
  total : ℚ
  paid : ℚ
  issued : Moment
  due : Moment
  settled : Bool

/-- The figures that a body states. -/
structure InvoiceFigures.Of (f : InvoiceFigures) (body : Value) : Prop where
  lines : ∃ items, field body "line_items" = .arr items ∧
    List.Forall₂ LineFigures.Of f.lines items
  deductions : ∃ items, field body "deductions" = .arr items ∧ DeductionsOf f.deductions items
  subtotal : amountOf (field body "subtotal") = some f.subtotal
  total : amountOf (field body "total") = some f.total
  paid : amountOf (field body "paid_amount") = some f.paid
  issued : DateOf f.issued (field body "issued_at")
  due : DateOf f.due (field body "due_at")
  settled : f.settled = isOneOf ["paid"] (field body "status")

/-- The figures are those that exact arithmetic gives. -/
structure InvoiceFigures.Sound (f : InvoiceFigures) : Prop where
  line : ∀ l ∈ f.lines, l.Sound
  subtotal : f.subtotal = (f.lines.map LineFigures.amount).sum
  total : f.total = f.subtotal - f.deductions.sum
  total_nonneg : 0 ≤ f.total
  paid : 0 ≤ f.paid ∧ f.paid ≤ f.total
  settled : f.settled = true → f.paid = f.total
  dates : f.issued.Real ∧ f.due.Real
  due : f.issued.instant ≤ f.due.instant

theorem checkPayment_clean {status : Value} {paid total : ℤ}
    (h : Clean (checkPayment status (some paid) (some total))) :
    paid ≤ total ∧ (isOneOf ["paid"] status = true → paid = total) := by
  unfold checkPayment at h
  simp only [clean_append, clean_guard] at h
  refine ⟨by omega, ?_⟩
  intro hstatus
  have hpaid := h.1.2
  simp only [hstatus, Bool.true_and, decide_eq_true_eq] at hpaid
  exact not_not.mp hpaid

/-- Whatever the body and the resolver, a report is returned, and an invoice reported valid
states the figures that exact arithmetic gives. -/
theorem validateInvoice_sound (body : Value) (resolveReference : Option Resolver) :
    ∃ r, validateInvoice body resolveReference = .ok r ∧ (r.valid = true →
      ∃ f : InvoiceFigures, f.Of body ∧ f.Sound) := by
  unfold validateInvoice
  by_cases hobject : body.isObject = true
  · simp only [if_pos hobject]
    obtain ⟨lines, hlines, hgathers⟩ := checkLines_returns
      (field (field body "total") "currency") (field body "line_items")
    rw [hlines]
    simp only [ok_bind]
    refine ⟨_, rfl, ?_⟩
    intro hvalid
    simp only [report_valid, clean_append] at hvalid
    obtain ⟨⟨⟨⟨⟨⟨⟨⟨⟨⟨_, hofSubtotal⟩, hofTotal⟩, hofPaid⟩, hofLines⟩, hsum⟩, hofDeductions⟩,
      hdifference⟩, hpayment⟩, hdates⟩, _⟩ := hvalid
    obtain ⟨subtotal, hsubtotal⟩ := clean_amount hofSubtotal
    obtain ⟨total, htotal⟩ := clean_amount hofTotal
    obtain ⟨paid, hpaid⟩ := clean_amount hofPaid
    obtain ⟨hlinesValid, items, figures, hitems, hgathered⟩ := hgathers hofLines
    obtain ⟨hdeductionsValid, taken, amounts, htaken, hamounts, hdeductions⟩ :=
      checkDeductions_clean hofDeductions
    obtain ⟨issued, due, hissued, hdue, hreal, hreal', hle⟩ := checkDates_clean hdates
    rw [hlinesValid, if_pos rfl, hsubtotal] at hsum
    rw [hpaid, htotal] at hpayment
    rw [hsubtotal, htotal] at hdifference
    simp only [checkTotal, hdeductionsValid, if_true, clean_append] at hdifference
    have hsubtotalExact := eq_of_clean_equal hsum
    have htotalExact := eq_of_clean_equal hdifference.2
    have hpaidExact := checkPayment_clean hpayment
    have hpositive := (amount_eq_some htotal).1
    have hpaidPositive := (amount_eq_some hpaid).1
    refine ⟨⟨figures, amounts, subtotal / 10 ^ 6, total / 10 ^ 6, paid / 10 ^ 6, issued, due,
      isOneOf ["paid"] (field body "status")⟩, ?_, ?_⟩
    · exact ⟨⟨items, hitems, hgathered.of⟩, ⟨taken, htaken, hamounts⟩,
        (amount_eq_some hsubtotal).2, (amount_eq_some htotal).2, (amount_eq_some hpaid).2,
        hissued, hdue, rfl⟩
    · refine ⟨hgathered.sound, ?_, ?_, ?_, ⟨?_, ?_⟩, ?_, ⟨hreal, hreal'⟩, hle⟩
      · rw [← hgathered.sum, hsubtotalExact]
      · show (total : ℚ) / 10 ^ 6 = subtotal / 10 ^ 6 - amounts.sum
        rw [htotalExact, ← hdeductions]
        push_cast
        ring
      · show (0 : ℚ) ≤ total / 10 ^ 6
        have : (0 : ℚ) ≤ total := by exact_mod_cast hpositive
        positivity
      · show (0 : ℚ) ≤ paid / 10 ^ 6
        have : (0 : ℚ) ≤ paid := by exact_mod_cast hpaidPositive
        positivity
      · show (paid : ℚ) / 10 ^ 6 ≤ total / 10 ^ 6
        have : (paid : ℚ) ≤ total := by exact_mod_cast hpaidExact.1
        gcongr
      · intro hsettled
        show (paid : ℚ) / 10 ^ 6 = total / 10 ^ 6
        rw [hpaidExact.2 hsettled]
  · simp only [if_neg hobject]
    refine ⟨_, rfl, ?_⟩
    intro hvalid
    exact absurd (report_valid.mp hvalid) not_clean_problem

def sampleMoney (amount : String) : Value :=
  .obj [(units "amount", .str (units amount)), (units "currency", .str (units "USD"))]

/-- An invoice of one line whose amount is rounded at the sixth place. -/
def sampleInvoice : Value :=
  .obj [(units "line_items", .arr [.obj [
      (units "quantity", .obj [(units "amount", .str (units "0.005")),
        (units "unit", .str (units "kg"))]),
      (units "unit_price", sampleMoney "1.0001"),
      (units "amount", sampleMoney "0.005001")]]),
    (units "subtotal", sampleMoney "0.005001"),
    (units "deductions", .arr []),
    (units "total", sampleMoney "0.005001"),
    (units "paid_amount", sampleMoney "0"),
    (units "issued_at", .str (units "2024-02-29T00:00:00Z")),
    (units "due_at", .str (units "2024-03-01T00:00:00.5Z")),
    (units "contract_id", .str (units "00000000-0000-4000-8000-000000000001")),
    (units "settlement_event_ids", .arr [])]

theorem validateInvoice_sound_sample :
    ∃ f : InvoiceFigures, f.Of sampleInvoice ∧ f.Sound := by
  have hvalid : (validateInvoice sampleInvoice none).map ValidationReport.valid = .ok true := by
    decide
  obtain ⟨r, hr, hsound⟩ := validateInvoice_sound sampleInvoice none
  rw [hr] at hvalid
  exact hsound (Except.ok.inj hvalid)

end DirectTrade.Business
