import DirectTrade.Library.Outcome
import DirectTrade.Store.Registry

/-!
The checks of a write against the record that it supersedes: which roles the writer has, which
members of the body may change, which changes of the status are allowed to whom, and the rules
of single types.
-/

namespace DirectTrade.Store

open Library.Outcome

inductive ErrorCode where
  | badRequest
  | envelopeInvalid
  | schemaInvalid
  | unknownType
  | authRequired
  | authInvalid
  | signatureInvalid
  | issuerMismatch
  | keyInactive
  | forbidden
  | grantMissing
  | issuerNotParty
  | notFound
  | duplicateRecordId
  | supersedesConflict
  | transitionForbidden
  | internal
  deriving DecidableEq

structure StoreError where
  code : ErrorCode
  message : String
  deriving DecidableEq

abbrev Checked := Except StoreError

def transitionForbidden (message : String) : StoreError := ⟨.transitionForbidden, message⟩

/-- A member of a body, `null` if it is missing. -/
def value (body : Json) (field : String) : Json := (body.member? field).getD .null

/-- Identity of values: two arrays or two objects are never the same one. -/
def same : Json → Json → Bool
  | .arr _, _ | .obj _, _ => false
  | a, b => a == b

def sameMember : Option Json → Option Json → Bool
  | none, none => true
  | some a, some b => same a b
  | _, _ => false

def truthy : Json → Bool
  | .null => false
  | .bool b => b
  | .num n => n != 0
  | .str s => s != ""
  | .arr _ | .obj _ => true

mutual

/-- The text of a value as part of a message. -/
def textOf : Json → String
  | .null => "null"
  | .bool true => "true"
  | .bool false => "false"
  | .num n => toString n
  | .str s => s
  | .arr items => textOfItems items
  | .obj _ => "[object Object]"

def textOfItems : List Json → String
  | [] => ""
  | [a] => textOfItem a
  | a :: rest => textOfItem a ++ "," ++ textOfItems rest

def textOfItem : Json → String
  | .null => ""
  | a => textOf a

end

theorem same_eq {a b : Json} (h : same a b = true) : a = b := by
  cases a with
  | arr items => exact nomatch h
  | obj members => exact nomatch h
  | null | bool v | num v | str v => exact beq_iff_eq.mp h

structure PartyContext where
  issuerCompanyId : String
  subjectCompanyId : String
  counterpartyIds : List String
  deriving DecidableEq

/-- The roles that the issuer has by a body and by the parties of the record. -/
def rolesOf (info : TypeInfo) (body : Json) (party : PartyContext) : List String :=
  "any" :: (if party.issuerCompanyId = party.subjectCompanyId then ["subject"] else [])
    ++ (if party.issuerCompanyId ∈ party.counterpartyIds then ["counterparty"] else [])
    ++ (info.roles.filter fun r => body.member? r.2 == some (.str party.issuerCompanyId)).map
      Prod.fst

def statusOf (info : TypeInfo) (body : Json) : Option String :=
  match info.transitions.bind Transitions.statusField with
  | none => none
  | some field =>
    match body.member? field with
    | some (.str s) => some s
    | _ => none

/-- The members that name roles stay as they are; a third party may be appointed once, and is no
party of the record. -/
def checkRole (info : TypeInfo) (prev : Option Json) (new : Json) (party : PartyContext)
    (r : String × String) : Checked Unit := do
  demand (transitionForbidden
      (r.1 ++ " must be a third party, not the subject or a counterparty"))
    (¬ (r.1 ∈ info.thirdPartyRoles ∧ ∃ c ∈ party.subjectCompanyId :: party.counterpartyIds,
      value new r.2 = .str c))
  match prev with
  | none => pure ()
  | some body =>
    demand (transitionForbidden (r.2 ++ " cannot change across a supersede ("
        ++ textOf (value body r.2) ++ " -> " ++ textOf (value new r.2) ++ ")"))
      (same (value body r.2) (value new r.2) = true ∨
        (value body r.2 = .null ∧ r.1 ∈ info.thirdPartyRoles))

def checkRoleContinuity (info : TypeInfo) (prev : Option Json) (new : Json)
    (party : PartyContext) : Checked Unit :=
  each (checkRole info prev new party) info.roles

def join (texts : List String) : String := ", ".intercalate texts

def allowed (roles names : List String) : Prop := ∃ r ∈ names, r ∈ roles

instance (roles names : List String) : Decidable (allowed roles names) :=
  inferInstanceAs (Decidable (∃ r ∈ names, r ∈ roles))

/-- Whether the immutable members are locked in a record with this body. -/
def locked (info : TypeInfo) (body : Json) : Prop :=
  ∀ statuses, info.lockAfterStatuses = some statuses →
    (statusOf info body).getD "null" ∈ statuses

instance (info : TypeInfo) (body : Json) : Decidable (locked info body) :=
  match h : info.lockAfterStatuses with
  | none => isTrue fun _ heq => nomatch h.symm.trans heq
  | some statuses =>
    decidable_of_iff ((statusOf info body).getD "null" ∈ statuses)
      ⟨fun hmem _ heq => Option.some.inj (h.symm.trans heq) ▸ hmem, fun hall => hall _ h⟩

def checkLocks (info : TypeInfo) (prev new : Json) : Checked Unit := do
  demand (transitionForbidden
      (info.type ++ " cannot be superseded; append a compensating record"))
    (info.appendOnly = false)
  if locked info prev then
    each (fun field => demand (transitionForbidden
        (info.type ++ "." ++ field ++ " is immutable; amendments require a new agreement"))
      (value prev field = value new field)) info.immutableFields
  else pure ()

/-- The transitions of the table from one status to another. -/
def Transitions.between (t : Transitions) (prev next : Option String) : List Transition :=
  t.transitions.filter fun tr => some tr.old == prev && some tr.new == next

def checkStatus (info : TypeInfo) (t : Transitions) (prev next : Option String)
    (roles : List String) : Checked Unit :=
  if t.between prev next ≠ [] then
    demand (transitionForbidden (prev.getD "null" ++ " -> " ++ next.getD "null" ++ " on "
        ++ info.type ++ " may only be done by: "
        ++ join ((t.between prev next).flatMap Transition.roles).dedup))
      (∃ tr ∈ t.between prev next, allowed roles tr.roles)
  else if prev = next then
    demand (transitionForbidden ("same-status revisions of " ++ info.type ++ " require: "
        ++ join (info.revisionBy.getD ["subject"])))
      (allowed roles (info.revisionBy.getD ["subject"]))
  else
    .error (transitionForbidden ("no transition " ++ prev.getD "null" ++ " -> "
      ++ next.getD "null" ++ " for " ++ info.type))

def checkInitial (info : TypeInfo) (t : Transitions) (next : Option String)
    (roles : List String) : Checked Unit := do
  demand (transitionForbidden (info.type ++ " may only be created by: " ++ join t.initialBy))
    (allowed roles t.initialBy)
  demand (transitionForbidden (info.type ++ " must start in one of: " ++ join t.initialStatus))
    (t.statusField = none ∨ t.initialStatus = [] ∨ ∃ s ∈ t.initialStatus, next = some s)

def checkTransition (info : TypeInfo) (prev : Option Json) (new : Json) (roles : List String) :
    Checked Unit :=
  match prev with
  | none =>
    match info.transitions with
    | none => .ok ()
    | some t => checkInitial info t (statusOf info new) roles
  | some body => do
    checkLocks info body new
    match info.transitions with
    | none =>
      demand (transitionForbidden "only the subject may supersede this record")
        ("subject" ∈ roles)
    | some t =>
      if t.statusField = none then
        demand (transitionForbidden
          "only the subject may supersede a record without a status machine") ("subject" ∈ roles)
      else checkStatus info t (statusOf info body) (statusOf info new) roles

/-- A buyer's acknowledgment or dispute is no authority over the seller's payment accounting. -/
def checkAccounting (env : Envelope) (prev : Option Json) : Checked Unit :=
  match prev with
  | none => .ok ()
  | some before =>
    if before.member? "seller_company_id" = some (.str env.issuer.companyId) then .ok ()
    else each (fun field => demand 
      (transitionForbidden ("only the seller may change invoice " ++ field))
      (value before field = value env.body field)) ["paid_amount", "settlement_event_ids"]

def assignedTo (body : Json) : Json := value body "assigned_to_company_id"

def checkInvoice (env : Envelope) (prev : Option Json) : Checked Unit := do
  checkAccounting env prev
  let before := (prev.map assignedTo).getD .null
  demand (transitionForbidden ("invoice assignment cannot be removed or reassigned; "
      ++ "an assignment-release protocol is not defined in v0.2"))
    (before = .null ∨ same (assignedTo env.body) before = true)
  demand (transitionForbidden "only the seller may assign an invoice")
    (same (assignedTo env.body) before = true ∨
      env.body.member? "seller_company_id" = some (.str env.issuer.companyId))

/-- Whether an attestation is by the party that a member of the body names, in this record. -/
def attests (env : Envelope) (attestation party : String) : Prop :=
  sameMember ((env.body.member? attestation).bind (·.member? "company_id"))
      (env.body.member? party) = true ∧
    (env.body.member? attestation).bind (·.member? "record_id") = some (.str env.recordId)

instance (env : Envelope) (attestation party : String) :
    Decidable (attests env attestation party) :=
  inferInstanceAs (Decidable (_ ∧ _))

def checkFulfillment (env : Envelope) (prev : Option Json) : Checked Unit :=
  let status := env.body.member? "status"
  let issuer := some (Json.str env.issuer.companyId)
  match prev with
  | none => do
    demand (transitionForbidden
        "seller attestation must identify the seller and this exact signed genesis version")
      (attests env "seller_attestation" "seller_company_id")
    demand (transitionForbidden "seller genesis cannot contain a buyer attestation")
      (env.body.member? "buyer_attestation" = some .null)
  | some before => do
    demand (transitionForbidden "an existing buyer attestation cannot be changed or removed")
      (value before "buyer_attestation" = .null ∨
        value before "buyer_attestation" = value env.body "buyer_attestation")
    demand (transitionForbidden ("only the buyer can add an attestation, "
        ++ "identifying this exact signed buyer_attested version"))
      (value before "buyer_attestation" ≠ .null ∨
        env.body.member? "buyer_attestation" = some .null ∨
        (env.body.member? "buyer_company_id" = issuer ∧ status = some (.str "buyer_attested") ∧
          attests env "buyer_attestation" "buyer_company_id"))
    demand (transitionForbidden "buyer_attested requires buyer_attestation")
      (status = some (.str "buyer_attested") →
        truthy (value env.body "buyer_attestation") = true)
    demand (transitionForbidden ("deductions may only be established by the buyer when "
        ++ "acknowledging or disputing seller-attested delivery"))
      (value before "deductions" = value env.body "deductions" ∨
        (before.member? "status" = some (.str "seller_attested") ∧
          env.body.member? "buyer_company_id" = issuer ∧
          textOf (value env.body "status") ∈ ["buyer_attested", "disputed"]))

/-- The rules of single types. -/
def checkIntegrity (env : Envelope) (prev : Option Json) : Checked Unit :=
  if env.type = "finance.invoice" then checkInvoice env prev
  else if env.type = "trade.fulfillment" then checkFulfillment env prev
  else .ok ()

end DirectTrade.Store
