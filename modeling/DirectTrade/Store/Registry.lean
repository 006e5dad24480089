import DirectTrade.Store.Tables

/-!
The registry of record types: who may write a type, which roles its body names, and the state
machine of its status.
-/

namespace DirectTrade.Store

/-- A change of status with the roles that may make it. -/
structure Transition where
  old : String
  new : String
  roles : List String
  deriving DecidableEq

structure Transitions where
  statusField : Option String
  initialStatus : List String
  initialBy : List String
  transitions : List Transition
  deriving DecidableEq

structure TypeInfo where
  type : String
  schemaVersions : List String := ["0.2"]
  writableBy : List PrincipalKind
  /-- The member of the body that names the subject, or `self`. -/
  subject : String
  /-- Roles with the members of the body that name who has them. -/
  roles : List (String × String)
  transitions : Option Transitions
  appendOnly : Bool := false
  immutableFields : List String := []
  /-- Where given, the immutable fields are free until the status is one of these. -/
  lockAfterStatuses : Option (List String) := none
  /-- The roles that may revise a record without a change of its status. -/
  revisionBy : Option (List String) := none
  thirdPartyRoles : List String := []
  deriving DecidableEq

def coreCompany : TypeInfo where
  type := "core.company"
  writableBy := [.company]
  subject := "self"
  roles := []
  transitions := none

def coreModule : TypeInfo where
  type := "core.module"
  writableBy := [.company, .module]
  subject := "publisher_company_id"
  roles := []
  transitions := none

def coreGrant : TypeInfo where
  type := "core.grant"
  writableBy := [.company]
  subject := "self"
  roles := []
  transitions := some {
    statusField := some "status"
    initialStatus := ["active"]
    initialBy := ["subject"]
    transitions := [⟨"active", "revoked", ["subject"]⟩, ⟨"active", "active", ["subject"]⟩] }

def tradeIntent : TypeInfo where
  type := "trade.intent"
  writableBy := [.company, .module]
  subject := "buyer_company_id"
  roles := [("buyer", "buyer_company_id")]
  transitions := some {
    statusField := some "status"
    initialStatus := ["draft", "posted"]
    initialBy := ["buyer"]
    transitions := [⟨"draft", "posted", ["buyer"]⟩, ⟨"draft", "cancelled", ["buyer"]⟩,
      ⟨"posted", "matched", ["buyer"]⟩, ⟨"posted", "cancelled", ["buyer"]⟩,
      ⟨"posted", "expired", ["buyer"]⟩, ⟨"matched", "contracted", ["buyer"]⟩,
      ⟨"matched", "cancelled", ["buyer"]⟩, ⟨"contracted", "fulfilled", ["buyer"]⟩,
      ⟨"fulfilled", "settled", ["buyer"]⟩] }

def tradeListing : TypeInfo where
  type := "trade.listing"
  writableBy := [.company, .module]
  subject := "seller_company_id"
  roles := [("seller", "seller_company_id")]
  transitions := some {
    statusField := some "status"
    initialStatus := ["draft", "active"]
    initialBy := ["seller"]
    transitions := [⟨"draft", "active", ["seller"]⟩, ⟨"draft", "withdrawn", ["seller"]⟩,
      ⟨"active", "matched", ["seller"]⟩, ⟨"active", "withdrawn", ["seller"]⟩,
      ⟨"active", "expired", ["seller"]⟩, ⟨"matched", "contracted", ["seller"]⟩,
      ⟨"matched", "withdrawn", ["seller"]⟩] }

def tradeOffer : TypeInfo where
  type := "trade.offer"
  writableBy := [.company, .module]
  subject := "offerer_company_id"
  roles := [("offerer", "offerer_company_id"), ("target_owner", "target_owner_company_id")]
  transitions := some {
    statusField := some "status"
    initialStatus := ["submitted"]
    initialBy := ["offerer"]
    transitions := [⟨"submitted", "shortlisted", ["target_owner"]⟩,
      ⟨"submitted", "accepted", ["target_owner"]⟩, ⟨"submitted", "rejected", ["target_owner"]⟩,
      ⟨"submitted", "retracted", ["offerer"]⟩,
      ⟨"submitted", "expired", ["offerer", "target_owner"]⟩,
      ⟨"shortlisted", "accepted", ["target_owner"]⟩,
      ⟨"shortlisted", "rejected", ["target_owner"]⟩, ⟨"shortlisted", "retracted", ["offerer"]⟩,
      ⟨"shortlisted", "expired", ["offerer", "target_owner"]⟩] }

def tradeContract : TypeInfo where
  type := "trade.contract"
  writableBy := [.company, .module]
  subject := "buyer_company_id"
  roles := [("buyer", "buyer_company_id"), ("seller", "seller_company_id"),
    ("arbitrator", "arbitrator_company_id")]
  transitions := some {
    statusField := some "status"
    initialStatus := ["active"]
    initialBy := ["buyer", "seller"]
    transitions := [⟨"active", "in_fulfillment", ["seller"]⟩,
      ⟨"active", "cancelled", ["buyer", "seller"]⟩, ⟨"in_fulfillment", "delivered", ["buyer"]⟩,
      ⟨"in_fulfillment", "delivered", ["seller"]⟩, ⟨"in_fulfillment", "disputed", ["buyer"]⟩,
      ⟨"delivered", "settled", ["buyer"]⟩, ⟨"disputed", "resolved_buyer", ["arbitrator"]⟩,
      ⟨"disputed", "resolved_seller", ["arbitrator"]⟩, ⟨"resolved_buyer", "settled", ["buyer"]⟩,
      ⟨"resolved_seller", "settled", ["buyer"]⟩] }
  immutableFields := ["buyer_company_id", "seller_company_id", "intent_id", "listing_id",
    "offer_id", "standing_agreement_id", "lot_id", "buyer_po_number", "goods", "delivery",
    "finance", "freight", "price_per_unit", "total_value", "escrow_ref", "dispute_window_hours"]
  thirdPartyRoles := ["arbitrator"]

def tradeFulfillment : TypeInfo where
  type := "trade.fulfillment"
  writableBy := [.company, .module]
  subject := "seller_company_id"
  roles := [("seller", "seller_company_id"), ("buyer", "buyer_company_id")]
  transitions := some {
    statusField := some "status"
    initialStatus := ["seller_attested"]
    initialBy := ["seller"]
    transitions := [⟨"seller_attested", "buyer_attested", ["buyer"]⟩,
      ⟨"seller_attested", "disputed", ["buyer"]⟩, ⟨"seller_attested", "complete", ["seller"]⟩,
      ⟨"buyer_attested", "complete", ["buyer", "seller"]⟩,
      ⟨"disputed", "complete", ["buyer", "seller"]⟩] }
  immutableFields := ["contract_id", "seller_company_id", "buyer_company_id", "delivered_at",
    "quantity_delivered", "seller_attestation"]

def tradeSettlement : TypeInfo where
  type := "trade.settlement"
  writableBy := [.company, .module]
  subject := "buyer_company_id"
  roles := [("buyer", "buyer_company_id"), ("seller", "seller_company_id")]
  transitions := some {
    statusField := none
    initialStatus := []
    initialBy := ["buyer"]
    transitions := [] }
  appendOnly := true

def tradeStandingAgreement : TypeInfo where
  type := "trade.standing_agreement"
  writableBy := [.company, .module]
  subject := "proposer_company_id"
  roles := [("proposer", "proposer_company_id"), ("buyer", "buyer_company_id"),
    ("seller", "seller_company_id")]
  transitions := some {
    statusField := some "status"
    initialStatus := ["proposed"]
    initialBy := ["proposer"]
    transitions := [⟨"proposed", "countered", ["buyer", "seller"]⟩,
      ⟨"proposed", "active", ["buyer", "seller"]⟩,
      ⟨"proposed", "terminated", ["buyer", "seller"]⟩,
      ⟨"countered", "active", ["buyer", "seller"]⟩,
      ⟨"countered", "countered", ["buyer", "seller"]⟩,
      ⟨"countered", "terminated", ["buyer", "seller"]⟩,
      ⟨"active", "completed", ["buyer", "seller"]⟩,
      ⟨"active", "terminated", ["buyer", "seller"]⟩] }

def financeInvoice : TypeInfo where
  type := "finance.invoice"
  writableBy := [.company, .module]
  subject := "seller_company_id"
  roles := [("seller", "seller_company_id"), ("buyer", "buyer_company_id")]
  transitions := some {
    statusField := some "status"
    initialStatus := ["draft", "issued"]
    initialBy := ["seller"]
    transitions := [⟨"draft", "issued", ["seller"]⟩, ⟨"draft", "void", ["seller"]⟩,
      ⟨"issued", "acknowledged", ["buyer"]⟩, ⟨"issued", "disputed", ["buyer"]⟩,
      ⟨"issued", "partially_paid", ["seller"]⟩, ⟨"issued", "paid", ["seller"]⟩,
      ⟨"issued", "void", ["seller"]⟩, ⟨"acknowledged", "partially_paid", ["seller"]⟩,
      ⟨"acknowledged", "paid", ["seller"]⟩, ⟨"acknowledged", "disputed", ["buyer"]⟩,
      ⟨"disputed", "acknowledged", ["buyer"]⟩, ⟨"disputed", "void", ["seller"]⟩,
      ⟨"partially_paid", "paid", ["seller"]⟩] }
  immutableFields := ["invoice_number", "seller_company_id", "buyer_company_id", "contract_id",
    "fulfillment_id", "line_items", "subtotal", "deductions", "total", "issued_at", "due_at",
    "payment_terms"]
  lockAfterStatuses := some ["issued", "acknowledged", "disputed", "partially_paid", "paid",
    "void"]

def financeAdvanceOffer : TypeInfo where
  type := "finance.advance_offer"
  writableBy := [.company, .module]
  subject := "seller_company_id"
  roles := [("seller", "seller_company_id"), ("financer", "financer_company_id")]
  transitions := some {
    statusField := some "status"
    initialStatus := ["offered"]
    initialBy := ["financer"]
    transitions := [⟨"offered", "accepted", ["seller"]⟩, ⟨"offered", "declined", ["seller"]⟩,
      ⟨"offered", "withdrawn", ["financer"]⟩, ⟨"offered", "expired", ["seller", "financer"]⟩] }
  immutableFields := ["invoice_id", "seller_company_id", "financer_company_id", "advance_amount",
    "advance_bps", "fee", "repayment", "recourse", "pricing_basis", "expires_at"]
  revisionBy := some ["financer"]

def financeAdvance : TypeInfo where
  type := "finance.advance"
  writableBy := [.company, .module]
  subject := "seller_company_id"
  roles := [("seller", "seller_company_id"), ("financer", "financer_company_id")]
  transitions := some {
    statusField := some "status"
    initialStatus := ["funded"]
    initialBy := ["financer"]
    transitions := [⟨"funded", "partially_repaid", ["financer"]⟩,
      ⟨"funded", "repaid", ["financer"]⟩, ⟨"funded", "defaulted", ["financer"]⟩,
      ⟨"partially_repaid", "repaid", ["financer"]⟩,
      ⟨"partially_repaid", "defaulted", ["financer"]⟩, ⟨"defaulted", "repaid", ["financer"]⟩,
      ⟨"defaulted", "written_off", ["financer"]⟩] }
  immutableFields := ["advance_offer_id", "invoice_id", "seller_company_id",
    "financer_company_id", "principal", "fee", "funded_at", "funding_event_id", "maturity_at"]
  revisionBy := some ["financer"]

def financeSettlementEvent : TypeInfo where
  type := "finance.settlement_event"
  writableBy := [.company, .module]
  subject := "from_company_id"
  roles := [("payer", "from_company_id"), ("payee", "to_company_id")]
  transitions := some {
    statusField := none
    initialStatus := []
    initialBy := ["payer"]
    transitions := [] }
  appendOnly := true

def traceabilityCte : TypeInfo where
  type := "traceability.cte"
  writableBy := [.company, .module]
  subject := "actor_company_id"
  roles := [("actor", "actor_company_id")]
  transitions := some {
    statusField := none
    initialStatus := []
    initialBy := ["actor"]
    transitions := [] }

def traceabilityCoaAnchor : TypeInfo where
  type := "traceability.coa_anchor"
  writableBy := [.company, .module]
  subject := "company_id"
  roles := [("anchor", "company_id")]
  transitions := some {
    statusField := none
    initialStatus := []
    initialBy := ["anchor"]
    transitions := [] }

def types : List TypeInfo := [coreCompany, coreModule, coreGrant, tradeIntent, tradeListing,
  tradeOffer, tradeContract, tradeFulfillment, tradeSettlement, tradeStandingAgreement,
  financeInvoice, financeAdvanceOffer, financeAdvance, financeSettlementEvent, traceabilityCte,
  traceabilityCoaAnchor]

def typeInfo (type : String) : Option TypeInfo := types.find? (·.type == type)

theorem mem_of_typeInfo {type : String} {info : TypeInfo} (h : typeInfo type = some info) :
    info ∈ types := List.mem_of_find?_eq_some h

end DirectTrade.Store
