import DirectTrade.Foundation.Datatypes
import DirectTrade.Library.Sweep

/-!
Provider commitments: one company's capacity, quoted over windows of time, held, confirmed
and fulfilled. Callers authenticate commands and store states; the clock is the host's.
-/

namespace DirectTrade.Foundation.Commitments

open Library Outcome

inductive CommitmentCode where
  | invalidCommitment
  | conflict
  | expired
  | capacity
  | policy
  deriving DecidableEq

inductive Refusal where
  | commitment (reason : String) (code : CommitmentCode)
  | datatype (message : String)
  deriving DecidableEq

abbrev Settled (α : Type) := Except Refusal α

def invalid (reason : String) : Refusal := .commitment reason .invalidCommitment

def datatype {α : Type} : Checked α → Settled α
  | .ok a => .ok a
  | .error message => .error (.datatype message)

@[simp] theorem datatype_eq_ok {α : Type} (x : Checked α) (a : α) :
    datatype x = .ok a ↔ x = .ok a := by
  cases x with
  | ok b => simp [datatype]
  | error message => simp [datatype]

/-- A half-open window of instants, in milliseconds. -/
structure InstantInterval where
  start : ℤ
  stop : ℤ
  deriving DecidableEq

inductive Inclusion where
  | included
  | excluded
  | unknown
  deriving DecidableEq

inductive Cancellation where
  | beforeFulfillment
  | never
  deriving DecidableEq

/-- The price is in millionths of its currency. A substitution takes a new quote. -/
structure Terms where
  amount : ℕ
  currency : ExternalIdentifier
  taxes : Inclusion
  fees : Inclusion
  cancellation : Cancellation
  combinedQuoteIssuer : Uuid
  buyerCounterparty : Uuid
  freightCostBearer : Uuid
  deriving DecidableEq

structure Quote where
  revision : RevisionReference
  previous : Option RevisionReference
  provider : EntityReference
  customer : EntityReference
  resource : EntityReference
  quantity : ℕ
  unit : ExternalIdentifier
  window : InstantInterval
  expiresAt : ℤ
  terms : Terms
  deriving DecidableEq

inductive CommitmentStatus where
  | held
  | expired
  | accepted
  | released
  | cancelled
  | fulfilling
  | completed
  | disputed
  deriving DecidableEq

structure Fulfillment where
  operationId : Uuid
  good : ℕ
  damaged : ℕ
  final : Bool
  evidence : RevisionReference
  deriving DecidableEq

structure Dispute where
  operationId : Uuid
  reason : String
  evidence : RevisionReference
  deriving DecidableEq

/-- Settlement is external and stays pending here. -/
structure CapacityHold where
  id : Uuid
  quote : RevisionReference
  expiresAt : ℤ
  status : CommitmentStatus
  good : ℕ
  damaged : ℕ
  fulfillmentClosed : Bool
  fulfillments : List Fulfillment
  disputes : List Dispute
  deriving DecidableEq

inductive ProviderAction where
  | quotePublish
  | hold
  | confirm
  | release
  | cancel
  | fulfill
  | dispute
  deriving DecidableEq

inductive ProviderPayload where
  | quotePublish (quote : Quote)
  | hold (holdId : Uuid) (quote : RevisionReference) (expiresAt : ℤ)
  | confirm (holdId : Uuid) (quote : RevisionReference)
  | release (holdId : Uuid) (quote : RevisionReference)
  | cancel (holdId : Uuid) (quote : RevisionReference)
  | fulfill (holdId : Uuid) (quote : RevisionReference) (good damaged : ℕ) (final : Bool)
      (evidence : RevisionReference)
  | dispute (holdId : Uuid) (quote : RevisionReference) (reason : String)
      (evidence : RevisionReference)
  deriving DecidableEq

def ProviderPayload.action : ProviderPayload → ProviderAction
  | .quotePublish .. => .quotePublish
  | .hold .. => .hold
  | .confirm .. => .confirm
  | .release .. => .release
  | .cancel .. => .cancel
  | .fulfill .. => .fulfill
  | .dispute .. => .dispute

structure ProviderCommand where
  operationId : Uuid
  payload : ProviderPayload
  deriving DecidableEq

inductive ReceiptStatus where
  | quoted
  | hold (status : CommitmentStatus)
  deriving DecidableEq

/-- What a provider accepted, as it was then. -/
structure ProviderReceipt where
  operationId : Uuid
  commandDigest : Digest
  action : ProviderAction
  holdId : Option Uuid
  quote : RevisionReference
  status : ReceiptStatus
  acceptedRevision : ℕ
  deriving DecidableEq

inductive PoolKind where
  | goods
  | warehouse
  | transport
  | staffing
  deriving DecidableEq

structure ProviderState where
  provider : EntityReference
  resource : EntityReference
  kind : PoolKind
  unit : ExternalIdentifier
  capacity : ℕ
  revision : ℕ
  lastAcceptedAt : ℤ
  quotes : List Quote
  holds : List CapacityHold
  receipts : List ProviderReceipt
  deriving DecidableEq

structure ProviderConfiguration where
  provider : EntityReference
  resource : EntityReference
  kind : PoolKind
  unit : ExternalIdentifier
  capacity : ℕ
  deriving DecidableEq

structure ExecutionContext where
  expectedRevision : ℕ
  acceptedAt : ℤ
  deriving DecidableEq

/-- The digest of a command over its canonical form. -/
class CommandDigest where
  digest : ProviderCommand → Digest

def array {α : Type} (v : List α) (max : ℕ) : Settled Unit :=
  demand (invalid "bounded array required") (v.length ≤ max)

def unique {α κ : Type} [DecidableEq κ] (v : List α) (key : α → κ) : Settled Unit :=
  demand (invalid "duplicate identity") (v.map key).Nodup

def units (v : ℕ) (positive : Bool) : Settled Unit :=
  demand (invalid "bounded integer units required")
    ((v : ℤ) ≤ maxSafeInteger ∧ (if positive then 1 else 0) ≤ v)

def company (v : EntityReference) : Settled Unit :=
  demand (invalid "company reference required") (v.kind = .organization)

def reason (v : String) : Settled Unit :=
  demand (invalid "bounded reason required")
    (0 < textLength v ∧ textLength v ≤ 500 ∧
      (v.toList.head?.all fun c => !isSpace c) = true ∧
      (v.toList.getLast?.all fun c => !isSpace c) = true ∧
      (v.toList.all fun c => 32 ≤ c.toNat) = true)

def parseInstantInterval (v : InstantInterval) : Checked Unit :=
  demand "interval must end after start at $.end" (v.start < v.stop)

def parseQuote (q : Quote) : Settled Unit := do
  company q.provider
  company q.customer
  demand (invalid "quote/provider/resource scope mismatch")
    (q.resource.kind = .resource ∧ q.resource.organizationId = some q.provider.id ∧
      q.revision.entity.kind = .record ∧ q.revision.entity.organizationId = some q.provider.id)
  demand (invalid "quote ancestry changes identity")
    (∀ p ∈ q.previous, p.entity = q.revision.entity)
  demand (invalid "bounded canonical decimal price required") (q.terms.amount < 10 ^ 24)
  units q.quantity true
  datatype (parseExternalIdentifier q.unit)
  datatype (parseInstantInterval q.window)
  datatype (parseExternalIdentifier q.terms.currency)

def parseCommand (c : ProviderCommand) : Settled Unit :=
  match c.payload with
  | .quotePublish q => parseQuote q
  | .hold .. | .confirm .. | .release .. | .cancel .. => pure ()
  | .fulfill _ _ good damaged _ _ => do
    units good false
    units damaged false
  | .dispute _ _ why _ => reason why

def parseReceipt (r : ProviderReceipt) : Settled Unit := units r.acceptedRevision true

def parseHold (h : CapacityHold) : Settled Unit := do
  array h.fulfillments 128
  each (fun f => do
    units f.good false
    units f.damaged false) h.fulfillments
  unique h.fulfillments Fulfillment.operationId
  array h.disputes 128
  each (fun d => reason d.reason) h.disputes
  unique h.disputes Dispute.operationId
  units h.good false
  units h.damaged false
  demand (invalid "fulfillment totals differ from evidence")
    ((h.fulfillments.map Fulfillment.good).sum = h.good ∧
      (h.fulfillments.map Fulfillment.damaged).sum = h.damaged)

/-- The quote of an exact revision. -/
def ProviderState.findQuote (s : ProviderState) (ref : RevisionReference) : Option Quote :=
  s.quotes.find? fun q => q.revision = ref

/-- A quote of the pool, after the quotes before it, the latest of them first. -/
def nextHead (s : ProviderState) (heads : List Quote) (q : Quote) : Settled (List Quote) := do
  demand (invalid "quote differs from pool")
    (q.resource = s.resource ∧ q.provider = s.provider ∧ q.unit = s.unit)
  demand (invalid "quote history is not contiguous")
    ((heads.find? fun p => p.revision.entity = q.revision.entity).map Quote.revision = q.previous)
  pure (q :: heads)

def withinQuote (s : ProviderState) (h : CapacityHold) : Settled Unit :=
  demand (invalid "hold differs from immutable quote")
    (∃ q ∈ s.findQuote h.quote, h.expiresAt ≤ q.expiresAt ∧ h.good + h.damaged ≤ q.quantity)

/-- What every stored state passes before it is used, and every new one before it is stored. -/
def parseState (s : ProviderState) : Settled Unit := do
  company s.provider
  datatype (parseExternalIdentifier s.unit)
  demand (invalid "pool/provider/kind mismatch")
    (s.resource.kind = .resource ∧ s.resource.organizationId = some s.provider.id)
  array s.quotes 256
  each parseQuote s.quotes
  unique s.quotes fun q => (q.revision.entity, q.revision.revisionId)
  let _ ← s.quotes.foldlM (nextHead s) []
  array s.holds 512
  each parseHold s.holds
  unique s.holds CapacityHold.id
  each (withinQuote s) s.holds
  units s.capacity true
  units s.revision false
  array s.receipts 1024
  each parseReceipt s.receipts
  unique s.receipts ProviderReceipt.operationId

def createProviderState (configuration : ProviderConfiguration) (acceptedAt : ℤ) :
    Settled ProviderState := do
  let s : ProviderState :=
    { provider := configuration.provider, resource := configuration.resource
      kind := configuration.kind, unit := configuration.unit, capacity := configuration.capacity
      revision := 0, lastAcceptedAt := acceptedAt, quotes := [], holds := [], receipts := [] }
  parseState s
  pure s

/-- The latest quote of the entity of a revision. -/
def currentQuote (s : ProviderState) (ref : RevisionReference) : Option Quote :=
  s.quotes.reverse.find? fun q => q.revision.entity = ref.entity

/-- An expired, released or cancelled hold takes no capacity. -/
def CommitmentStatus.reserves : CommitmentStatus → Bool
  | .expired | .released | .cancelled => false
  | .held | .accepted | .fulfilling | .completed | .disputed => true

def Quote.booking (q : Quote) : Sweep.Booking ℤ := ⟨q.window.start, q.window.stop, q.quantity⟩

/-- The bookings of the holds that take capacity. -/
def ProviderState.bookings (s : ProviderState) : List (Sweep.Booking ℤ) :=
  (s.holds.filter fun h => h.status.reserves).filterMap fun h =>
    (s.findQuote h.quote).map Quote.booking

/-- Whether one more quote fits the capacity beside the holds. -/
def reserveFits (s : ProviderState) (q : Quote) : Bool :=
  Sweep.sweep s.capacity (q.booking :: s.bookings)

/-- Holds that ran out are expired before a command is considered. -/
def CapacityHold.lapse (now : ℤ) (h : CapacityHold) : CapacityHold :=
  if h.status = .held ∧ h.expiresAt ≤ now then { h with status := .expired } else h

def ProviderState.lapse (s : ProviderState) (now : ℤ) : ProviderState :=
  { s with holds := s.holds.map (CapacityHold.lapse now) }

/-- The state with one hold changed. -/
def ProviderState.withHold (s : ProviderState) (h : CapacityHold) : ProviderState :=
  { s with holds := s.holds.map fun x => if x.id = h.id then h else x }

def publish (s : ProviderState) (q : Quote) (now : ℤ) : Settled ProviderState := do
  demand (invalid "quote belongs to another capacity pool")
    (q.provider = s.provider ∧ q.resource = s.resource ∧ q.unit = s.unit)
  demand (.commitment "quote expired" .expired) (now < q.expiresAt ∧ now < q.window.stop)
  demand (.commitment "quote previous-head conflict" .conflict)
    ((∀ old ∈ s.quotes, ¬(old.revision.revisionId = q.revision.revisionId ∧
        old.revision.entity = q.revision.entity)) ∧
      (currentQuote s q.revision).map Quote.revision = q.previous)
  demand (.commitment "quote capacity exhausted" .capacity) (s.quotes.length < 256)
  pure { s with quotes := s.quotes ++ [q] }

def exactQuote (s : ProviderState) (ref : RevisionReference) : Settled Quote :=
  require (invalid "exact quote unavailable") (s.findQuote ref)

def findHold (s : ProviderState) (holdId : Uuid) : Option CapacityHold :=
  s.holds.find? fun h => h.id = holdId

def reserve (s : ProviderState) (q : Quote) (holdId : Uuid) (expiresAt now : ℤ) :
    Settled CapacityHold := do
  demand (.commitment "hold identity conflict or capacity exhausted" .conflict)
    (findHold s holdId = none ∧ s.holds.length < 512)
  demand (.commitment "quote or hold expiry/current revision invalid" .expired)
    ((currentQuote s q.revision).map Quote.revision = some q.revision ∧ now < q.expiresAt ∧
      now < q.window.stop ∧ now < expiresAt ∧ expiresAt ≤ q.expiresAt)
  demand (.commitment "provider capacity unavailable" .capacity) (reserveFits s q = true)
  pure { id := holdId, quote := q.revision, expiresAt := expiresAt, status := .held, good := 0
         damaged := 0, fulfillmentClosed := false, fulfillments := [], disputes := [] }

/-- A hold under the quote that a command names. -/
def target (s : ProviderState) (q : Quote) (holdId : Uuid) : Settled CapacityHold :=
  require (.commitment "hold quote or provider cannot be substituted" .conflict)
    ((findHold s holdId).filter fun h => h.quote = q.revision)

def confirm (s : ProviderState) (q : Quote) (h : CapacityHold) (now : ℤ) :
    Settled CapacityHold := do
  demand (.commitment "hold/quote/window expired or superseded" .expired)
    (h.status = .held ∧ now < h.expiresAt ∧ now < q.expiresAt ∧ now < q.window.stop ∧
      (currentQuote s q.revision).map Quote.revision = some q.revision)
  pure { h with status := .accepted }

def release (h : CapacityHold) : Settled CapacityHold := do
  demand (.commitment "accepted commitment cannot be released" .policy)
    (h.status = .held ∨ h.status = .expired)
  pure { h with status := .released }

def cancel (q : Quote) (h : CapacityHold) : Settled CapacityHold := do
  demand (.commitment "commitment cancellation is not permitted" .policy)
    (h.status = .accepted ∧ q.terms.cancellation = .beforeFulfillment ∧ h.fulfillments.length = 0)
  pure { h with status := .cancelled }

/-- A short or damaged delivery is disputed, not completed. -/
def fulfill (q : Quote) (h : CapacityHold) (f : Fulfillment) : Settled CapacityHold := do
  demand (.commitment "commitment not open for fulfillment" .policy)
    ((h.status = .accepted ∨ h.status = .fulfilling ∨ h.status = .disputed) ∧
      h.fulfillmentClosed = false ∧ h.fulfillments.length < 128)
  let good := h.good + f.good
  let damaged := h.damaged + f.damaged
  demand (invalid "fulfillment exceeds committed integer quantity")
    (good + damaged ≤ q.quantity ∧ (0 < f.good + f.damaged ∨ f.final = true))
  pure { h with
    good := good
    damaged := damaged
    fulfillmentClosed := f.final
    fulfillments := h.fulfillments ++ [f]
    status :=
      if h.disputes.length ≠ 0 ∨ 0 < damaged ∨ (f.final = true ∧ good < q.quantity) then .disputed
      else if f.final then .completed else .fulfilling }

def contest (h : CapacityHold) (d : Dispute) : Settled CapacityHold := do
  demand (.commitment "commitment cannot be disputed in this state" .policy)
    ((h.status = .accepted ∨ h.status = .fulfilling ∨ h.status = .completed ∨
      h.status = .disputed) ∧ h.disputes.length < 128)
  pure { h with disputes := h.disputes ++ [d], status := .disputed }

/-- The state after a command, the quote it is about, and the hold it left if it has one. -/
structure Effect where
  state : ProviderState
  quote : RevisionReference
  hold : Option CapacityHold

/-- A change of the hold that a command names. -/
def changeHold (s : ProviderState) (holdId : Uuid) (ref : RevisionReference)
    (change : Quote → CapacityHold → Settled CapacityHold) : Settled Effect := do
  let q ← exactQuote s ref
  let h ← target s q holdId
  let changed ← change q h
  pure ⟨s.withHold changed, ref, some changed⟩

def perform (s : ProviderState) (c : ProviderCommand) (now : ℤ) : Settled Effect :=
  match c.payload with
  | .quotePublish q => do
    let t ← publish s q now
    pure ⟨t, q.revision, none⟩
  | .hold holdId ref expiresAt => do
    let q ← exactQuote s ref
    let h ← reserve s q holdId expiresAt now
    pure ⟨{ s with holds := s.holds ++ [h] }, ref, some h⟩
  | .confirm holdId ref => changeHold s holdId ref fun q h => confirm s q h now
  | .release holdId ref => changeHold s holdId ref fun _ h => release h
  | .cancel holdId ref => changeHold s holdId ref cancel
  | .fulfill holdId ref good damaged final evidence =>
    changeHold s holdId ref fun q h => fulfill q h ⟨c.operationId, good, damaged, final, evidence⟩
  | .dispute holdId ref why evidence =>
    changeHold s holdId ref fun _ h => contest h ⟨c.operationId, why, evidence⟩

structure Applied where
  state : ProviderState
  receipt : ProviderReceipt
  duplicate : Bool
  deriving DecidableEq

section
variable [CommandDigest]

def Effect.receipt (e : Effect) (c : ProviderCommand) (revision : ℕ) : ProviderReceipt :=
  { operationId := c.operationId, commandDigest := CommandDigest.digest c
    action := c.payload.action, holdId := e.hold.map CapacityHold.id, quote := e.quote
    status := (e.hold.map fun h => ReceiptStatus.hold h.status).getD .quoted
    acceptedRevision := revision }

/-- The state that an effect is stored as, with its receipt. -/
def Effect.stored (e : Effect) (c : ProviderCommand) (now : ℤ) : ProviderState :=
  { e.state with
    revision := e.state.revision + 1
    lastAcceptedAt := now
    receipts := e.state.receipts ++ [e.receipt c (e.state.revision + 1)] }

/-- A command that was accepted before returns its receipt and changes nothing. -/
def applyProviderCommand (s : ProviderState) (c : ProviderCommand) (x : ExecutionContext) :
    Settled Applied := do
  parseState s
  parseCommand c
  units x.expectedRevision false
  match s.receipts.find? fun r => r.operationId = c.operationId with
  | some prior => do
    demand (.commitment "business operation ID reused with changed command" .conflict)
      (prior.commandDigest = CommandDigest.digest c)
    pure ⟨s, prior, true⟩
  | none => do
    demand (.commitment "pool revision or clock conflict" .conflict)
      (x.expectedRevision = s.revision ∧ (s.revision : ℤ) < maxSafeInteger ∧
        s.lastAcceptedAt ≤ x.acceptedAt)
    demand (.commitment "receipt capacity exhausted" .capacity) (s.receipts.length < 1024)
    let e ← perform (s.lapse x.acceptedAt) c x.acceptedAt
    parseState (e.stored c x.acceptedAt)
    pure ⟨e.stored c x.acceptedAt, e.receipt c (e.state.revision + 1), false⟩

end

end DirectTrade.Foundation.Commitments
