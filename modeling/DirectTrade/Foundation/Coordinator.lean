import DirectTrade.Foundation.Commitments

/-!
The coordinator of several providers' commitments: it holds every leg, then confirms every
leg, and on a refusal releases or cancels what it can. Its state is stored before a request
is sent; a request that has not been answered stays pending.
-/

namespace DirectTrade.Foundation.Commitments

open Library Outcome

/-- What a coordinator asks of a provider. -/
inductive LegAction where
  | hold
  | confirm
  | release
  | cancel
  deriving DecidableEq

def ProviderAction.legAction? : ProviderAction → Option LegAction
  | .hold => some .hold
  | .confirm => some .confirm
  | .release => some .release
  | .cancel => some .cancel
  | .quotePublish | .fulfill | .dispute => none

structure OperationIds where
  hold : Uuid
  confirm : Uuid
  release : Uuid
  cancel : Uuid
  deriving DecidableEq

def OperationIds.get (ids : OperationIds) : LegAction → Uuid
  | .hold => ids.hold
  | .confirm => ids.confirm
  | .release => ids.release
  | .cancel => ids.cancel

inductive LegStatus where
  | planned
  | held
  | accepted
  | released
  | cancelled
  | rejected
  | exception
  deriving DecidableEq

structure CoordinatorLegSpec where
  legId : Uuid
  quote : Quote
  holdId : Uuid
  holdExpiresAt : ℤ
  operationIds : OperationIds
  deriving DecidableEq

structure CoordinatorLeg extends CoordinatorLegSpec where
  status : LegStatus
  deriving DecidableEq

structure CoordinatorRequest where
  providerId : Uuid
  command : ProviderCommand
  deriving DecidableEq

/-- A definitive outcome: the receipt of an accepted request, the reason of a refused one. -/
inductive ProviderOutcome where
  | accepted (receipt : ProviderReceipt)
  | rejected (reason : String)
  deriving DecidableEq

structure CoordinatorResponse where
  providerId : Uuid
  operationId : Uuid
  commandDigest : Digest
  outcome : ProviderOutcome
  deriving DecidableEq

inductive Phase where
  | holding
  | confirming
  | compensating
  | committed
  | compensated
  | exception
  deriving DecidableEq

structure CoordinatorState where
  coordinationId : Uuid
  customer : EntityReference
  revision : ℕ
  phase : Phase
  legs : List CoordinatorLeg
  pending : Option CoordinatorRequest
  uncertain : Bool
  responses : List CoordinatorResponse
  deriving DecidableEq

def parseResponse (r : CoordinatorResponse) : Settled Unit :=
  match r.outcome with
  | .accepted receipt => parseReceipt receipt
  | .rejected why => reason why

def parseLeg (customer : EntityReference) (l : CoordinatorLeg) : Settled Unit := do
  parseQuote l.quote
  demand (invalid "leg customer/status differs") (l.quote.customer = customer)
  demand (invalid "leg hold outlives quote") (l.holdExpiresAt ≤ l.quote.expiresAt)

def legPayload (l : CoordinatorLegSpec) : LegAction → ProviderPayload
  | .hold => .hold l.holdId l.quote.revision l.holdExpiresAt
  | .confirm => .confirm l.holdId l.quote.revision
  | .release => .release l.holdId l.quote.revision
  | .cancel => .cancel l.holdId l.quote.revision

def legRequest (l : CoordinatorLegSpec) (action : LegAction) : CoordinatorRequest :=
  { providerId := l.quote.provider.id
    command := { operationId := l.operationIds.get action, payload := legPayload l action } }

/-- The leg that a request to a provider under an operation belongs to. -/
def findLeg (legs : List CoordinatorLeg) (providerId : Uuid) (action : LegAction)
    (operationId : Uuid) : Option CoordinatorLeg :=
  legs.find? fun l => l.quote.provider.id = providerId ∧ l.operationIds.get action = operationId

/-- The progress of a leg in which a request for it is pending. -/
def LegAction.pendingIn (action : LegAction) (phase : Phase) (status : LegStatus) : Prop :=
  match action with
  | .hold => phase = .holding ∧ status = .planned
  | .confirm => phase = .confirming ∧ status = .held
  | .release => phase = .compensating ∧ status = .held
  | .cancel => phase = .compensating ∧ status = .accepted

instance (action : LegAction) (phase : Phase) (status : LegStatus) :
    Decidable (action.pendingIn phase status) := by
  cases action <;> exact inferInstanceAs (Decidable (_ ∧ _))

/-- The leg of a request, which has to be the request of that leg. -/
def exactLeg (legs : List CoordinatorLeg) (request : CoordinatorRequest) (action : LegAction)
    (refusal : Refusal) : Settled CoordinatorLeg := do
  let l ← require refusal (findLeg legs request.providerId action request.command.operationId)
  demand refusal (legRequest l.toCoordinatorLegSpec action = request)
  pure l

def parsePending (s : CoordinatorState) (request : CoordinatorRequest) : Settled Unit := do
  let action ← require (invalid "unsupported pending action")
    request.command.payload.action.legAction?
  let l ← exactLeg s.legs request action
    (invalid "persisted pending request changes declared provider/quote")
  demand (invalid "pending action contradicts recorded progress")
    (action.pendingIn s.phase l.status)

/-- What the progress of the legs may be in a phase. -/
def parsePhase (s : CoordinatorState) : Settled Unit := do
  demand (invalid "holding phase contains incompatible progress")
    (s.phase = .holding → ∀ l ∈ s.legs, l.status ∈ [LegStatus.planned, .held])
  demand (invalid "confirming phase contains incompatible progress")
    (s.phase = .confirming → ∀ l ∈ s.legs, l.status ∈ [LegStatus.held, .accepted])
  demand (invalid "committed phase requires every accepted leg")
    (s.phase = .committed → s.pending = none ∧ ∀ l ∈ s.legs, l.status = .accepted)
  demand (invalid "compensated phase retains obligations")
    (s.phase = .compensated → s.pending = none ∧ ∀ l ∈ s.legs,
      l.status ∈ [LegStatus.planned, .released, .cancelled, .rejected])
  demand (invalid "exception phase hides unfinished compensation")
    (s.phase = .exception → s.pending = none ∧ (∃ l ∈ s.legs, l.status = .exception) ∧
      ∀ l ∈ s.legs, l.status ∉ [LegStatus.held, .accepted])

def parseCoordinator (s : CoordinatorState) : Settled Unit := do
  company s.customer
  array s.legs 16
  each (parseLeg s.customer) s.legs
  unique s.legs fun l => l.legId
  demand (invalid "at least one provider leg required") (0 < s.legs.length)
  unique s.legs fun l => l.holdId
  unique (s.legs.flatMap fun l => [LegAction.hold, .confirm, .release, .cancel].map
    l.operationIds.get) id
  each (fun r => parseCommand r.command) s.pending.toList
  demand (invalid "uncertain request must remain persisted")
    (s.uncertain = true → s.pending ≠ none)
  parsePhase s
  each (parsePending s) s.pending.toList
  units s.revision false
  array s.responses 64
  each parseResponse s.responses
  unique s.responses fun r => (r.providerId, r.operationId)

def createCoordinator (coordinationId : Uuid) (customer : EntityReference)
    (legs : List CoordinatorLegSpec) : Settled CoordinatorState := do
  let s : CoordinatorState :=
    { coordinationId, customer, revision := 0, phase := .holding
      legs := legs.map fun l => { l with status := .planned }
      pending := none, uncertain := false, responses := [] }
  parseCoordinator s
  pure s

def checkCoordinatorRevision (s : CoordinatorState) (expectedRevision : ℕ) : Settled Unit := do
  units expectedRevision false
  demand (.commitment "coordinator CAS conflict" .conflict)
    (expectedRevision = s.revision ∧ (s.revision : ℤ) < maxSafeInteger)

/-- What undoes the first leg that can be undone. A commitment before it that its terms do not
let go is an exception. -/
def compensate : List CoordinatorLeg → List CoordinatorLeg × Option CoordinatorRequest
  | [] => ([], none)
  | l :: rest =>
    if l.status = .held then (l :: rest, some (legRequest l.toCoordinatorLegSpec .release))
    else if l.status = .accepted then
      if l.quote.terms.cancellation = .beforeFulfillment then
        (l :: rest, some (legRequest l.toCoordinatorLegSpec .cancel))
      else ({ l with status := .exception } :: (compensate rest).1, (compensate rest).2)
    else (l :: (compensate rest).1, (compensate rest).2)

/-- The request for the first leg of a status. -/
def requestFor (s : CoordinatorState) (status : LegStatus) (action : LegAction) :
    Option CoordinatorRequest :=
  (s.legs.find? fun l => l.status = status).map fun l =>
    legRequest l.toCoordinatorLegSpec action

/-- The confirmation of the next leg, until every leg is accepted. -/
def advanceConfirming (s : CoordinatorState) :
    Settled (CoordinatorState × Option CoordinatorRequest) :=
  match requestFor s .held .confirm with
  | some request => pure ({ s with phase := .confirming }, some request)
  | none => do
    demand (invalid "coordinator cannot claim all commitments")
      (∀ l ∈ s.legs, l.status = .accepted)
    pure ({ s with phase := .committed }, none)

def advanceCompensating (s : CoordinatorState) : CoordinatorState × Option CoordinatorRequest :=
  let undone := compensate s.legs
  match undone.2 with
  | some request => ({ s with legs := undone.1 }, some request)
  | none =>
    ({ s with
        legs := undone.1
        phase := if ∃ l ∈ undone.1, l.status = .exception ∨ l.status = .accepted then .exception
          else .compensated }, none)

def advance (s : CoordinatorState) : Settled (CoordinatorState × Option CoordinatorRequest) :=
  match s.phase with
  | .holding =>
    match requestFor s .planned .hold with
    | some request => pure (s, some request)
    | none => advanceConfirming s
  | .confirming => advanceConfirming s
  | .compensating => pure (advanceCompensating s)
  | .committed | .compensated | .exception => pure (s, none)

/-- A pending request is repeated; otherwise the next one is chosen and stored. -/
def planCoordinator (s : CoordinatorState) (expectedRevision : ℕ) :
    Settled (CoordinatorState × Option CoordinatorRequest) := do
  parseCoordinator s
  checkCoordinatorRevision s expectedRevision
  if s.pending.isSome then pure (s, s.pending)
  else if s.phase ∈ [Phase.committed, .compensated, .exception] then pure (s, none)
  else do
    let (t, request) ← advance s
    let next : CoordinatorState :=
      { t with pending := request, uncertain := false, revision := t.revision + 1 }
    parseCoordinator next
    pure (next, request)

/-- A timeout proves nothing about the provider. -/
def recordCoordinatorTimeout (s : CoordinatorState) (operationId : Uuid) (expectedRevision : ℕ) :
    Settled CoordinatorState := do
  parseCoordinator s
  checkCoordinatorRevision s expectedRevision
  demand (.commitment "timeout does not identify pending request" .conflict)
    (s.pending.map (fun r => r.command.operationId) = some operationId)
  pure { s with uncertain := true, revision := s.revision + 1 }

/-- The status of a leg whose request was accepted. -/
def LegAction.accepted : LegAction → LegStatus
  | .hold => .held
  | .confirm => .accepted
  | .release => .released
  | .cancel => .cancelled

/-- The status that the provider's receipt shows then. -/
def LegAction.receiptStatus : LegAction → CommitmentStatus
  | .hold => .held
  | .confirm => .accepted
  | .release => .released
  | .cancel => .cancelled

/-- The status of a leg whose request was refused. A refused release or cancellation leaves a
known obligation. -/
def LegAction.refused : LegAction → LegStatus
  | .hold => .rejected
  | .confirm => .held
  | .release | .cancel => .exception

def CoordinatorState.withLeg (s : CoordinatorState) (legId : Uuid) (status : LegStatus) :
    CoordinatorState :=
  { s with legs := s.legs.map fun l => if l.legId = legId then { l with status } else l }

/-- The progress of a leg by the outcome of its request. -/
def settle (s : CoordinatorState) (l : CoordinatorLeg) (action : LegAction)
    (r : CoordinatorResponse) : Settled CoordinatorState :=
  match r.outcome with
  | .accepted receipt => do
    demand (.commitment "provider receipt differs from exact request" .conflict)
      (receipt.operationId = r.operationId ∧ receipt.commandDigest = r.commandDigest ∧
        receipt.action.legAction? = some action ∧ receipt.holdId = some l.holdId ∧
        receipt.quote = l.quote.revision ∧ receipt.status = .hold action.receiptStatus)
    pure (s.withLeg l.legId action.accepted)
  | .rejected _ => pure { s.withLeg l.legId action.refused with phase := .compensating }

section
variable [CommandDigest]

/-- The pending request that a response answers. -/
def answered (s : CoordinatorState) (r : CoordinatorResponse) : Settled CoordinatorRequest := do
  let pending ← require
    (.commitment "response does not bind exact pending request" .conflict) s.pending
  demand (.commitment "response does not bind exact pending request" .conflict)
    (pending.providerId = r.providerId ∧ pending.command.operationId = r.operationId ∧
      CommandDigest.digest pending.command = r.commandDigest)
  pure pending

def recordCoordinatorResponse (s : CoordinatorState) (r : CoordinatorResponse)
    (expectedRevision : ℕ) : Settled CoordinatorState := do
  parseCoordinator s
  parseResponse r
  match s.responses.find? fun p => p.providerId = r.providerId ∧ p.operationId = r.operationId with
  | some prior => do
    demand (.commitment "provider response conflict" .conflict) (prior = r)
    pure s
  | none => do
    checkCoordinatorRevision s expectedRevision
    let pending ← answered s r
    let action ← require (invalid "unsupported coordinator action")
      pending.command.payload.action.legAction?
    let l ← exactLeg s.legs pending action
      (.commitment "pending provider/quote/terms substituted" .conflict)
    let t ← settle s l action r
    let next : CoordinatorState :=
      { t with
        responses := t.responses ++ [r], pending := none, uncertain := false
        revision := t.revision + 1 }
    parseCoordinator next
    pure next

end

end DirectTrade.Foundation.Commitments
