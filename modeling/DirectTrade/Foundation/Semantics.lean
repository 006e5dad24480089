import DirectTrade.Foundation.References

/-!
The operations that an operator admits locally. A handler is arbitrary code: what it returns is
copied and checked against the declaration it was admitted under and against the exact
snapshots it was given, and nothing else of it becomes a plan.
-/

namespace DirectTrade.Foundation.Semantics

open Library Outcome

inductive EffectKind where
  | resourceUpdate
  | recordAppend
  deriving DecidableEq

def EffectKind.text : EffectKind → String
  | .resourceUpdate => "resource.update"
  | .recordAppend => "record.append"

structure OperationDescriptor where
  profileDigest : Digest
  name : String
  inputProfileDigests : List Digest
  outputProfileDigests : List Digest
  requiredGrants : List String
  allowedEffects : List EffectKind
  maxInputs : ℕ
  maxResources : ℕ
  maxEffects : ℕ
  deriving DecidableEq

def effectKind (value : Json) (refusal : Thrown) : Read EffectKind :=
  match value with
  | .str s =>
    require refusal ([EffectKind.resourceUpdate, .recordAppend].find? fun k => k.text = s)
  | _ => throw refusal

def hasText (value : Json) (s : String) : Bool :=
  match value with
  | .str t => t == s
  | _ => false

def descriptor (value : Json) : Read OperationDescriptor := do
  let o ← exactly value ["profile_digest", "name", "input_profile_digests",
    "output_profile_digests", "required_grants", "allowed_effects", "max_inputs", "max_resources",
    "max_effects", "concurrency", "retry"]
  demand (invalid "unsupported concurrency or retry contract")
    (hasText (o.get "concurrency") "exact-revision" = true ∧
      hasText (o.get "retry") "business-operation-id" = true)
  let kinds ← array (o.get "allowed_effects") 2
  let kinds ← kinds.mapM fun v => effectKind v (invalid "unsupported effect kind")
  let allowedEffects ← unique kinds id "duplicate effect kind"
  demand (invalid "at least one effect kind required") (0 < allowedEffects.length)
  let outputs ← array (o.get "output_profile_digests") 32
  let outputs ← outputs.mapM hash
  let outputProfileDigests ← unique outputs id "duplicate output profile"
  demand (invalid "output profile required") (0 < outputProfileDigests.length)
  let profileDigest ← hash (o.get "profile_digest")
  let name ← name (o.get "name")
  let inputs ← array (o.get "input_profile_digests") 32
  let inputs ← inputs.mapM hash
  let inputProfileDigests ← unique inputs id "duplicate input profile"
  let grants ← array (o.get "required_grants") 16
  let grants ← grants.mapM Semantics.name
  let requiredGrants ← unique grants id "duplicate grant declaration"
  let maxInputs ← count (o.get "max_inputs") true
  let maxResources ← count (o.get "max_resources") false
  let maxEffects ← count (o.get "max_effects") false
  pure { profileDigest, name, inputProfileDigests, outputProfileDigests, requiredGrants,
         allowedEffects, maxInputs, maxResources, maxEffects }

def parseOperationDescriptor (value : Hostile) : Read OperationDescriptor := do
  let copy ← boundedCopy value
  descriptor copy

structure OperationIntent where
  operationId : Uuid
  organizationId : Uuid
  profileDigest : Digest
  operation : String
  descriptorDigest : Digest
  handlerDigest : Digest
  resources : List EntityReference
  inputs : List RevisionReference
  parameters : JsonObject

structure AuthorizedInput where
  revision : RevisionReference
  profileDigest : Digest
  body : JsonObject

structure ResourceSnapshot where
  resource : EntityReference
  profileDigest : Digest
  currentRevision : Option RevisionReference
  body : Option JsonObject

structure AuthorizedOperationInput where
  intent : OperationIntent
  authorizedInputs : List AuthorizedInput
  snapshots : List ResourceSnapshot
  acceptedAt : String

def resource (value : Json) (organization : Uuid) : Read EntityReference := do
  let ref ← parseEntityReference value
  demand (invalid "resource is outside represented organization")
    (ref.kind = .resource ∧ ref.organizationId = some organization)
  pure ref

/-- A revision as its entity and its name, whatever its digest. -/
def refIdentity (ref : RevisionReference) : EntityReference × Uuid := (ref.entity, ref.revisionId)

def parseIntent (value : Json) : Read OperationIntent := do
  let p ← exactly value ["operation_id", "organization_id", "profile_digest", "operation",
    "descriptor_digest", "handler_digest", "resources", "inputs", "parameters"]
  let organizationId ← uuid (p.get "organization_id")
  let operationId ← uuid (p.get "operation_id")
  let profileDigest ← hash (p.get "profile_digest")
  let operation ← name (p.get "operation")
  let descriptorDigest ← hash (p.get "descriptor_digest")
  let handlerDigest ← hash (p.get "handler_digest")
  let resources ← array (p.get "resources") 32
  let resources ← resources.mapM fun v => resource v organizationId
  let resources ← unique resources id "duplicate intent resource"
  let inputs ← array (p.get "inputs") 32
  let inputs ← inputs.mapM parseRevisionReference
  let inputs ← unique inputs refIdentity "duplicate or conflicting intent input"
  let parameters ← object (p.get "parameters")
  pure { operationId, organizationId, profileDigest, operation, descriptorDigest, handlerDigest,
         resources, inputs, parameters }

def parseAuthorizedInput (value : Json) : Read AuthorizedInput := do
  let row ← exactly value ["revision", "profile_digest", "body"]
  let revision ← parseRevisionReference (row.get "revision")
  let profileDigest ← hash (row.get "profile_digest")
  let body ← object (row.get "body")
  pure { revision, profileDigest, body }

def parseSnapshot (organization : Uuid) (value : Json) : Read ResourceSnapshot := do
  let row ← exactly value ["resource", "profile_digest", "current_revision", "body"]
  let ref ← resource (row.get "resource") organization
  let currentRevision ← parseRevision? (row.get "current_revision")
  demand (invalid "snapshot revision belongs to another resource")
    (∀ r ∈ currentRevision, r.entity = ref)
  demand (invalid "snapshot existence and body differ")
    (isNull (row.get "body") = currentRevision.isNone)
  let profileDigest ← hash (row.get "profile_digest")
  let body ← if isNull (row.get "body") then pure none else some <$> object (row.get "body")
  pure { resource := ref, profileDigest, currentRevision, body }

/-- An input that is the current revision of a snapshot says the same of it. -/
def agrees (inputs : List AuthorizedInput) (s : ResourceSnapshot) : Read Unit :=
  match s.currentRevision with
  | none => pure ()
  | some revision =>
    match inputs.find? fun v => refIdentity v.revision = refIdentity revision with
    | none => pure ()
    | some input =>
      demand (invalid "input and snapshot contradict exact revision")
        (input.revision = revision ∧ input.profileDigest = s.profileDigest ∧
          (s.body.any fun body => same (.obj input.body) (.obj body)) = true)

def parseInput (value : Hostile) : Read AuthorizedOperationInput := do
  let copy ← boundedCopy value
  let o ← exactly copy ["intent", "authorized_inputs", "snapshots", "accepted_at"]
  let intent ← parseIntent (o.get "intent")
  let rows ← array (o.get "authorized_inputs") 32
  let rows ← rows.mapM parseAuthorizedInput
  let authorizedInputs ← unique rows (fun v => refIdentity v.revision) "duplicate authorized input"
  demand (invalid "authorized inputs differ from exact intent")
    (authorizedInputs.length = intent.inputs.length ∧
      ∀ ref ∈ intent.inputs, ∃ v ∈ authorizedInputs, v.revision = ref)
  let rows ← array (o.get "snapshots") 32
  let rows ← rows.mapM (parseSnapshot intent.organizationId)
  let snapshots ← unique rows (fun s => s.resource) "duplicate resource snapshot"
  demand (invalid "snapshot closure differs from intent resources")
    (snapshots.length = intent.resources.length ∧
      ∀ ref ∈ intent.resources, ∃ s ∈ snapshots, s.resource = ref)
  each (agrees authorizedInputs) snapshots
  let acceptedAt ← parseInstant (o.get "accepted_at")
  pure { intent, authorizedInputs, snapshots, acceptedAt }

structure ResourceExpectation where
  resource : EntityReference
  revision : Option RevisionReference
  deriving DecidableEq

inductive PlannedEffect where
  | update (resource : EntityReference) (expectedRevision : Option RevisionReference)
      (nextRevisionId : Uuid) (profileDigest : Digest) (body : JsonObject)
  | append (recordId : Uuid) (resource : EntityReference) (profileDigest : Digest)
      (body : JsonObject)

structure EffectPlan where
  expectedResources : List ResourceExpectation
  effects : List PlannedEffect

/-- A local function that tells whether it accepts a body; `none` is an exception. -/
structure OutputValidator where
  profileDigest : Digest
  validate : JsonObject → Option Bool

def findValidator (validators : List OutputValidator) (profile : Digest) :
    Option OutputValidator :=
  validators.find? fun v => v.profileDigest = profile

def parseExpectation (organization : Uuid) (value : Json) : Read ResourceExpectation := do
  let row ← exactly value ["resource", "revision"]
  let ref ← resource (row.get "resource") organization
  let revision ← parseRevision? (row.get "revision")
  pure { resource := ref, revision }

/-- What the effects so far have updated and named. -/
structure Used where
  updates : List EntityReference
  newIds : List Uuid

def EffectKind.fields : EffectKind → List String
  | .resourceUpdate =>
    ["kind", "resource", "expected_revision", "next_revision_id", "profile_digest", "body"]
  | .recordAppend => ["kind", "record_id", "resource", "profile_digest", "body"]

/-- What an effect makes: a new revision, or a new record. -/
def EffectKind.newIdField : EffectKind → String
  | .resourceUpdate => "next_revision_id"
  | .recordAppend => "record_id"

def parseEffect (input : AuthorizedOperationInput) (contract : OperationDescriptor)
    (validators : List OutputValidator) (used : Used) (value : Json) :
    Read (PlannedEffect × Used) := do
  let row ← object value
  let kind ← effectKind (row.get "kind") (invalid "effect kind is not admitted")
  demand (invalid "effect kind is not admitted") (kind ∈ contract.allowedEffects)
  let _ ← exactly value kind.fields
  let ref ← resource (row.get "resource") input.intent.organizationId
  let snapshot ← require (invalid "effect resource not declared in intent")
    (input.snapshots.find? fun s => s.resource = ref)
  let profileDigest ← hash (row.get "profile_digest")
  demand (invalid "effect output profile is not declared")
    (profileDigest ∈ contract.outputProfileDigests)
  let body ← object (row.get "body")
  let validator ← require (invalid "output profile validator not admitted")
    (findValidator validators profileDigest)
  demand (invalid "output profile validation failed") (validator.validate body = some true)
  let newId ← uuid (row.get kind.newIdField)
  demand (invalid "duplicate effect record/revision ID") (newId ∉ used.newIds)
  let used := { used with newIds := newId :: used.newIds }
  match kind with
  | .resourceUpdate => do
    demand (invalid "resource profile change requires a different admitted contract")
      (profileDigest = snapshot.profileDigest)
    demand (invalid "duplicate resource update") (ref ∉ used.updates)
    let expectedRevision ← parseRevision? (row.get "expected_revision")
    demand (invalid "resource update CAS differs from snapshot")
      (expectedRevision = snapshot.currentRevision)
    demand (invalid "resource update must create a new revision")
      (some newId ≠ expectedRevision.map RevisionReference.revisionId)
    pure (.update ref expectedRevision newId profileDigest body,
      { used with updates := ref :: used.updates })
  | .recordAppend => pure (.append newId ref profileDigest body, used)

def parseEffects (input : AuthorizedOperationInput) (contract : OperationDescriptor)
    (validators : List OutputValidator) : Used → List Json → Read (List PlannedEffect)
  | _, [] => pure []
  | used, value :: rest => do
    let (effect, used) ← parseEffect input contract validators used value
    let effects ← parseEffects input contract validators used rest
    pure (effect :: effects)

def parsePlan (value : Hostile) (input : AuthorizedOperationInput)
    (contract : OperationDescriptor) (validators : List OutputValidator) : Read EffectPlan := do
  let copy ← boundedCopy value
  let o ← exactly copy ["expected_resources", "effects"]
  let rows ← array (o.get "expected_resources") contract.maxResources
  let rows ← rows.mapM (parseExpectation input.intent.organizationId)
  let expectedResources ← unique rows (fun e => e.resource) "duplicate resource expectation"
  demand (invalid "plan omits or changes snapshot CAS closure")
    (expectedResources.length = input.snapshots.length ∧
      ∀ s ∈ input.snapshots, ∃ e ∈ expectedResources,
        e.resource = s.resource ∧ e.revision = s.currentRevision)
  let rows ← array (o.get "effects") contract.maxEffects
  let effects ← parseEffects input contract validators ⟨[], []⟩ rows
  pure { expectedResources, effects }

/-- The digests of the canonical texts of declarations and intents. -/
class SemanticDigest where
  descriptor : OperationDescriptor → Digest
  intent : OperationIntent → Digest

/-- A local handler; `none` is an exception. -/
abbrev Handler := AuthorizedOperationInput → Option Hostile

structure HandlerAdmission where
  descriptor : Hostile
  descriptorDigest : Digest
  handlerDigest : Digest
  evaluate : Handler

structure AdmittedHandler where
  contract : OperationDescriptor
  descriptorDigest : Digest
  handlerDigest : Digest
  evaluate : Handler

structure SemanticRegistry where
  handlers : List AdmittedHandler
  validators : List OutputValidator

structure EvaluatedOperation where
  operationId : Uuid
  organizationId : Uuid
  intentDigest : Digest
  descriptorDigest : Digest
  handlerDigest : Digest
  plan : EffectPlan

def SemanticRegistry.find (r : SemanticRegistry) (profile : Digest) (operation : String) :
    Option AdmittedHandler :=
  r.handlers.find? fun h => h.contract.profileDigest = profile ∧ h.contract.name = operation

def admitValidator (validators : List OutputValidator) (validator : OutputValidator) :
    Read (List OutputValidator) := do
  demand (invalid "duplicate output validator")
    (findValidator validators validator.profileDigest).isNone
  pure (validators ++ [validator])

section
variable [SemanticDigest]

def admitHandler (r : SemanticRegistry) (admission : HandlerAdmission) : Read SemanticRegistry := do
  let contract ← parseOperationDescriptor admission.descriptor
  demand (invalid "descriptor digest does not match declaration")
    (SemanticDigest.descriptor contract = admission.descriptorDigest)
  demand (invalid "declared output profile lacks an admitted validator")
    (∀ p ∈ contract.outputProfileDigests, (findValidator r.validators p).isSome)
  demand (invalid "duplicate operation admission")
    (r.find contract.profileDigest contract.name).isNone
  let handler : AdmittedHandler :=
    { contract, descriptorDigest := admission.descriptorDigest
      handlerDigest := admission.handlerDigest, evaluate := admission.evaluate }
  pure { r with handlers := r.handlers ++ [handler] }

def createSemanticRegistry (admissions : List HandlerAdmission)
    (outputValidators : List OutputValidator) : Read SemanticRegistry := do
  demand (invalid "registry admission limit exceeded")
    (admissions.length ≤ 128 ∧ outputValidators.length ≤ 128)
  let validators ← outputValidators.foldlM admitValidator []
  admissions.foldlM admitHandler { handlers := [], validators }

def SemanticRegistry.evaluateAuthorized (r : SemanticRegistry) (value : Hostile) :
    Read EvaluatedOperation := do
  let input ← parseInput value
  let intent := input.intent
  let admission ← require
    (.semantic "operation profile or name is not admitted" .unsupportedSemantics)
    (r.find intent.profileDigest intent.operation)
  demand (invalid "intent admission pins differ")
    (intent.descriptorDigest = admission.descriptorDigest ∧
      intent.handlerDigest = admission.handlerDigest)
  let contract := admission.contract
  demand (invalid "intent exceeds descriptor bounds")
    (intent.inputs.length ≤ contract.maxInputs ∧ intent.resources.length ≤ contract.maxResources)
  demand (invalid "input or snapshot profile is not declared")
    ((∀ v ∈ input.authorizedInputs, v.profileDigest ∈ contract.inputProfileDigests) ∧
      ∀ s ∈ input.snapshots, s.profileDigest ∈ contract.inputProfileDigests)
  let proposed ← require (.semantic "admitted handler failed" .handlerFailed)
    (admission.evaluate input)
  let plan ← parsePlan proposed input contract r.validators
  pure { operationId := intent.operationId, organizationId := intent.organizationId
         intentDigest := SemanticDigest.intent intent
         descriptorDigest := admission.descriptorDigest
         handlerDigest := admission.handlerDigest, plan }

end

end DirectTrade.Foundation.Semantics
