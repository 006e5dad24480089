import DirectTrade.Json
import DirectTrade.Library.Dict
import Std.Data.ExtTreeMap.Lemmas

/-!
The data of the v0.4 kernel. A member of an object that travels inside a signed or
digested value is a `Table`, which has no enumeration order of its own; the tables
of a host state are dictionaries, whose order the host can observe. A command's
payload is typed by its action, as the command schema leaves it. `Mutation` holds
the payloads of the commands a host keeps in its state.
-/

namespace DirectTrade

open Library

abbrev Table (α β : Type) [Ord α] := Std.ExtTreeMap α β compare

structure HostRef where
  audience : String
  keyId : KeyId
  deriving DecidableEq

inductive ActorKind where
  | person
  | installation
  deriving DecidableEq

structure Actor where
  kind : ActorKind
  id : Uuid
  keyId : KeyId
  deriving DecidableEq

structure Proof where
  keyId : KeyId
  signature : Signature
  deriving DecidableEq

inductive DataAction where
  | read
  | write
  | export
  deriving DecidableEq

/-- Administration permissions; `other` is a text the host does not support. -/
inductive Permission where
  | authorityManage
  | installationsManage
  | membersManage
  | policiesCreate
  | profilesPublish
  | releasesPublish
  | other (name : String)
  deriving DecidableEq

inductive Classification where
  | business
  | personnel
  deriving DecidableEq

inductive Visibility where
  | privateOnly
  | community
  deriving DecidableEq

inductive Mode where
  | interactive
  | automation
  deriving DecidableEq

inductive Balance where
  | nonnegative
  | signed
  deriving DecidableEq

inductive Semantics where
  | structural
  | inventoryV1
  | invoiceV1
  | productV1
  | inventoryV2
  | partyV1
  | orderV1
  | forecastV1
  | objectV1
  | flowV1
  deriving DecidableEq

/-- A profile's namespace: the reserved protocol publisher or a company. -/
inductive Publisher where
  | dtp
  | organization (id : Uuid)
  deriving DecidableEq

/-- What a subscriber selects on: publisher namespace, name and major version. -/
structure Kind where
  publisher : Publisher
  name : String
  major : ℕ
  deriving DecidableEq

inductive Scope where
  | all
  | only (resources : List Uuid)
  deriving DecidableEq

structure Grant where
  personId : Uuid
  actions : List DataAction
  resourceIds : Scope
  expiresAt : Instant
  deriving DecidableEq

/-- The fields every token body carries. -/
structure Stamp where
  issuer : String
  issuedAt : Instant
  expiresAt : Instant
  deriving DecidableEq

structure Signed (β : Type) where
  body : β
  keyId : KeyId
  signature : Signature
  deriving DecidableEq

structure MigrationManifest where
  migrationId : Uuid
  organizationId : Uuid
  generation : ℕ
  source : HostRef
  destination : HostRef
  snapshotHash : Digest
  byteLength : ℕ
  chunkHashes : List Digest
  expiresAt : Instant
  deriving DecidableEq

structure AuthorityBody extends Stamp where
  organizationId : Uuid
  generation : ℕ
  host : HostRef
  deriving DecidableEq

structure ManifestBody extends Stamp where
  actorId : Uuid
  manifest : MigrationManifest
  deriving DecidableEq

structure ReadyBody extends Stamp where
  manifestHash : Digest
  migrationId : Uuid
  organizationId : Uuid
  generation : ℕ
  source : HostRef
  destination : HostRef
  snapshotHash : Digest
  deriving DecidableEq

structure CommitBody extends Stamp where
  manifestHash : Digest
  migrationId : Uuid
  organizationId : Uuid
  generation : ℕ
  source : HostRef
  destination : HostRef
  snapshotHash : Digest
  ready : Signed ReadyBody
  deriving DecidableEq

structure CancelBody extends Stamp where
  migrationId : Uuid
  organizationId : Uuid
  manifestHash : Digest
  destination : HostRef
  deriving DecidableEq

structure AssessmentBody extends Stamp where
  artifactDigest : Digest
  approved : Bool
  deriving DecidableEq

structure PolicyPayload where
  policyId : Uuid
  expectedRevision : ℕ
  classification : Classification
  stewards : List Uuid
  threshold : ℕ
  grants : List Grant
  deriving DecidableEq

structure ProfilePayload where
  name : String
  version : String
  schema : Json
  semantics : Semantics
  dependencies : List Digest
  visibility : Visibility
  readers : List Uuid
  digest : Digest
  deriving DecidableEq

structure ReleasePayload where
  moduleId : Uuid
  version : String
  artifactDigest : Digest
  profiles : List Digest
  actions : List DataAction
  visibility : Visibility
  assessment : Option (Signed AssessmentBody)
  deriving DecidableEq

structure InstallationPayload where
  installationId : Uuid
  releaseDigest : Digest
  keyId : KeyId
  policyIds : List Uuid
  actions : List DataAction
  mode : Mode
  expiresAt : Instant
  deriving DecidableEq

structure RecordPayload where
  id : Uuid
  rootId : Uuid
  supersedes : Option Uuid
  organizationId : Uuid
  policyId : Uuid
  resourceId : Uuid
  profileDigest : Digest
  counterpartyIds : List Uuid
  body : Json
  deriving DecidableEq

structure LedgerAsset where
  product : Option Uuid
  currency : Option String
  deriving DecidableEq

structure LedgerPayload where
  policyId : Uuid
  bookId : Uuid
  asset : LedgerAsset
  account : Option Uuid
  balance : Balance
  deriving DecidableEq

/-- The payloads of the commands that a host's state can hold. -/
inductive Mutation where
  | personRegister (keys : List KeyId)
  | personRotate (add revoke : List KeyId)
  | organizationCreate (name : String) (nonce : Uuid) (controllers : List Uuid) (threshold : ℕ)
  | organizationPolicy (controllers : List Uuid) (threshold : ℕ)
  | membershipInvite (invitationId personId : Uuid) (permissions : List Permission)
      (expiresAt : Instant)
  | membershipAccept (invitationId : Uuid)
  | membershipRevoke (personId : Uuid)
  | policyCreate (policy : PolicyPayload)
  | policyUpdate (policy : PolicyPayload)
  | profilePublish (profile : ProfilePayload)
  | profileAdmit (digest : Digest)
  | releasePublish (release : ReleasePayload)
  | installationCreate (installation : InstallationPayload)
  | installationRevoke (installationId : Uuid)
  | recordAppend (record : RecordPayload)
  | inventoryCreate (policyId poolId productId : Uuid) (baseUnit : String)
  | inventoryOpen (policyId productId : Uuid)
  | flowOpen (policyId bookId : Uuid)
  | flowLedgerOpen (ledger : LedgerPayload)
  | migrationPrepare (destination : HostRef)
  deriving DecidableEq

/-- The fields of a command outside its payload and its signatures. -/
structure Header where
  audience : String
  requestId : Uuid
  issuedAt : Instant
  expiresAt : Instant
  organizationId : Option Uuid
  actor : Actor
  requestedBy : Option Uuid
  deriving DecidableEq

structure CommandOf (π : Type) extends Header where
  payload : π
  signatures : List Proof
  deriving DecidableEq

/-- A command as a host keeps it in a history, a record or a definition. -/
abbrev StoredCommand := CommandOf Mutation

structure ProfileContract where
  publisherId : Publisher
  name : String
  version : String
  schema : Json
  semantics : Semantics
  dependencies : List Digest
  deriving DecidableEq

/-- The label `publisher/name@version`, by its three parts. -/
structure ProfileLabel where
  publisher : Publisher
  name : String
  version : String
  deriving DecidableEq

structure Profile extends ProfileContract where
  id : ProfileLabel
  digest : Digest
  visibility : Visibility
  readers : List Uuid
  command : StoredCommand
  deriving DecidableEq

structure Release extends ReleasePayload where
  publisherId : Uuid
  digest : Digest
  command : StoredCommand
  deriving DecidableEq

structure ValidationIssue where
  code : String
  path : String
  error : Bool
  message : String
  deriving DecidableEq

structure ValidationReport where
  valid : Bool
  complete : Bool
  issues : List ValidationIssue
  deriving DecidableEq

/-- A record's stored `validation` projection. -/
inductive Validation where
  | structural (profile : Digest)
  | invoice (report : ValidationReport)
  | businessRules (profile : String)
  | stock (profile : String) (revision : ℕ)
  | flow (revisions : Table String ℕ)
  deriving DecidableEq

structure BusinessRecord extends RecordPayload where
  command : StoredCommand
  seq : ℕ
  isHead : Bool
  acceptedAt : Instant
  validation : Validation
  deriving DecidableEq

structure Recipient where
  organizationId : Uuid
  audience : String
  policyId : Uuid
  resourceId : Uuid
  deriving DecidableEq

structure EvidenceBody extends Stamp where
  sourceOrganization : Uuid
  recipient : Recipient
  purpose : String
  records : List BusinessRecord
  profiles : List Profile
  deriving DecidableEq

/-- The bodies of the host tokens, by kind. -/
inductive TokenBody where
  | authority (body : AuthorityBody)
  | manifest (body : ManifestBody)
  | ready (body : ReadyBody)
  | commit (body : CommitBody)
  | cancel (body : CancelBody)
  | assessment (body : AssessmentBody)
  | evidence (body : EvidenceBody)
  | other (stamp : Stamp) (kind : String)
  deriving DecidableEq

abbrev SignedToken := Signed TokenBody

namespace TokenBody

def stamp : TokenBody → Stamp
  | .authority b => b.toStamp
  | .manifest b => b.toStamp
  | .ready b => b.toStamp
  | .commit b => b.toStamp
  | .cancel b => b.toStamp
  | .assessment b => b.toStamp
  | .evidence b => b.toStamp
  | .other s _ => s

def authority? : TokenBody → Option AuthorityBody
  | .authority b => some b
  | _ => none

def manifest? : TokenBody → Option ManifestBody
  | .manifest b => some b
  | _ => none

def ready? : TokenBody → Option ReadyBody
  | .ready b => some b
  | _ => none

def commit? : TokenBody → Option CommitBody
  | .commit b => some b
  | _ => none

def cancel? : TokenBody → Option CancelBody
  | .cancel b => some b
  | _ => none

def assessment? : TokenBody → Option AssessmentBody
  | .assessment b => some b
  | _ => none

def evidence? : TokenBody → Option EvidenceBody
  | .evidence b => some b
  | _ => none

end TokenBody

def Signed.map {β γ : Type} (f : β → γ) (t : Signed β) : Signed γ :=
  ⟨f t.body, t.keyId, t.signature⟩

structure PagePayload where
  after : ℕ
  limit : ℕ
  profileDigests : List Digest
  kinds : List Kind
  deriving DecidableEq

/-- The payload of every action of the command schema. -/
inductive Payload where
  | mutation (payload : Mutation)
  | organizationsList
  | policyGet (policyId : Uuid)
  | profileGet (digest : Digest)
  | recordGet (id : Uuid) (profileDigest : Digest)
  | recordsList (page : PagePayload)
  | recordsExport (page : PagePayload)
  | workspaceView (page : PagePayload)
  | inventoryGet (policyId poolId : Uuid)
  | inventoryLedger (policyId productId : Uuid)
  | flowBook (policyId bookId : Uuid)
  | authorityExport
  | authorityImport (token : SignedToken)
  | authorityRelocate (token commit : SignedToken)
  | evidenceIssue (recordIds : List Uuid) (recipient : Recipient) (purpose : String)
      (expiresAt : Instant)
  | evidenceInspect (token : SignedToken) (acceptedProfiles : List Digest)
  | migrationChunk (migrationId : Uuid) (index : ℕ)
  | migrationCommit (migrationId : Uuid) (ready : SignedToken)
  | migrationReceipt (migrationId : Uuid)
  | migrationStatus (migrationId : Uuid)
  | migrationCancel (migrationId : Uuid)
  | migrationAbort (migrationId : Uuid) (cancel : SignedToken)
  | migrationStage (manifest : SignedToken)
  | migrationUpload (migrationId : Uuid) (index : ℕ) (data : String)
  | migrationReady (migrationId : Uuid)
  | migrationFinalize (migrationId : Uuid) (commit : SignedToken)
  deriving DecidableEq

abbrev Command := CommandOf Payload

/-- A kept command as the command that was signed. -/
def CommandOf.signedForm (c : StoredCommand) : Command :=
  { c with payload := .mutation c.payload }

/-- A command as a host keeps it. -/
def CommandOf.keep (c : Command) (m : Mutation) : StoredCommand :=
  { c with payload := m }

@[simp] theorem CommandOf.signedForm_keep (c : Command) (m : Mutation)
    (h : c.payload = .mutation m) : (c.keep m).signedForm = c := by
  cases c
  simp only at h
  simp [keep, signedForm, h]

structure Person where
  id : Uuid
  keys : List KeyId
  retiredKeys : List KeyId
  history : List StoredCommand
  deriving DecidableEq

structure Membership where
  personId : Uuid
  permissions : List Permission
  expiresAt : Instant
  active : Bool
  authorizedBy : Uuid
  deriving DecidableEq

structure Invitation extends Membership where
  id : Uuid
  accepted : Bool
  deriving DecidableEq

structure Installation where
  id : Uuid
  moduleId : Uuid
  releaseDigest : Digest
  keyId : KeyId
  policyIds : List Uuid
  actions : List DataAction
  sponsorId : Uuid
  expiresAt : Instant
  active : Bool
  mode : Mode
  deriving DecidableEq

inductive Status where
  | active
  | migrated
  deriving DecidableEq

structure Organization where
  id : Uuid
  name : String
  controllers : List Uuid
  threshold : ℕ
  generation : ℕ
  status : Status
  members : Table Uuid Membership
  invitations : Table Uuid Invitation
  installations : Table Uuid Installation
  history : List StoredCommand
  deriving DecidableEq

structure Policy where
  id : Uuid
  organizationId : Uuid
  revision : ℕ
  classification : Classification
  stewards : List Uuid
  threshold : ℕ
  grants : List Grant
  history : List StoredCommand
  deriving DecidableEq

inductive Tracking where
  | none
  | lot
  | serial
  deriving DecidableEq

structure PackagingRevision where
  companyId : String
  productId : String
  packagingId : String
  version : String
  baseUnit : String
  packUnit : String
  baseUnitsPerPack : String
  deriving DecidableEq

/-- `dtp.inventory/1`: one stock pool. -/
structure InventoryState where
  companyId : Uuid
  poolId : Uuid
  productId : Uuid
  baseUnit : String
  revision : ℕ
  onHand : String
  reservations : Table Digest String
  packaging : Table Digest PackagingRevision
  observations : Table Digest Digest
  deriving DecidableEq

structure Source where
  highWater : ℕ
  recent : Table ℕ Digest
  deriving DecidableEq

structure Position where
  lotId : Option String
  locationId : String
  status : String
  deriving DecidableEq

structure PositionState where
  position : Position
  quantity : String
  serials : List String
  deriving DecidableEq

structure LedgerReservation where
  position : Digest
  quantity : String
  party : Option String
  deriving DecidableEq

/-- `dtp.inventory/2`: one company's stock ledger for one product. -/
structure InventoryLedger where
  organizationId : Uuid
  productId : Uuid
  baseUnit : String
  tracking : Tracking
  revision : ℕ
  positions : Table Digest PositionState
  reservations : Table String LedgerReservation
  sources : Table String Source
  deriving DecidableEq

structure ObjectRef where
  mintedBy : Option String
  root : String
  recordId : Option String
  deriving DecidableEq

structure Location where
  ref : Option ObjectRef
  virtual : Option String
  deriving DecidableEq

structure FlowPosition where
  lotId : Option String
  location : Location
  status : String
  owner : Option ObjectRef
  deriving DecidableEq

structure FlowPositionState where
  position : FlowPosition
  quantity : String
  serials : List String
  deriving DecidableEq

structure FlowReservation where
  position : Digest
  quantity : String
  party : Option ObjectRef
  deriving DecidableEq

structure FlowLedger where
  asset : LedgerAsset
  account : Option Uuid
  unit : String
  tracking : Tracking
  balance : Balance
  revision : ℕ
  head : Option Digest
  positions : Table Digest FlowPositionState
  reservations : Table String FlowReservation
  deriving DecidableEq

/-- `dtp.flow/1`: a book of ledgers, keyed by the text of their ledger keys. -/
structure FlowBook where
  organizationId : Uuid
  bookId : Uuid
  ledgers : Table String FlowLedger
  sources : Table String Source
  deriving DecidableEq

structure Pool extends InventoryState where
  policyId : Uuid
  deriving DecidableEq

structure Ledger extends InventoryLedger where
  policyId : Uuid
  deriving DecidableEq

structure Book extends FlowBook where
  policyId : Uuid
  deriving DecidableEq

/-- The recorded effect of one observation. -/
structure Observed where
  hash : Digest
  recordId : Uuid
  policyId : Uuid
  profileDigest : Digest
  deriving DecidableEq

structure FlowIndex where
  books : Table Uuid Book
  bookOpenings : Table Uuid StoredCommand
  ledgerOpenings : Table Digest StoredCommand
  flowFacts : Table Digest Observed
  deriving DecidableEq

/-- The members an entry gains with its first ledger; books need them. -/
structure LedgerIndex where
  ledgers : Table Uuid Ledger
  openings : Table Uuid StoredCommand
  facts : Table Digest Observed
  flow : Option FlowIndex
  deriving DecidableEq

/-- One company's inventory entry. -/
structure Inventory where
  pools : Table Uuid Pool
  observations : Table Digest Observed
  creations : Table Uuid StoredCommand
  index : Option LedgerIndex
  deriving DecidableEq

structure RemoteAuthority where
  token : Signed AuthorityBody
  deriving DecidableEq

structure Snapshot where
  source : String
  organization : Organization
  persons : List Person
  policies : List Policy
  profiles : List Profile
  releases : List Release
  records : List BusinessRecord
  remoteAuthorities : List (Signed AuthorityBody)
  inventory : Table Uuid Inventory
  deriving DecidableEq

structure OutboundMigration where
  manifest : MigrationManifest
  chunks : List String
  manifestToken : Signed ManifestBody
  authorization : StoredCommand
  commitToken : Option (Signed CommitBody)
  cancelToken : Option (Signed CancelBody)
  deriving DecidableEq

structure InboundMigration where
  manifest : MigrationManifest
  manifestToken : Signed ManifestBody
  chunks : Table ℕ String
  readyToken : Option (Signed ReadyBody)
  snapshot : Option Snapshot
  activated : Bool
  aborted : Bool
  deriving DecidableEq

/-- A row of `organizations.list`. -/
structure OrganizationRow where
  id : Uuid
  name : String
  status : Status
  generation : ℕ
  deriving DecidableEq

/-- A record with the live assessment that a read adds to an invoice. -/
structure RecordView where
  record : BusinessRecord
  liveValidation : Option ValidationReport
  deriving DecidableEq

structure Page where
  id : Uuid
  name : String
  generation : ℕ
  profileDigests : List Digest
  records : List RecordView
  nextCursor : Option ℕ
  deriving DecidableEq

/-- What a recipient recomputes for a disclosed record. -/
inductive Inspection where
  | structural (profile : Digest)
  | invoice (report : ValidationReport)
  | notReplayed
  deriving DecidableEq

structure InspectedRecord where
  record : RecordPayload
  command : StoredCommand
  validation : Inspection
  seq : ℕ
  isHead : Bool
  acceptedAt : Instant
  issuerValidation : Validation
  deriving DecidableEq

inductive Result where
  | person (personId : Uuid)
  | rotated (personId : Uuid) (keys : List KeyId)
  | organization (organizationId : Uuid)
  | organizations (rows : List OrganizationRow)
  | changed
  | invitation (invitationId : Uuid)
  | joined (organizationId : Uuid)
  | revoked
  | policyWritten (policyId : Uuid) (revision : ℕ)
  | policy (policy : Policy)
  | profilePublished (id : ProfileLabel) (digest : Digest)
  | profileAdmitted (id : ProfileLabel) (digest : Digest) (admitted : Bool)
  | profile (profile : Profile)
  | release (digest : Digest)
  | installation (installationId : Uuid)
  | appended (id : Uuid) (seq : ℕ) (duplicate : Bool)
  | record (view : RecordView)
  | page (page : Page)
  | pool (poolId : Uuid)
  | ledgerOpened (productId : Uuid)
  | bookOpened (bookId : Uuid)
  | flowLedgerOpened (bookId : Uuid) (key : String)
  | ledgerState (ledger : Ledger)
  | bookState (book : Book)
  | poolState (pool : Pool)
  | token (token : SignedToken)
  | authority (organizationId : Uuid) (generation : ℕ) (host : HostRef) (expiresAt : Instant)
  | evidence (source : Uuid) (purpose : String) (expiresAt : Instant)
      (records : List InspectedRecord) (profiles : List Profile)
  | chunk (migrationId : Uuid) (index : ℕ) (data : String) (hash : Digest)
  | migrationStatus (migrationId : Uuid) (uploaded : List ℕ) (total : ℕ)
      (ready activated aborted : Bool)
  | aborted (migrationId : Uuid)
  | staged (migrationId : Uuid) (uploaded : ℕ) (activated : Bool)
  | uploaded (migrationId : Uuid) (index uploaded : ℕ)
  | finalized (organizationId : Uuid) (generation : ℕ)
  deriving DecidableEq

/-- A remembered command: its digest and, for a mutation, the result it returned. -/
structure Receipt where
  hash : Digest
  result : Option Result
  expiresAt : Instant
  deriving DecidableEq

structure State where
  persons : Dict Uuid Person
  organizations : Dict Uuid Organization
  policies : Dict Uuid Policy
  profiles : Dict Digest Profile
  releases : Dict Digest Release
  records : Dict Uuid BusinessRecord
  inventory : Dict Uuid Inventory
  remoteAuthorities : Dict Uuid RemoteAuthority
  outgoing : Dict Uuid OutboundMigration
  incoming : Dict Uuid InboundMigration
  receipts : Dict Uuid Receipt
  recordSeq : Dict Uuid ℕ
  deriving DecidableEq

def emptyState : State := ⟨∅, ∅, ∅, ∅, ∅, ∅, ∅, ∅, ∅, ∅, ∅, ∅⟩

/-- The sequence number a company's next record takes: its counter, or one more than
its highest stored number when the company has no counter. -/
def nextRecordSeq (s : State) (organizationId : Uuid) : ℕ :=
  match s.recordSeq.get? organizationId with
  | some stored => stored
  | none =>
    (s.records.values.foldl
      (fun highest r =>
        if r.organizationId = organizationId ∧ r.seq > highest then r.seq else highest) 0) + 1

/-- Operator configuration, the host's key and clock. -/
structure Context where
  audience : String
  storeKey : KeyId
  pins : String → Option KeyId
  now : Instant
  assessmentPins : String → Option KeyId
  revokedAssessments : List Digest
  referenceProfiles : String → List Digest
  kinds : List (Kind × List Digest)
  protocolProfiles : Digest → Option ProfileContract

def Context.host (ctx : Context) : HostRef := ⟨ctx.audience, ctx.storeKey⟩

/-- `Number.MAX_SAFE_INTEGER`. -/
def maxSafeInteger : ℕ := 2 ^ 53 - 1

end DirectTrade
