import DirectTrade.Engine

/-!
What an accepted command does: `Effect` lists the outcomes of every action, each with the
guards that it passed.
-/

namespace DirectTrade

open Library

variable [Primitives]

namespace Call

structure Enrolls (k : Call) (keys : List KeyId) : Prop where
  fresh : k.previous = none
  person : k.c.actor.kind = .person
  apart : k.c.organizationId = none
  requester : k.c.requestedBy = some k.c.actor.id
  identity : k.c.actor.id = Primitives.personId k.c.actor.keyId
  size : 0 < keys.length ∧ keys.length ≤ 8 ∧ keys.Nodup
  holder : k.c.actor.keyId ∈ keys
  absent : k.s.persons.get? k.c.actor.id = none
  unreserved : personReserved k.s k.c.actor.id = false
  proven : ∀ key ∈ keys, FreeKey k.s key ∧ key ∈ k.signed

def enrolled (k : Call) (keys : List KeyId) : Person :=
  ⟨k.c.actor.id, keys, [], [k.stored (.personRegister keys)]⟩

def rotated (k : Call) (person : Person) (add revoke : List KeyId) : Person :=
  { person with
    keys := person.keys.filter (· ∉ revoke) ++ add
    retiredKeys := person.retiredKeys ++ revoke
    history := person.history ++ [k.stored (.personRotate add revoke)] }

structure Rotates (k : Call) (person : Person) (add revoke : List KeyId) : Prop where
  fresh : k.previous = none
  kind : k.c.actor.kind = .person
  apart : k.c.organizationId = none
  unreserved : personReserved k.s k.c.actor.id = false
  found : k.s.persons.get? k.c.actor.id = some person
  size : add.length + revoke.length ≤ 16
  distinct : (add ++ revoke).Nodup
  proven : ∀ key ∈ add, FreeKey k.s key ∧ key ∈ k.signed
  known : ∀ key ∈ revoke, key ∈ person.keys
  retained : 0 < (k.rotated person add revoke).keys.length ∧
    (k.rotated person add revoke).keys.length ≤ 8

structure Founds (k : Call) (orgId : Uuid) (name : String) (nonce : Uuid)
    (controllers : List Uuid) (threshold : ℕ) : Prop where
  fresh : k.previous = none
  named : k.c.organizationId = some orgId
  distinct : 1 ≤ controllers.length ∧ controllers.length ≤ 8 ∧ controllers.Nodup
  person : k.c.actor.kind = .person
  identity : orgId = Primitives.organizationId k.c.actor.id nonce
  founder : k.c.actor.id ∈ controllers
  threshold : 0 < threshold ∧ threshold ≤ controllers.length
  quorum : (controllers.filter (personSigned k.s k.signed)).length ≥ controllers.length
  absent : k.org = none
  unreserved : migrationReserved k.s orgId = false

def founded (orgId : Uuid) (name : String) (controllers : List Uuid) (threshold : ℕ) :
    Organization :=
  { id := orgId, name := name, controllers := controllers, threshold := threshold,
    generation := 1, status := .active, members := ∅, invitations := ∅,
    installations := ∅, history := [] }

/-- The installation that a write accepts, with the release it runs. -/
structure Installs (k : Call) (o : Organization) (p : InstallationPayload)
    (release : Release) : Prop where
  manages : Manages k.s o k.c .installationsManage k.ctx
  distinct : 1 ≤ p.policyIds.length ∧ p.policyIds.length ≤ 32 ∧ p.policyIds.Nodup
  lifetime : p.expiresAt > k.ctx.now ∧ p.expiresAt ≤ k.ctx.now + yearMillis
  released : k.s.releases.get? p.releaseDigest = some release
  scopes : ∀ id ∈ p.policyIds,
    ((k.s.policies.get? id).any fun pol => pol.organizationId = o.id) = true
  actions : 0 < p.actions.length ∧ p.actions.length ≤ 3 ∧ p.actions.Nodup ∧
    ∀ a ∈ p.actions, a ∈ release.actions
  unreserved : migrationInstallationReserved k.s p.installationId = false
  absent : ∀ x ∈ k.s.organizations.values, x.installations[p.installationId]? = none
  free : FreeKey k.s p.keyId
  proven : p.keyId ∈ k.signed
  covered : k.c.actor.id ∈ o.controllers ∨ covers o k.c.actor.id [] p.expiresAt = true

/-- The change of a company that one accepted command of its history makes. -/
inductive CompanyChange (k : Call) (o : Organization) : Mutation → Organization → Result → Prop
  | control (controllers : List Uuid) (threshold : ℕ) (control : Controls k.s o k.c k.signed)
      (distinct : 1 ≤ controllers.length ∧ controllers.length ≤ 8 ∧ controllers.Nodup)
      (bound : 0 < threshold ∧ threshold ≤ controllers.length)
      (consent : ((controllers.filter (· ∉ o.controllers)).filter
          (personSigned k.s k.signed)).length ≥ (controllers.filter (· ∉ o.controllers)).length) :
      CompanyChange k o (.organizationPolicy controllers threshold)
        { o with controllers := controllers, threshold := threshold } .changed
  | invite (invitationId personId : Uuid) (requested permissions : List Permission)
      (expiresAt : Instant) (manages : Manages k.s o k.c .membersManage k.ctx)
      (lifetime : expiresAt > k.ctx.now ∧ expiresAt ≤ k.ctx.now + yearMillis)
      (supported : checkPermissions requested = .ok permissions)
      (target : isPerson k.s personId = true ∧ personId ∉ o.controllers)
      (covered : k.c.actor.id ∈ o.controllers ∨
        covers o k.c.actor.id permissions expiresAt = true)
      (absent : o.invitations[invitationId]? = none) :
      CompanyChange k o (.membershipInvite invitationId personId requested expiresAt)
        { o with
          invitations := (consumeInvitations o.invitations personId).insert invitationId
            (newInvitation invitationId personId permissions expiresAt k.c.actor.id) }
        (.invitation invitationId)
  | accept (invitationId : Uuid) (inv : Invitation)
      (found : o.invitations[invitationId]? = some inv) (person : k.c.actor.kind = .person)
      (invitee : inv.personId = k.c.actor.id) (live : inv.active = true)
      (lifetime : inv.expiresAt > k.ctx.now)
      (inviter : activeMember k.s o inv.authorizedBy k.ctx.now = true)
      (manages : inv.authorizedBy ∈ o.controllers ∨
        (o.members.has inv.authorizedBy fun m => .membersManage ∈ m.permissions) = true)
      (covered : inv.authorizedBy ∈ o.controllers ∨
        covers o inv.authorizedBy inv.permissions inv.expiresAt = true)
      (unconsumed : inv.accepted = false) :
      CompanyChange k o (.membershipAccept invitationId)
        { o with
          members := o.members.insert k.c.actor.id inv.member
          invitations := o.invitations.insert invitationId { inv with accepted := true } }
        (.joined o.id)
  | revoke (personId : Uuid) (manages : Manages k.s o k.c .membersManage k.ctx)
      (target : personId ∉ o.controllers)
      (ordered : grantedLater k.s o personId k.c.issuedAt = false) :
      CompanyChange k o (.membershipRevoke personId)
        { o with
          members := deactivate o.members personId
          invitations := withdrawInvitations o.invitations personId } .revoked
  | install (p : InstallationPayload) (release : Release) (installs : k.Installs o p release) :
      CompanyChange k o (.installationCreate p)
        { o with
          installations := o.installations.insert p.installationId
            (newInstallation p release k.c.actor.id) }
        (.installation p.installationId)
  | uninstall (installationId : Uuid) (manages : Manages k.s o k.c .installationsManage k.ctx)
      (found : o.installations[installationId]? ≠ none) :
      CompanyChange k o (.installationRevoke installationId)
        { o with
          installations :=
            o.installations.modify installationId fun inst => { inst with active := false } }
        .revoked

def revised (k : Call) (o : Organization) (create : Bool) (p : PolicyPayload) : Policy :=
  let old := k.s.policies.get? p.policyId
  { id := p.policyId, organizationId := o.id, revision := (old.map (·.revision)).getD 0 + 1,
    classification := p.classification, stewards := p.stewards, threshold := p.threshold,
    grants := p.grants, history := (old.map (·.history)).getD [] ++
      [k.stored (if create then .policyCreate p else .policyUpdate p)] }

/-- The stewards that the prior revision does not have. -/
def joining (k : Call) (p : PolicyPayload) : List Uuid :=
  p.stewards.filter fun id =>
    (k.s.policies.get? p.policyId).all fun pol => id ∉ pol.stewards

structure Revises (k : Call) (o : Organization) (create : Bool) (p : PolicyPayload) : Prop where
  fresh : k.previous = none
  inside : k.Inside o
  unreserved : policyReserved k.s p.policyId = false
  authorized : if create then
      Manages k.s o k.c .policiesCreate k.ctx ∧ k.s.policies.get? p.policyId = none
    else ∃ pol, k.s.policies.get? p.policyId = some pol ∧ pol.organizationId = o.id ∧
      Stewards k.s o pol k.c k.signed k.ctx
  fits : PolicyFits (k.revised o create p) k.s o k.ctx
  consent : ((k.joining p).filter (personSigned k.s k.signed)).length ≥ (k.joining p).length
  expected : p.expectedRevision = ((k.s.policies.get? p.policyId).map (·.revision)).getD 0
  classification : (k.s.policies.get? p.policyId).all (·.classification = p.classification) = true

def published (k : Call) (o : Organization) (p : ProfilePayload) : Profile :=
  { publisherId := .organization o.id, name := p.name, version := p.version,
    schema := p.schema, semantics := p.semantics, dependencies := p.dependencies,
    id := ⟨.organization o.id, p.name, p.version⟩, digest := p.digest,
    visibility := p.visibility, readers := p.readers, command := k.stored (.profilePublish p) }

structure Publishes (k : Call) (o : Organization) (p : ProfilePayload) : Prop where
  fresh : k.previous = none
  inside : k.Inside o
  manages : Manages k.s o k.c .profilesPublish k.ctx
  readers : p.readers.length ≤ 64 ∧ p.readers.Nodup
  valid : validateProfile (k.published o p) k.s.profiles.get? = .ok ()
  unreserved : profileReserved k.s p.digest = false
  unclaimed : migrationProfileReserved k.s (k.published o p).id = false
  immutable : ∀ x ∈ k.s.profiles.values, x.id ≠ (k.published o p).id

structure Admits (k : Call) (o : Organization) (digest : Digest) (contract : ProfileContract) :
    Prop where
  fresh : k.previous = none
  inside : k.Inside o
  manages : Manages k.s o k.c .profilesPublish k.ctx
  registered : k.ctx.protocolProfiles digest = some contract
  valid : validateProfile (protocolProfile contract digest (k.stored (.profileAdmit digest)))
    k.s.profiles.get? = .ok ()

def released (k : Call) (o : Organization) (p : ReleasePayload) : Release :=
  { p with publisherId := o.id, digest := Primitives.digestRelease o.id p,
           command := k.stored (.releasePublish p) }

structure Releases (k : Call) (o : Organization) (p : ReleasePayload) : Prop where
  fresh : k.previous = none
  inside : k.Inside o
  manages : Manages k.s o k.c .releasesPublish k.ctx
  version : isVersion p.version = true
  profiles : 0 < p.profiles.length ∧ p.profiles.length ≤ 16 ∧ p.profiles.Nodup ∧
    ∀ d ∈ p.profiles, (k.s.profiles.get? d).any (accessibleProfile · o.id) = true
  actions : 0 < p.actions.length ∧ p.actions.length ≤ 3 ∧ p.actions.Nodup
  unreserved : releaseReserved k.s (Primitives.digestRelease o.id p) = false
  unclaimed : migrationModuleReserved k.s p.moduleId = false
  immutable : ∀ r ∈ k.s.releases.values, r.moduleId = p.moduleId → r.version ≠ p.version
  owned : ∀ r ∈ k.s.releases.values, r.moduleId = p.moduleId → r.publisherId = o.id

variable [Reducers]

/-- A record that passed every check of `record.append` before the rules of its profile:
`before` is its readable predecessor and `s` the tables with the counterparties attested. -/
structure Appends (k : Call) (o : Organization) (p : RecordPayload) (profile : Profile)
    (before : Option BusinessRecord) (s : State) : Prop where
  fresh : k.previous = none
  inside : k.Inside o
  parties : p.counterpartyIds.length ≤ 16 ∧ p.counterpartyIds.Nodup
  own : p.organizationId = o.id ∧ o.id ∉ p.counterpartyIds
  writable : k.can p.policyId p.resourceId .write = .ok true
  pinned : k.s.profiles.get? p.profileDigest = some profile
  accessible : accessibleProfile profile o.id = true
  absent : k.s.records.get? p.id = none
  unreserved : recordReserved k.s p.id = false
  capacity : 1 ≤ nextRecordSeq k.s o.id ∧ nextRecordSeq k.s o.id < maxSafeInteger
  predecessor : k.predecessor o p = .ok before
  continues : continuity p before = .ok ()
  attested : k.counterparties p.counterpartyIds = .ok s
  shaped : validateShape profile.schema p.body = true

def appended (k : Call) (o : Organization) (p : RecordPayload) (validation : Validation) :
    BusinessRecord :=
  { p with
    command := k.stored (.recordAppend p), seq := nextRecordSeq k.s o.id, isHead := true,
    acceptedAt := k.ctx.now, validation := validation }

/-- The entry that a stock action starts from, with the members it needs. -/
def stockBase (s : State) (org : Uuid) : Mutation → Inventory
  | .inventoryCreate _ _ _ _ => companyInventory s org
  | .inventoryOpen _ _ => inventoryState s org
  | _ => flowState s org

/-- The change of a company's stock that one accepted opening makes. -/
inductive StockChange (k : Call) (o : Organization) : Mutation → Inventory → Result → Prop
  | pool (policyId poolId productId : Uuid) (baseUnit : String) (pool : InventoryState)
      (writable : k.can policyId poolId .write = .ok true)
      (absent : (companyInventory k.s o.id).pools[poolId]? = none)
      (opened : createInventoryState o.id poolId productId baseUnit = some pool) :
      StockChange k o (.inventoryCreate policyId poolId productId baseUnit)
        { companyInventory k.s o.id with
          pools := (companyInventory k.s o.id).pools.insert poolId (pool.withPolicy policyId)
          creations := (companyInventory k.s o.id).creations.insert poolId
            (k.stored (.inventoryCreate policyId poolId productId baseUnit)) }
        (.pool poolId)
  | ledger (policyId productId : Uuid) (product : BusinessRecord) (ledger : InventoryLedger)
      (writable : k.can policyId productId .write = .ok true)
      (head : k.readableHead o (some productId) .productV1 "product unavailable" = .ok product)
      (absent : (inventoryState k.s o.id).ledgerIndex.ledgers[productId]? = none)
      (opened : openInventoryLedger o.id productId product.body = some ledger) :
      StockChange k o (.inventoryOpen policyId productId)
        ((inventoryState k.s o.id).setIndex { (inventoryState k.s o.id).ledgerIndex with
          ledgers := (inventoryState k.s o.id).ledgerIndex.ledgers.insert productId
            (ledger.withPolicy policyId)
          openings := (inventoryState k.s o.id).ledgerIndex.openings.insert productId
            (k.stored (.inventoryOpen policyId productId)) })
        (.ledgerOpened productId)
  | book (policyId bookId : Uuid) (writable : k.can policyId bookId .write = .ok true)
      (absent : (flowState k.s o.id).flowIndex.books[bookId]? = none) :
      StockChange k o (.flowOpen policyId bookId)
        ((flowState k.s o.id).setFlow { (flowState k.s o.id).flowIndex with
          books := (flowState k.s o.id).flowIndex.books.insert bookId
            ((openFlowBook o.id bookId).withPolicy policyId)
          bookOpenings := (flowState k.s o.id).flowIndex.bookOpenings.insert bookId
            (k.stored (.flowOpen policyId bookId)) })
        (.bookOpened bookId)
  | bookLedger (p : LedgerPayload) (book : Book) (key : String) (opened : FlowBook)
      (writable : k.can p.policyId p.bookId .write = .ok true)
      (found : (flowState k.s o.id).flowIndex.books[p.bookId]? = some book)
      (held : book.policyId = p.policyId)
      (opens : k.openLedger o book p = .ok (key, opened)) :
      StockChange k o (.flowLedgerOpen p)
        ((flowState k.s o.id).setFlow { (flowState k.s o.id).flowIndex with
          books := (flowState k.s o.id).flowIndex.books.insert p.bookId
            (opened.withPolicy book.policyId)
          ledgerOpenings := (flowState k.s o.id).flowIndex.ledgerOpenings.insert
            (ledgerOpeningKey p.bookId (.str key)) (k.stored (.flowLedgerOpen p)) })
        (.flowLedgerOpened p.bookId key)

/-- An attestation that a host stores for a company; `hop` is a verified previous one. -/
structure Attests (s : State) (token : SignedToken) (ctx : Context) (hop : Option Digest)
    (b : AuthorityBody) : Prop where
  verified : verifyToken TokenBody.authority? token ctx = .ok b
  bound : 1 ≤ b.generation ∧ b.generation ≤ maxSafeInteger
  remote : b.issuer ≠ ctx.audience
  elsewhere : (s.organizations.get? b.organizationId).all (fun org =>
    org.status = .migrated && b.generation > org.generation) = true
  continues : ∀ old, (s.remoteAuthorities.get? b.organizationId).map (·.token) = some old →
    continues old b token.keyId (localHandoff s b token.keyId ||
      decide (hop = some (Primitives.digestToken (old.map .authority)))) = .ok ()

def attested (s : State) (token : SignedToken) (b : AuthorityBody) : State :=
  { s with remoteAuthorities :=
      s.remoteAuthorities.set b.organizationId ⟨⟨b, token.keyId, token.signature⟩⟩ }

/-- A snapshot that the active source company hands out under a new migration. -/
structure Prepares (k : Call) (o : Organization) (destination : HostRef) (snapshot : Snapshot)
    (org : Organization) : Prop where
  inside : k.Inside o
  controls : Controls k.s o k.c k.signed
  stewards : k.assertAllStewards o = .ok ()
  built : buildSnapshot k.s o.id k.ctx = .ok snapshot
  source : k.s.organizations.get? snapshot.organization.id = some org
  active : org.status = .active
  generation : org.generation = snapshot.organization.generation
  named : k.c.organizationId = some org.id
  bound : 1 ≤ org.generation ∧ org.generation < maxSafeInteger
  pinned : k.ctx.pins destination.audience = some destination.keyId
  apart : destination.audience ≠ k.ctx.audience ∧ destination.keyId ≠ k.ctx.storeKey
  size : 0 < (Primitives.snapshotBytes snapshot).length ∧
    (Primitives.snapshotBytes snapshot).length ≤ migrationMaxBytes

def manifestBody (k : Call) (org : Organization) (snapshot : Snapshot)
    (destination : HostRef) : ManifestBody :=
  let manifest := manifestOf k.c.requestId org k.ctx snapshot destination
    (Primitives.snapshotBytes snapshot)
  { issuer := k.ctx.audience, issuedAt := k.ctx.now, expiresAt := manifest.expiresAt,
    actorId := k.c.actor.id, manifest := manifest }

/-- A token body signed by this host. -/
def issue {β : Type} (k : Call) (wrap : β → TokenBody) (body : β) : Signed β :=
  ⟨body, k.ctx.storeKey, Primitives.sign k.ctx.storeKey (wrap body)⟩

def outbound (k : Call) (org : Organization) (snapshot : Snapshot) (destination : HostRef) :
    OutboundMigration :=
  { manifest := (k.manifestBody org snapshot destination).manifest
    chunks := (parts (Primitives.snapshotBytes snapshot)).map b64
    manifestToken := k.issue .manifest (k.manifestBody org snapshot destination)
    authorization := k.stored (.migrationPrepare destination)
    commitToken := none
    cancelToken := none }

/-- A commit that freezes the source company under a fresh destination readiness. -/
structure Commits (k : Call) (o : Organization) (migrationId : Uuid) (ready : SignedToken)
    (snapshot : Snapshot) (out : OutboundMigration) (org : Organization) (body : ReadyBody) :
    Prop where
  named : k.org = some o
  controls : Controls k.s o k.c k.signed
  stewards : k.assertAllStewards o = .ok ()
  built : buildSnapshot k.s o.id k.ctx = .ok snapshot
  found : k.s.outgoing.get? migrationId = some out
  own : out.manifest.organizationId = o.id
  source : out.manifest.source = k.ctx.host
  uncancelled : out.cancelToken = none
  uncommitted : out.commitToken = none
  company : k.s.organizations.get? out.manifest.organizationId = some org
  active : org.status = .active
  generation : org.generation = out.manifest.generation
  ready : readyMatches ready out.manifest k.ctx false = .ok body
  ordered : body.issuedAt ≤ k.ctx.now
  lifetime : out.manifest.expiresAt > k.ctx.now
  unchanged : Primitives.digestSnapshot snapshot = out.manifest.snapshotHash

def committed (k : Call) (migrationId : Uuid) (ready : SignedToken) (out : OutboundMigration)
    (body : ReadyBody) : Signed CommitBody :=
  k.issue .commit (commitBody out.manifest migrationId
    ⟨body, ready.keyId, ready.signature⟩ k.ctx)

/-- A migration of the named company that this host is the source of. -/
structure Owns (k : Call) (migrationId : Uuid) (out : OutboundMigration) (o : Organization) :
    Prop where
  named : k.org = some o
  controls : Controls k.s o k.c k.signed
  found : k.s.outgoing.get? migrationId = some out
  own : out.manifest.organizationId = o.id
  source : out.manifest.source = k.ctx.host

def cancelBody (k : Call) (migrationId : Uuid) (out : OutboundMigration) : CancelBody :=
  { issuer := k.ctx.audience, issuedAt := k.ctx.now, expiresAt := k.ctx.now + 3600000,
    migrationId := migrationId, organizationId := out.manifest.organizationId,
    manifestHash := Primitives.digestManifest out.manifest,
    destination := out.manifest.destination }

/-- A stage that its owner works on at its destination. -/
structure Stages (k : Call) (migrationId : Uuid) (stage : InboundMigration) : Prop where
  found : k.s.incoming.get? migrationId = some stage
  person : k.c.actor.kind = .person
  apart : k.c.organizationId = none
  owner : stage.manifestToken.body.actorId = k.c.actor.id
  destination : stage.manifest.destination = k.ctx.host

/-- A manifest token that this host may stage. -/
structure Manifests (k : Call) (token : SignedToken) (body : ManifestBody) : Prop where
  person : k.c.actor.kind = .person
  apart : k.c.organizationId = none
  owner : body.actorId = k.c.actor.id
  verified : verifyToken TokenBody.manifest? token k.ctx = .ok body
  shape : manifestShape body.manifest = .ok ()
  destination : body.manifest.destination = k.ctx.host
  source : body.issuer = body.manifest.source.audience ∧
    token.keyId = body.manifest.source.keyId

def staged (token : SignedToken) (body : ManifestBody) : InboundMigration :=
  { manifest := body.manifest, manifestToken := ⟨body, token.keyId, token.signature⟩,
    chunks := ∅, readyToken := none, snapshot := none, activated := false, aborted := false }

def readyBody (k : Call) (migrationId : Uuid) (m : MigrationManifest) : ReadyBody :=
  { issuer := k.ctx.audience, issuedAt := k.ctx.now, expiresAt := m.expiresAt,
    manifestHash := Primitives.digestManifest m, migrationId := migrationId,
    organizationId := m.organizationId, generation := m.generation, source := m.source,
    destination := m.destination, snapshotHash := m.snapshotHash }

/-- A commit receipt that binds a ready stage. -/
structure Binds (k : Call) (migrationId : Uuid) (token : SignedToken)
    (stage : InboundMigration) (ready : Signed ReadyBody) (body : CommitBody) : Prop where
  live : stage.aborted = false
  readied : stage.readyToken = some ready
  verified : durable TokenBody.commit? token k.ctx = .ok body
  matching : commitMatches body token.keyId stage.manifest migrationId ready = .ok ()

/-- A read, or a disclosure that leaves the state as it is. The only host token that a
read hands out besides disclosures is a stored commit receipt. -/
structure Reads (k : Call) (result : Option Result) : Prop where
  action : k.c.payload.observes = true
  token : ∀ token, result = some (.token token) →
    (∃ b, token.body = .authority b) ∨ (∃ b, token.body = .evidence b) ∨
      ∃ id out commit, k.s.outgoing.get? id = some out ∧ out.commitToken = some commit ∧
        token = commit.map .commit

/-- What an accepted command replies, before its history entry and its receipt. -/
inductive Effect (k : Call) : Reply → Prop
  | replay (m : Mutation) (receipt : Receipt) (payload : k.c.payload = .mutation m)
      (recorded : m.opens = false ∧ m.prepares = false) (previous : k.previous = some receipt) :
      Effect k (k.answer receipt.result)
  | read (result : Option Result) (reads : k.Reads result) : Effect k (k.answer result)
  | register (keys : List KeyId) (payload : k.c.payload = .mutation (.personRegister keys))
      (enrolls : k.Enrolls keys) :
      Effect k (Reply.write { k.s with
          persons := k.s.persons.set k.c.actor.id (k.enrolled keys) } (.person k.c.actor.id))
  | rotate (add revoke : List KeyId) (person : Person)
      (payload : k.c.payload = .mutation (.personRotate add revoke))
      (rotates : k.Rotates person add revoke) :
      Effect k (Reply.write { k.s with
          persons := k.s.persons.set k.c.actor.id (k.rotated person add revoke) }
        (.rotated person.id (k.rotated person add revoke).keys))
  | found (orgId : Uuid) (name : String) (nonce : Uuid) (controllers : List Uuid)
      (threshold : ℕ)
      (payload : k.c.payload = .mutation (.organizationCreate name nonce controllers threshold))
      (founds : k.Founds orgId name nonce controllers threshold) :
      Effect k ⟨k.setOrg (founded orgId name controllers threshold),
        some (.organization orgId), true⟩
  | company (o o' : Organization) (m : Mutation) (result : Result)
      (payload : k.c.payload = .mutation m) (fresh : k.previous = none) (inside : k.Inside o)
      (change : k.CompanyChange o m o' result) : Effect k ⟨k.setOrg o', some result, true⟩
  | revise (o : Organization) (create : Bool) (p : PolicyPayload)
      (payload : k.c.payload = .mutation (if create then .policyCreate p else .policyUpdate p))
      (revises : k.Revises o create p) :
      Effect k (Reply.write { k.s with
          policies := k.s.policies.set p.policyId (k.revised o create p) }
        (.policyWritten p.policyId (k.revised o create p).revision))
  | publish (o : Organization) (p : ProfilePayload)
      (payload : k.c.payload = .mutation (.profilePublish p)) (publishes : k.Publishes o p) :
      Effect k (Reply.write { k.s with
          profiles := k.s.profiles.set p.digest (k.published o p) }
        (.profilePublished (k.published o p).id p.digest))
  | admitContract (o : Organization) (digest : Digest) (contract : ProfileContract)
      (payload : k.c.payload = .mutation (.profileAdmit digest))
      (admits : k.Admits o digest contract) (absent : k.s.profiles.get? digest = none) :
      Effect k (Reply.write { k.s with
          profiles := k.s.profiles.set digest
            (protocolProfile contract digest (k.stored (.profileAdmit digest))) }
        (.profileAdmitted ⟨.dtp, contract.name, contract.version⟩ digest true))
  | contractAdmitted (o : Organization) (digest : Digest) (contract : ProfileContract)
      (profile : Profile) (payload : k.c.payload = .mutation (.profileAdmit digest))
      (admits : k.Admits o digest contract) (known : k.s.profiles.get? digest = some profile) :
      Effect k (k.answer
        (some (.profileAdmitted ⟨.dtp, contract.name, contract.version⟩ digest false)))
  | release (o : Organization) (p : ReleasePayload)
      (payload : k.c.payload = .mutation (.releasePublish p)) (releases : k.Releases o p) :
      Effect k (Reply.write { k.s with
          releases := k.s.releases.set (k.released o p).digest (k.released o p) }
        (.release (k.released o p).digest))
  | append (o : Organization) (p : RecordPayload) (profile : Profile)
      (before : Option BusinessRecord) (s : State) (company : Option Inventory)
      (validation : Validation) (payload : k.c.payload = .mutation (.recordAppend p))
      (appends : k.Appends o p profile before s)
      (assessed : k.assess s o profile p before = .ok (.validated company validation)) :
      Effect k (Reply.write (insertRecord (company.elim s (s.setInventory o.id)) o.id
        (k.appended o p validation)) (.appended p.id (nextRecordSeq k.s o.id) false))
  | duplicate (o : Organization) (p : RecordPayload) (profile : Profile)
      (before : Option BusinessRecord) (s : State) (company : Inventory) (recordId : Uuid)
      (recorded : BusinessRecord) (payload : k.c.payload = .mutation (.recordAppend p))
      (appends : k.Appends o p profile before s)
      (assessed : k.assess s o profile p before = .ok (.duplicate company recordId))
      (known : s.records.get? recordId = some recorded) :
      Effect k (Reply.write (s.setInventory o.id company)
        (.appended recordId recorded.seq true))
  | replayStock (o : Organization) (m : Mutation) (receipt : Receipt)
      (payload : k.c.payload = .mutation m) (opens : m.opens = true) (inside : k.Inside o)
      (previous : k.previous = some receipt) :
      Effect k ⟨k.s.setInventory o.id (stockBase k.s o.id m), receipt.result, false⟩
  | stock (o : Organization) (m : Mutation) (company : Inventory) (result : Result)
      (payload : k.c.payload = .mutation m) (fresh : k.previous = none) (inside : k.Inside o)
      (change : k.StockChange o m company result) :
      Effect k (Reply.write (k.s.setInventory o.id company) result)
  | attest (token : SignedToken) (hop : Option Digest) (b : AuthorityBody)
      (payload : k.c.payload = .authorityImport token ∨
        ∃ commit, k.c.payload = .authorityRelocate token commit)
      (attests : Attests k.s token k.ctx hop b) :
      Effect k (Reply.write (attested k.s token b)
        (.authority b.organizationId b.generation b.host b.expiresAt))
  | prepareAgain (o : Organization) (destination : HostRef) (snapshot : Snapshot)
      (org : Organization) (prior : OutboundMigration)
      (payload : k.c.payload = .mutation (.migrationPrepare destination))
      (prepares : k.Prepares o destination snapshot org)
      (known : k.s.outgoing.get? k.c.requestId = some prior)
      (same : Primitives.digestCommand prior.authorization.signedForm =
        Primitives.digestCommand k.c) :
      Effect k (Reply.write k.s (.token (prior.manifestToken.map .manifest)))
  | prepare (o : Organization) (destination : HostRef) (snapshot : Snapshot)
      (org : Organization) (payload : k.c.payload = .mutation (.migrationPrepare destination))
      (prepares : k.Prepares o destination snapshot org)
      (absent : k.s.outgoing.get? k.c.requestId = none) :
      Effect k (Reply.write { k.s with
          outgoing := k.s.outgoing.set k.c.requestId (k.outbound org snapshot destination) }
        (.token ((k.outbound org snapshot destination).manifestToken.map .manifest)))
  | commitAgain (migrationId : Uuid) (ready : SignedToken) (out : OutboundMigration)
      (o : Organization) (token : Signed CommitBody)
      (payload : k.c.payload = .migrationCommit migrationId ready)
      (owns : k.Owns migrationId out o) (known : out.commitToken = some token) :
      Effect k (Reply.write k.s (.token (token.map .commit)))
  | commit (o : Organization) (migrationId : Uuid) (ready : SignedToken) (snapshot : Snapshot)
      (out : OutboundMigration) (org : Organization) (body : ReadyBody)
      (payload : k.c.payload = .migrationCommit migrationId ready)
      (commits : k.Commits o migrationId ready snapshot out org body) :
      Effect k (Reply.write { k.s with
          outgoing := k.s.outgoing.set migrationId
            { out with commitToken := some (k.committed migrationId ready out body) }
          organizations := k.s.organizations.set out.manifest.organizationId
            { org with status := .migrated } }
        (.token ((k.committed migrationId ready out body).map .commit)))
  | cancelAgain (migrationId : Uuid) (out : OutboundMigration) (o : Organization)
      (token : Signed CancelBody) (payload : k.c.payload = .migrationCancel migrationId)
      (owns : k.Owns migrationId out o) (known : out.cancelToken = some token) :
      Effect k (Reply.write k.s (.token (token.map .cancel)))
  | cancel (migrationId : Uuid) (out : OutboundMigration) (o : Organization)
      (payload : k.c.payload = .migrationCancel migrationId)
      (owns : k.Owns migrationId out o) (uncommitted : out.commitToken = none)
      (uncancelled : out.cancelToken = none) :
      Effect k (Reply.write { k.s with
          outgoing := k.s.outgoing.set migrationId
            { out with cancelToken := some (k.issue .cancel (k.cancelBody migrationId out)) } }
        (.token ((k.issue .cancel (k.cancelBody migrationId out)).map .cancel)))
  | stageAgain (token : SignedToken) (body : ManifestBody) (old : InboundMigration)
      (payload : k.c.payload = .migrationStage token) (manifests : k.Manifests token body)
      (known : k.s.incoming.get? body.manifest.migrationId = some old)
      (live : old.aborted = false) :
      Effect k (Reply.write k.s
        (.staged body.manifest.migrationId old.chunks.size old.activated))
  | stage (token : SignedToken) (body : ManifestBody)
      (payload : k.c.payload = .migrationStage token) (manifests : k.Manifests token body)
      (absent : k.s.incoming.get? body.manifest.migrationId = none)
      (company : k.s.organizations.get? body.manifest.organizationId = none)
      (unreserved : migrationReserved k.s body.manifest.organizationId = false) :
      Effect k (Reply.write { k.s with
          incoming := k.s.incoming.set body.manifest.migrationId (staged token body) }
        (.staged body.manifest.migrationId 0 false))
  | upload (migrationId : Uuid) (index : ℕ) (data : String) (stage : InboundMigration)
      (payload : k.c.payload = .migrationUpload migrationId index data)
      (stages : k.Stages migrationId stage) (pending : stage.pending = true)
      (known : stage.chunks[index]?.all (· = data) = true) :
      Effect k (Reply.write { k.s with
          incoming := k.s.incoming.set migrationId
            { stage with chunks := stage.chunks.insert index data } }
        (.uploaded migrationId index (stage.chunks.insert index data).size))
  | readyAgain (migrationId : Uuid) (stage : InboundMigration) (token : Signed ReadyBody)
      (payload : k.c.payload = .migrationReady migrationId)
      (stages : k.Stages migrationId stage) (pending : stage.pending = true)
      (known : stage.readyToken = some token) :
      Effect k (Reply.write k.s (.token (token.map .ready)))
  | ready (migrationId : Uuid) (stage : InboundMigration) (snapshot : Snapshot)
      (payload : k.c.payload = .migrationReady migrationId)
      (stages : k.Stages migrationId stage) (pending : stage.pending = true)
      (unready : stage.readyToken = none)
      (lifetime : stage.manifest.expiresAt > k.ctx.now)
      (assembled : stagedSnapshot stage = .ok snapshot)
      (absent : k.s.organizations.get? stage.manifest.organizationId = none)
      (valid : validateSnapshot k.s snapshot = .ok ()) :
      Effect k (Reply.write { k.s with
          incoming := k.s.incoming.set migrationId { stage with
            snapshot := some snapshot
            readyToken := some (k.issue .ready (k.readyBody migrationId stage.manifest)) } }
        (.token ((k.issue .ready (k.readyBody migrationId stage.manifest)).map .ready)))
  | finalizeAgain (migrationId : Uuid) (token : SignedToken) (stage : InboundMigration)
      (ready : Signed ReadyBody) (body : CommitBody)
      (payload : k.c.payload = .migrationFinalize migrationId token)
      (stages : k.Stages migrationId stage) (binds : k.Binds migrationId token stage ready body)
      (activated : stage.activated = true) :
      Effect k (Reply.write k.s (.finalized stage.manifest.organizationId
        (stage.manifest.generation + 1)))
  | finalize (migrationId : Uuid) (token : SignedToken) (stage : InboundMigration)
      (ready : Signed ReadyBody) (body : CommitBody) (snapshot : Snapshot)
      (payload : k.c.payload = .migrationFinalize migrationId token)
      (stages : k.Stages migrationId stage) (binds : k.Binds migrationId token stage ready body)
      (inactive : stage.activated = false) (held : stage.snapshot = some snapshot)
      (absent : k.s.organizations.get? stage.manifest.organizationId = none)
      (digest : Primitives.digestSnapshot snapshot = stage.manifest.snapshotHash)
      (valid : validateSnapshot k.s snapshot = .ok ())
      (activates : ((takeOver k.s snapshot).organizations.get?
        stage.manifest.organizationId).any (fun org =>
          org.status = .active && org.generation = stage.manifest.generation + 1) = true) :
      Effect k (Reply.write { takeOver k.s snapshot with
          incoming := k.s.incoming.set migrationId
            { stage with activated := true, snapshot := none, chunks := ∅ } }
        (.finalized stage.manifest.organizationId (stage.manifest.generation + 1)))
  | abort (migrationId : Uuid) (token : SignedToken) (stage : InboundMigration)
      (body : CancelBody) (payload : k.c.payload = .migrationAbort migrationId token)
      (stages : k.Stages migrationId stage) (inactive : stage.activated = false)
      (verified : durable TokenBody.cancel? token k.ctx = .ok body)
      (source : body.issuer = stage.manifest.source.audience ∧
        token.keyId = stage.manifest.source.keyId)
      (matching : body.migrationId = migrationId ∧
        body.organizationId = stage.manifest.organizationId ∧
        body.manifestHash = Primitives.digestManifest stage.manifest) :
      Effect k (Reply.write { k.s with
          incoming := k.s.incoming.set migrationId { stage with
            aborted := true, chunks := ∅, snapshot := none, readyToken := none } }
        (.aborted migrationId))

end Call
end DirectTrade
