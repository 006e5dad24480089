import DirectTrade.Evidence

/-!
Execution of one signed command in one transaction: a refused command leaves the state
as it was, an accepted one leaves a receipt.
-/

namespace DirectTrade

open Library

variable [Primitives] [Reducers]

namespace Call

def result (_ : Call) (changed : State × Result) : Reply := Reply.write changed.1 changed.2

/-- The outgoing migration of the company that the command names. -/
def ownMigration (k : Call) (o : Organization) (migrationId : Uuid) : Attempt Unit :=
  demand ((k.s.outgoing.get? migrationId).any (·.manifest.organizationId = o.id) = true)
    "not_found" "migration unavailable" 404

/-- The staging owner acts personally on its own stage. -/
def stagingOwner (k : Call) (migrationId : Uuid) (code message : String) (status : ℕ) :
    Attempt InboundMigration :=
  require ((k.s.incoming.get? migrationId).filter fun stage =>
      k.c.actor.kind = .person && k.c.organizationId = none &&
      stage.manifestToken.body.actorId = k.c.actor.id)
    code message status

def prepare (k : Call) (m : Mutation) (destination : HostRef) : Attempt Reply := do
  let o ← k.asController (← k.currentOrg)
  k.assertAllStewards o
  let snapshot ← buildSnapshot k.s o.id k.ctx
  let changed ← migrationPrepare k.s k.c (k.stored m) k.ctx snapshot destination
  pure (k.result changed)

def chunk (k : Call) (migrationId : Uuid) (index : ℕ) : Attempt Reply := do
  let out ← require (k.s.outgoing.get? migrationId) "not_found" "migration unavailable" 404
  let o ← k.needOrg
  demand (out.manifest.organizationId = o.id) "not_found" "migration unavailable" 404
  let o ← k.asController o
  k.assertAllStewards o
  let result ← DirectTrade.migrationChunk k.s migrationId index
  pure (k.answer (some result))

def commit (k : Call) (migrationId : Uuid) (ready : SignedToken) : Attempt Reply := do
  let o ← k.asController (← k.needOrg)
  k.assertAllStewards o
  k.ownMigration o migrationId
  let snapshot ← buildSnapshot k.s o.id k.ctx
  let changed ← migrationCommit k.s migrationId ready k.ctx snapshot
  pure (k.result changed)

def receipt (k : Call) (migrationId : Uuid) : Attempt Reply := do
  let o ← k.asController (← k.needOrg)
  k.ownMigration o migrationId
  let result ← DirectTrade.migrationReceipt k.s migrationId
  pure (k.answer (some result))

def status (k : Call) (migrationId : Uuid) : Attempt Reply := do
  let stage ← k.stagingOwner migrationId "not_found" "migration unavailable" 404
  pure (k.answer (some (.migrationStatus migrationId stage.chunks.keys
    stage.manifest.chunkHashes.length stage.readyToken.isSome stage.activated stage.aborted)))

def cancel (k : Call) (migrationId : Uuid) : Attempt Reply := do
  let o ← k.asController (← k.needOrg)
  k.ownMigration o migrationId
  let changed ← DirectTrade.migrationCancel k.s migrationId k.ctx
  pure (k.result changed)

def abort (k : Call) (migrationId : Uuid) (token : SignedToken) : Attempt Reply := do
  let _ ← k.stagingOwner migrationId "forbidden" "staging owner required" 403
  let changed ← DirectTrade.migrationAbort k.s migrationId token k.ctx
  pure (k.result changed)

def stage (k : Call) (manifest : SignedToken) : Attempt Reply := do
  demand (k.c.actor.kind = .person ∧ k.c.organizationId = none ∧
      manifest.body.manifest?.any (·.actorId = k.c.actor.id))
    "forbidden" "manifest-bound controller required" 403
  let changed ← DirectTrade.migrationStage k.s k.ctx manifest
  pure (k.result changed)

def upload (k : Call) (migrationId : Uuid) (index : ℕ) (data : String) : Attempt Reply := do
  let _ ← k.stagingOwner migrationId "forbidden" "staging owner required" 403
  let changed ← DirectTrade.migrationUpload k.s migrationId index data k.ctx
  pure (k.result changed)

def ready (k : Call) (migrationId : Uuid) : Attempt Reply := do
  let _ ← k.stagingOwner migrationId "forbidden" "staging owner required" 403
  let changed ← DirectTrade.migrationReady k.s migrationId k.c k.ctx
  pure (k.result changed)

def finalize (k : Call) (migrationId : Uuid) (token : SignedToken) : Attempt Reply := do
  let _ ← k.stagingOwner migrationId "forbidden" "staging owner required" 403
  let changed ← DirectTrade.migrationFinalize k.s migrationId token k.ctx
  pure (k.result changed)

def authorityExport (k : Call) : Attempt Reply := do
  let o ← k.currentOrg
  management k.s o k.c .authorityManage k.ctx
  let token ← authorityIssue k.s o.id k.ctx
  pure (k.answer (some (.token token)))

def authorityImport (k : Call) (token : SignedToken) : Attempt Reply := do
  let o ← k.currentOrg
  management k.s o k.c .authorityManage k.ctx
  let changed ← authorityAccept k.s token k.ctx
  pure (k.result changed)

def authorityRelocate (k : Call) (token commit : SignedToken) : Attempt Reply := do
  let o ← k.currentOrg
  management k.s o k.c .authorityManage k.ctx
  let changed ← DirectTrade.authorityRelocate k.s token commit k.ctx
  pure (k.result changed)

def mutate (k : Call) (m : Mutation) : Attempt Reply :=
  match m with
  | .personRegister keys => k.personRegister keys
  | .personRotate add revoke => k.personRotate add revoke
  | .organizationCreate name nonce controllers threshold =>
    k.organizationCreate name nonce controllers threshold
  | .organizationPolicy controllers threshold => k.organizationPolicy controllers threshold
  | .membershipInvite invitationId personId permissions expiresAt =>
    k.membershipInvite invitationId personId permissions expiresAt
  | .membershipAccept invitationId => k.membershipAccept invitationId
  | .membershipRevoke personId => k.membershipRevoke personId
  | .policyCreate p => k.policyWrite true p
  | .policyUpdate p => k.policyWrite false p
  | .profilePublish p => k.profilePublish p
  | .profileAdmit digest => k.profileAdmit digest
  | .releasePublish p => k.releasePublish p
  | .installationCreate p => k.installationCreate p
  | .installationRevoke installationId => k.installationRevoke installationId
  | .recordAppend p => k.recordAppend p
  | .inventoryCreate policyId poolId productId baseUnit =>
    k.inventoryCreate m policyId poolId productId baseUnit
  | .inventoryOpen policyId productId => k.inventoryOpen m policyId productId
  | .flowOpen policyId bookId => k.flowOpen m policyId bookId
  | .flowLedgerOpen p => k.flowLedgerOpen m p
  | .migrationPrepare destination => k.prepare m destination

def dispatch (k : Call) : Attempt Reply :=
  match k.c.payload with
  | .mutation m => k.mutate m
  | .organizationsList => k.organizationsList
  | .policyGet policyId => k.policyGet policyId
  | .profileGet digest => k.profileGet digest
  | .recordGet id profileDigest => k.recordGet id profileDigest
  | .recordsList page => k.recordsPage page false
  | .recordsExport page => k.recordsPage page true
  | .workspaceView page => k.recordsPage page false
  | .inventoryGet policyId poolId => k.inventoryGet policyId poolId
  | .inventoryLedger policyId productId => k.inventoryLedger policyId productId
  | .flowBook policyId bookId => k.flowBook policyId bookId
  | .authorityExport => k.authorityExport
  | .authorityImport token => k.authorityImport token
  | .authorityRelocate token commit => k.authorityRelocate token commit
  | .evidenceIssue recordIds recipient purpose expiresAt =>
    k.evidenceIssue recordIds recipient purpose expiresAt
  | .evidenceInspect token accepted => k.evidenceInspect token accepted
  | .migrationChunk migrationId index => k.chunk migrationId index
  | .migrationCommit migrationId ready => k.commit migrationId ready
  | .migrationReceipt migrationId => k.receipt migrationId
  | .migrationStatus migrationId => k.status migrationId
  | .migrationCancel migrationId => k.cancel migrationId
  | .migrationAbort migrationId cancel => k.abort migrationId cancel
  | .migrationStage manifest => k.stage manifest
  | .migrationUpload migrationId index data => k.upload migrationId index data
  | .migrationReady migrationId => k.ready migrationId
  | .migrationFinalize migrationId commit => k.finalize migrationId commit

end Call

/-- The state with a command appended to the history of the company it names. -/
def pushHistory (s : State) (c : Command) : State :=
  match c.payload, c.organizationId with
  | .mutation m, some org =>
    { s with organizations := s.organizations.modify org fun o =>
        { o with history := o.history ++ [c.keep m] } }
  | _, _ => s

/-- The receipts left once the expired ones are gone and the command has its own. -/
def recordReceipt (s : State) (c : Command) (now : Instant) (result : Option Result) : State :=
  let kept := s.receipts.filter fun _ r => r.expiresAt > now
  let receipt : Receipt :=
    ⟨Primitives.digestCommand c, if c.payload.isRead then none else result, c.expiresAt⟩
  { s with receipts := kept.set c.requestId receipt }

/-- The call of a verified command on a state. -/
def callOf (s : State) (c : Command) (ctx : Context) (signed : List KeyId) : Call :=
  { s := s, c := c, ctx := ctx, signed := signed, previous := s.receipts.get? c.requestId,
    org := c.organizationId.bind s.organizations.get? }

/-- The state after an accepted handler: history, then receipts. -/
def settle (c : Command) (ctx : Context) (reply : Reply) : State :=
  recordReceipt (if reply.history then pushHistory reply.state c else reply.state) c ctx.now
    reply.result

def execute (s : State) (c : Command) (ctx : Context) : Attempt (State × Option Result) := do
  validateCommand c ctx.audience ctx.now
  let signed ← verifyCommand c
  let k := callOf s c ctx signed
  admitActor s c ctx signed k.org
  demand (k.previous.all (·.hash = Primitives.digestCommand c) = true)
    "conflict" "request ID reused with different content" 409
  let reply ← k.dispatch
  pure (settle c ctx reply, reply.result)

end DirectTrade
