import DirectTrade.Snapshot

/-!
Cooperative migration between pinned hosts. The source freezes a company when it
commits; the destination activates it only from a validated and reserved stage.
-/

namespace DirectTrade

open Library

def migrationChunkBytes : ℕ := 64 * 1024

def migrationMaxBytes : ℕ := 32 * 1024 * 1024

def base64Alphabet : List Char :=
  "ABCDEFGHIJKLMNOPQRSTUVWXYZabcdefghijklmnopqrstuvwxyz0123456789+/".toList

def base64Digit (n : ℕ) : Char := base64Alphabet.getD (n % 64) 'A'

def b64Chars : List UInt8 → List Char
  | [] => []
  | [a] =>
    let n := a.toNat * 65536
    [base64Digit (n / 262144), base64Digit (n / 4096), '=', '=']
  | [a, b] =>
    let n := a.toNat * 65536 + b.toNat * 256
    [base64Digit (n / 262144), base64Digit (n / 4096), base64Digit (n / 64), '=']
  | a :: b :: c :: rest =>
    let n := a.toNat * 65536 + b.toNat * 256 + c.toNat
    base64Digit (n / 262144) :: base64Digit (n / 4096) :: base64Digit (n / 64) ::
      base64Digit n :: b64Chars rest

def b64 (bytes : List UInt8) : String := String.ofList (b64Chars bytes)

def base64Value (c : Char) : Option ℕ :=
  if c ∈ base64Alphabet then some (base64Alphabet.idxOf c) else none

/-- The bytes of well-formed base64 text; `none` when the text has another form. -/
def atob : List Char → Option (List UInt8)
  | [] => some []
  | [a, b, '=', '='] => do
    let n := (← base64Value a) * 262144 + (← base64Value b) * 4096
    pure [UInt8.ofNat (n / 65536)]
  | [a, b, c, '='] => do
    let n := (← base64Value a) * 262144 + (← base64Value b) * 4096 + (← base64Value c) * 64
    pure [UInt8.ofNat (n / 65536), UInt8.ofNat (n / 256)]
  | a :: b :: c :: d :: rest => do
    let n := (← base64Value a) * 262144 + (← base64Value b) * 4096 + (← base64Value c) * 64 +
      (← base64Value d)
    let tail ← atob rest
    pure (UInt8.ofNat (n / 65536) :: UInt8.ofNat (n / 256) :: UInt8.ofNat n :: tail)
  | _ => none

def decode (value : String) : Attempt (List UInt8) := do
  demand (utf16Length value ≤ (migrationChunkBytes + 2) / 3 * 4)
    "invalid_chunk" "invalid bounded base64 chunk" 400
  let bytes ← require (atob value.toList) "invalid_chunk" "invalid bounded base64 chunk" 400
  demand (0 < bytes.length ∧ bytes.length ≤ migrationChunkBytes ∧ b64 bytes = value)
    "invalid_chunk" "noncanonical or empty chunk" 400
  pure bytes

/-- The parts of a byte string, each of the chunk size but the last; `fuel` bounds their
number. -/
def split : (fuel : ℕ) → List UInt8 → List (List UInt8)
  | _, [] => []
  | 0, _ :: _ => []
  | fuel + 1, bytes@(_ :: _) =>
    bytes.take migrationChunkBytes :: split fuel (bytes.drop migrationChunkBytes)

def parts (bytes : List UInt8) : List (List UInt8) := split bytes.length bytes

/-- `Math.ceil(length / MIGRATION_CHUNK_BYTES)`. -/
def chunkCount (length : ℕ) : ℕ := (length + migrationChunkBytes - 1) / migrationChunkBytes

def migrationReserved (s : State) (organizationId : Uuid) : Bool :=
  s.incoming.values.any fun x => x.pending && x.manifest.organizationId = organizationId

def readySnapshots (s : State) : List Snapshot :=
  s.incoming.values.filterMap InboundMigration.ready?

/-- Whether a ready stage holds a resource that a test recognizes. -/
def reservedBy (s : State) (test : Snapshot → Bool) : Bool := (readySnapshots s).any test

def personReserved (s : State) (id : Uuid) : Bool :=
  reservedBy s fun snap => snap.persons.any (·.id = id)

def policyReserved (s : State) (id : Uuid) : Bool :=
  reservedBy s fun snap => snap.policies.any (·.id = id)

def profileReserved (s : State) (digest : Digest) : Bool :=
  reservedBy s fun snap => snap.profiles.any (·.digest = digest)

def releaseReserved (s : State) (digest : Digest) : Bool :=
  reservedBy s fun snap => snap.releases.any (·.digest = digest)

def recordReserved (s : State) (id : Uuid) : Bool :=
  reservedBy s fun snap => snap.records.any (·.id = id)

def migrationKeyReserved (s : State) (key : KeyId) : Bool :=
  reservedBy s fun snap => (snap.persons.any fun p => key ∈ p.keys ++ p.retiredKeys) ||
    snap.organization.installations.values.any (·.keyId = key)

def migrationProfileReserved (s : State) (label : ProfileLabel) : Bool :=
  reservedBy s fun snap => snap.profiles.any fun p => p.label = label

def migrationModuleReserved (s : State) (moduleId : Uuid) : Bool :=
  reservedBy s fun snap => snap.releases.any (·.moduleId = moduleId)

def migrationInstallationReserved (s : State) (installationId : Uuid) : Bool :=
  reservedBy s fun snap => snap.organization.installations.contains installationId

variable [Primitives]

def manifestShape (m : MigrationManifest) : Attempt Unit := do
  demand (1 ≤ m.generation ∧ m.generation < maxSafeInteger)
    "invalid_manifest" "invalid migration identity or exhausted generation" 400
  demand (m.source.audience ≠ m.destination.audience ∧ m.source.keyId ≠ m.destination.keyId)
    "invalid_manifest" "migration needs distinct hosts" 400
  demand (0 < m.byteLength ∧ m.byteLength ≤ migrationMaxBytes ∧
      m.chunkHashes.length = chunkCount m.byteLength)
    "invalid_manifest" "invalid migration size or hashes" 400

def tokenTimes (stamp : Stamp) : Attempt Unit :=
  demand (stamp.expiresAt > stamp.issuedAt ∧ stamp.expiresAt - stamp.issuedAt ≤ 3600000)
    "invalid_token" "invalid migration token lifetime" 400

/-- Migration receipts stay evidence after their expiry; the pin still decides. -/
def durable {β : Type} (select : TokenBody → Option β) (token : SignedToken) (ctx : Context) :
    Attempt β := do
  tokenTimes token.body.stamp
  demand (token.body.stamp.issuedAt ≤ ctx.now + 30000)
    "invalid_token" "receipt issued in future" 400
  verifyToken select token { ctx with now := token.body.stamp.issuedAt }

def localDestination (m : MigrationManifest) (ctx : Context) : Attempt Unit :=
  demand (m.destination = ctx.host)
    "wrong_destination" "migration is bound to another destination" 403

def localSource (m : MigrationManifest) (ctx : Context) : Attempt Unit :=
  demand (m.source = ctx.host) "wrong_source" "migration is bound to another source" 403

def readyMatches (ready : SignedToken) (m : MigrationManifest) (ctx : Context)
    (historical : Bool) : Attempt ReadyBody := do
  let r ← if historical then durable TokenBody.ready? ready ctx
    else verifyToken TokenBody.ready? ready ctx
  tokenTimes r.toStamp
  demand (r.issuer = m.destination.audience ∧ ready.keyId = m.destination.keyId ∧
      r.manifestHash = Primitives.digestManifest m ∧ r.migrationId = m.migrationId ∧
      r.organizationId = m.organizationId ∧ r.generation = m.generation ∧
      r.snapshotHash = m.snapshotHash ∧
      Primitives.digestHost r.source = Primitives.digestHost m.source ∧
      Primitives.digestHost r.destination = Primitives.digestHost m.destination ∧
      r.expiresAt = m.expiresAt)
    "invalid_ready" "ready receipt does not bind this migration" 403
  pure r

/-- The manifest of a snapshot of an active company. -/
def manifestOf (requestId : Uuid) (org : Organization) (ctx : Context) (snapshot : Snapshot)
    (destination : HostRef) (bytes : List UInt8) : MigrationManifest :=
  { migrationId := requestId, organizationId := org.id, generation := org.generation,
    source := ctx.host, destination := destination,
    snapshotHash := Primitives.digestSnapshot snapshot, byteLength := bytes.length,
    chunkHashes := (parts bytes).map Primitives.sha256, expiresAt := ctx.now + 3600000 }

def migrationPrepare (s : State) (c : Command) (stored : StoredCommand) (ctx : Context)
    (snapshot : Snapshot) (destination : HostRef) : Attempt (State × Result) := do
  let org ← require ((s.organizations.get? snapshot.organization.id).filter fun org =>
      org.status = .active && snapshot.source = ctx.audience &&
      org.generation = snapshot.organization.generation && c.organizationId = some org.id &&
      c.actor.kind = .person && c.actor.id ∈ org.controllers)
    "invalid_source" "snapshot is not the authorized active source company" 403
  demand (1 ≤ org.generation ∧ org.generation < maxSafeInteger)
    "migration_capacity" "authority generation cannot be incremented safely" 507
  demand (ctx.pins destination.audience = some destination.keyId ∧
      destination.audience ≠ ctx.audience ∧ destination.keyId ≠ ctx.storeKey)
    "untrusted_destination" "destination key must be explicitly pinned" 403
  let bytes := Primitives.snapshotBytes snapshot
  demand (0 < bytes.length ∧ bytes.length ≤ migrationMaxBytes)
    "migration_too_large" "snapshot exceeds the 32 MiB candidate limit" 413
  let manifest := manifestOf c.requestId org ctx snapshot destination bytes
  match s.outgoing.get? manifest.migrationId with
  | some prior => do
    demand (Primitives.digestCommand prior.authorization.signedForm = Primitives.digestCommand c)
      "conflict" "migration ID already used" 409
    pure (s, .token (prior.manifestToken.map .manifest))
  | none => do
    let body : ManifestBody :=
      { issuer := ctx.audience, issuedAt := ctx.now, expiresAt := manifest.expiresAt,
        actorId := c.actor.id, manifest := manifest }
    let token ← signToken (.manifest body) ctx
    let out : OutboundMigration :=
      { manifest := manifest, chunks := (parts bytes).map b64,
        manifestToken := ⟨body, token.keyId, token.signature⟩, authorization := stored,
        commitToken := none, cancelToken := none }
    pure ({ s with outgoing := s.outgoing.set manifest.migrationId out }, .token token)

def migrationChunk (s : State) (migrationId : Uuid) (index : ℕ) : Attempt Result := do
  let out ← require (s.outgoing.get? migrationId) "not_found" "migration unavailable" 404
  let data ← require out.chunks[index]? "invalid_chunk" "invalid chunk index" 400
  let hash ← access out.manifest.chunkHashes[index]?
  pure (.chunk migrationId index data hash)

def commitBody (m : MigrationManifest) (migrationId : Uuid) (ready : Signed ReadyBody)
    (ctx : Context) : CommitBody :=
  { issuer := ctx.audience, issuedAt := ctx.now, expiresAt := ctx.now + 3600000,
    manifestHash := Primitives.digestManifest m, migrationId := migrationId,
    organizationId := m.organizationId, generation := m.generation, source := m.source,
    destination := m.destination, snapshotHash := m.snapshotHash, ready := ready }

def migrationCommit (s : State) (migrationId : Uuid) (readyToken : SignedToken)
    (ctx : Context) (currentSnapshot : Snapshot) : Attempt (State × Result) := do
  let out ← require (s.outgoing.get? migrationId)
    "not_found" "outbound migration unavailable" 404
  let m := out.manifest
  localSource m ctx
  demand (out.cancelToken = none) "cancelled" "migration was cancelled" 409
  match out.commitToken with
  | some token => do
    demand (Primitives.digestToken (token.body.ready.map .ready) =
        Primitives.digestToken readyToken)
      "conflict" "committed readiness differs" 409
    pure (s, .token (token.map .commit))
  | none => do
    let org ← require ((s.organizations.get? m.organizationId).filter fun org =>
        org.status = .active && org.generation = m.generation)
      "conflict" "source company is not active at expected generation" 409
    let readyBody ← readyMatches readyToken m ctx false
    demand (readyBody.issuedAt ≤ ctx.now)
      "invalid_ready" "source clock precedes destination readiness" 403
    demand (m.expiresAt > ctx.now ∧ Primitives.digestSnapshot currentSnapshot = m.snapshotHash)
      "conflict" "source snapshot changed or readiness expired" 409
    let body := commitBody m migrationId ⟨readyBody, readyToken.keyId, readyToken.signature⟩ ctx
    let token ← signToken (.commit body) ctx
    let committed := { out with commitToken := some ⟨body, token.keyId, token.signature⟩ }
    pure ({ s with
        outgoing := s.outgoing.set migrationId committed
        organizations := s.organizations.set m.organizationId { org with status := .migrated } },
      .token token)

def migrationReceipt (s : State) (migrationId : Uuid) : Attempt Result := do
  let token ← require ((s.outgoing.get? migrationId).bind (·.commitToken))
    "not_found" "no committed migration receipt" 404
  pure (.token (token.map .commit))

def migrationCancel (s : State) (migrationId : Uuid) (ctx : Context) :
    Attempt (State × Result) := do
  let out ← require (s.outgoing.get? migrationId)
    "not_found" "outbound migration unavailable" 404
  localSource out.manifest ctx
  demand (out.commitToken = none) "conflict" "committed migration cannot be cancelled" 409
  match out.cancelToken with
  | some token => pure (s, .token (token.map .cancel))
  | none => do
    let body : CancelBody :=
      { issuer := ctx.audience, issuedAt := ctx.now, expiresAt := ctx.now + 3600000,
        migrationId := migrationId, organizationId := out.manifest.organizationId,
        manifestHash := Primitives.digestManifest out.manifest,
        destination := out.manifest.destination }
    let token ← signToken (.cancel body) ctx
    let cancelled := { out with cancelToken := some ⟨body, token.keyId, token.signature⟩ }
    pure ({ s with outgoing := s.outgoing.set migrationId cancelled }, .token token)

def migrationStage (s : State) (ctx : Context) (manifestToken : SignedToken) :
    Attempt (State × Result) := do
  let verified ← verifyToken TokenBody.manifest? manifestToken ctx
  tokenTimes verified.toStamp
  let m := verified.manifest
  manifestShape m
  localDestination m ctx
  demand (verified.issuer = m.source.audience ∧ manifestToken.keyId = m.source.keyId ∧
      verified.expiresAt = m.expiresAt ∧ m.expiresAt > ctx.now)
    "invalid_manifest" "manifest source or lifetime differs" 403
  match s.incoming.get? m.migrationId with
  | some old => do
    demand (old.aborted = false ∧ Primitives.digestToken (old.manifestToken.map .manifest) =
        Primitives.digestToken manifestToken)
      "conflict" "migration stage is immutable or aborted" 409
    pure (s, .staged m.migrationId old.chunks.size old.activated)
  | none => do
    demand (s.organizations.get? m.organizationId = none ∧
        migrationReserved s m.organizationId = false)
      "conflict" "company already exists or is reserved" 409
    let stage : InboundMigration :=
      { manifest := m, manifestToken := ⟨verified, manifestToken.keyId, manifestToken.signature⟩,
        chunks := ∅, readyToken := none, snapshot := none, activated := false, aborted := false }
    pure ({ s with incoming := s.incoming.set m.migrationId stage }, .staged m.migrationId 0 false)

def openStage (stage : InboundMigration) (ctx : Context) : Attempt Unit :=
  demand (stage.pending ∧ stage.manifest.expiresAt > ctx.now)
    "expired" "stage is activated, aborted or expired" 409

def migrationUpload (s : State) (migrationId : Uuid) (index : ℕ) (data : String)
    (ctx : Context) : Attempt (State × Result) := do
  let stage ← require (s.incoming.get? migrationId) "not_found" "migration stage unavailable" 404
  let m := stage.manifest
  localDestination m ctx
  openStage stage ctx
  let hash ← require m.chunkHashes[index]? "invalid_chunk" "invalid chunk index" 400
  let bytes ← decode data
  let expectedBytes := if index + 1 = m.chunkHashes.length
    then m.byteLength - index * migrationChunkBytes else migrationChunkBytes
  demand (bytes.length = expectedBytes ∧ Primitives.sha256 bytes = hash)
    "invalid_chunk" "chunk size or digest differs" 400
  demand (stage.chunks[index]?.all (· = data) = true)
    "conflict" "chunk cannot be replaced" 409
  let chunks := stage.chunks.insert index data
  pure ({ s with incoming := s.incoming.set migrationId { stage with chunks := chunks } },
    .uploaded migrationId index chunks.size)

/-- The bytes of the staged chunks in order, each against its pinned digest. -/
def assemble (stage : InboundMigration) : Attempt (List UInt8) := do
  let listed ← stage.manifest.chunkHashes.zipIdx.mapM fun (hash, index) => do
    let data ← access stage.chunks[index]?
    let part ← decode data
    demand (Primitives.sha256 part = hash) "invalid_chunk" "staged chunk is corrupt" 400
    pure part
  pure listed.flatten

/-- The staged snapshot, before it is judged. -/
def stagedSnapshot (stage : InboundMigration) : Attempt Snapshot := do
  let m := stage.manifest
  demand (stage.chunks.size = m.chunkHashes.length)
    "incomplete_migration" "all chunks are required" 409
  let bytes ← assemble stage
  demand (bytes.length = m.byteLength) "invalid_manifest" "assembled size differs" 400
  let snapshot ← require (Primitives.parseSnapshot bytes)
    "invalid_snapshot" "invalid snapshot encoding" 400
  demand (Primitives.snapshotDepth snapshot ≤ 48)
    "invalid_snapshot" "snapshot nesting exceeds 48 levels" 400
  demand (Primitives.snapshotNulFree snapshot = true)
    "nul_character" "a snapshot string value contains U+0000" 400
  demand (Primitives.digestSnapshot snapshot = m.snapshotHash ∧
      (Primitives.snapshotBytes snapshot).length = m.byteLength)
    "invalid_snapshot" "snapshot digest or size differs" 400
  demand (snapshot.source = m.source.audience ∧ snapshot.organization.id = m.organizationId ∧
      snapshot.organization.generation = m.generation ∧ snapshot.organization.status = .active)
    "invalid_snapshot" "snapshot identity differs" 400
  demand (stage.manifestToken.body.actorId ∈ snapshot.organization.controllers)
    "invalid_snapshot" "migration initiator is not an exported controller" 403
  demand (m.generation < maxSafeInteger ∧ snapshot.records.length < maxSafeInteger)
    "migration_capacity" "destination sequence or generation capacity exhausted" 507
  pure snapshot

variable [Reducers]

/-- The importer must be a controller of the snapshot, under a key that it carries. -/
def importerMatches (snap : Snapshot) (c : Command) : Attempt Unit :=
  demand (c.actor.id ∈ snap.organization.controllers ∧
      (snap.person? c.actor.id).any fun p => c.actor.keyId ∈ p.keys)
    "forbidden" "importer must match exported controller" 403

def migrationReady (s : State) (migrationId : Uuid) (c : Command) (ctx : Context) :
    Attempt (State × Result) := do
  let stage ← require (s.incoming.get? migrationId) "not_found" "migration stage unavailable" 404
  let m := stage.manifest
  localDestination m ctx
  openStage stage ctx
  match stage.readyToken with
  | some token => pure (s, .token (token.map .ready))
  | none => do
    let snapshot ← stagedSnapshot stage
    demand (s.organizations.get? m.organizationId = none)
      "conflict" "company exists at destination" 409
    importerMatches snapshot c
    validateSnapshot s snapshot
    let body : ReadyBody :=
      { issuer := ctx.audience, issuedAt := ctx.now, expiresAt := m.expiresAt,
        manifestHash := Primitives.digestManifest m, migrationId := migrationId,
        organizationId := m.organizationId, generation := m.generation, source := m.source,
        destination := m.destination, snapshotHash := m.snapshotHash }
    let token ← signToken (.ready body) ctx
    let ready := { stage with
      snapshot := some snapshot
      readyToken := some ⟨body, token.keyId, token.signature⟩ }
    pure ({ s with incoming := s.incoming.set migrationId ready }, .token token)

/-- What a commit receipt must say about the stage it finalizes. -/
def commitMatches (c : CommitBody) (keyId : KeyId) (m : MigrationManifest) (migrationId : Uuid)
    (ready : Signed ReadyBody) : Attempt Unit :=
  demand (c.issuer = m.source.audience ∧ keyId = m.source.keyId ∧
      c.manifestHash = Primitives.digestManifest m ∧ c.migrationId = migrationId ∧
      c.organizationId = m.organizationId ∧ c.generation = m.generation ∧
      c.snapshotHash = m.snapshotHash ∧
      Primitives.digestHost c.source = Primitives.digestHost m.source ∧
      Primitives.digestHost c.destination = Primitives.digestHost m.destination ∧
      Primitives.digestToken (c.ready.map .ready) = Primitives.digestToken (ready.map .ready))
    "invalid_commit" "commit receipt does not bind this stage" 403

def migrationFinalize (s : State) (migrationId : Uuid) (commitToken : SignedToken)
    (ctx : Context) : Attempt (State × Result) := do
  let stage ← require ((s.incoming.get? migrationId).filter fun stage => !stage.aborted)
    "not_ready" "destination has no validated ready stage" 409
  let readyToken ← require stage.readyToken
    "not_ready" "destination has no validated ready stage" 409
  let m := stage.manifest
  localDestination m ctx
  let c ← durable TokenBody.commit? commitToken ctx
  commitMatches c commitToken.keyId m migrationId readyToken
  let ready ← readyMatches (c.ready.map .ready) m ctx true
  demand (c.issuedAt ≥ ready.issuedAt ∧ c.issuedAt < ready.expiresAt)
    "invalid_commit" "source committed outside readiness lifetime" 403
  if stage.activated then pure (s, .finalized m.organizationId (m.generation + 1))
  else
    let snapshot ← require stage.snapshot
      "conflict" "destination company exists or staged snapshot changed" 409
    demand (s.organizations.get? m.organizationId = none ∧
        Primitives.digestSnapshot snapshot = m.snapshotHash)
      "conflict" "destination company exists or staged snapshot changed" 409
    let next ← applySnapshot s snapshot
    demand ((next.organizations.get? m.organizationId).any (fun org =>
        org.status = .active && org.generation = m.generation + 1) = true)
      "invalid_activation" "snapshot application did not activate expected generation" 500
    -- the staged payload is dropped in the step that makes it live
    let done := { stage with activated := true, snapshot := none, chunks := ∅ }
    pure ({ next with incoming := next.incoming.set migrationId done },
      .finalized m.organizationId (m.generation + 1))

def migrationAbort (s : State) (migrationId : Uuid) (cancelToken : SignedToken)
    (ctx : Context) : Attempt (State × Result) := do
  let stage ← require (s.incoming.get? migrationId) "not_found" "migration stage unavailable" 404
  let m := stage.manifest
  localDestination m ctx
  demand (stage.activated = false) "conflict" "activated migration cannot be aborted" 409
  let c ← durable TokenBody.cancel? cancelToken ctx
  demand (c.issuer = m.source.audience ∧ cancelToken.keyId = m.source.keyId ∧
      c.migrationId = migrationId ∧ c.organizationId = m.organizationId ∧
      c.manifestHash = Primitives.digestManifest m ∧
      Primitives.digestHost c.destination = Primitives.digestHost m.destination)
    "invalid_cancel" "cancellation does not match staged migration" 403
  let stopped :=
    { stage with aborted := true, chunks := ∅, snapshot := none, readyToken := none }
  pure ({ s with incoming := s.incoming.set migrationId stopped }, .aborted migrationId)

end DirectTrade
