import DirectTrade.Profiles

/-!
Short-lived host attestations of company authority, and the relocation of a cached
attestation along one verified handoff.
-/

namespace DirectTrade

open Library

variable [Primitives]

def authorityIssue (s : State) (organizationId : Uuid) (ctx : Context) :
    Attempt SignedToken := do
  let org ← require ((s.organizations.get? organizationId).filter (·.status = .active))
    "not_found" "active local company unavailable" 404
  signToken (.authority
    { issuer := ctx.audience, issuedAt := ctx.now, expiresAt := ctx.now + 60000,
      organizationId := org.id, generation := org.generation, host := ctx.host }) ctx

/-- Whether a commit of this host hands the company over to the token's issuer. -/
def localHandoff (s : State) (b : AuthorityBody) (keyId : KeyId) : Bool :=
  s.outgoing.values.any fun m => m.commitToken.isSome &&
    m.manifest.organizationId = b.organizationId && m.manifest.generation + 1 = b.generation &&
    m.manifest.destination = ⟨b.issuer, keyId⟩

/-- What a known attestation demands of its successor. -/
def continues (previous : Signed AuthorityBody) (b : AuthorityBody) (keyId : KeyId)
    (handedOver : Bool) : Attempt Unit := do
  let old := previous.body
  demand (b.generation ≥ old.generation) "stale_authority" "authority generation regressed" 409
  if b.issuer ≠ old.issuer ∨ keyId ≠ previous.keyId then
    demand (handedOver = true)
      "relocation_required" "changed host requires verified relocation continuity" 403
  if b.generation = old.generation then
    demand (b.issuer = old.issuer ∧ keyId = previous.keyId)
      "conflict" "competing hosts claim the same authority generation" 409
    demand (b.issuedAt ≥ old.issuedAt) "stale_authority" "authority observation regressed" 409
    if b.issuedAt = old.issuedAt then
      demand (Primitives.digestBody (.authority b) = Primitives.digestBody (.authority old))
        "conflict" "authority timestamp has conflicting content" 409

def acceptAuthority (s : State) (token : SignedToken) (ctx : Context)
    (verifiedPreviousDigest : Option Digest) : Attempt (State × Result) := do
  let b ← verifyToken TokenBody.authority? token ctx
  demand (1 ≤ b.generation ∧ b.generation ≤ maxSafeInteger)
    "invalid_authority" "invalid authority identity" 400
  demand (b.issuer ≠ ctx.audience ∧ b.host.audience = b.issuer ∧ b.host.keyId = token.keyId ∧
      b.expiresAt - b.issuedAt ≤ 60000 ∧ b.expiresAt > b.issuedAt)
    "invalid_authority" "invalid host binding or authority lifetime" 403
  let here := s.organizations.get? b.organizationId
  demand (here.all fun org => org.status = .migrated && b.generation > org.generation)
    "conflict" "remote proof conflicts with local company authority" 409
  let previous := (s.remoteAuthorities.get? b.organizationId).map (·.token)
  let verifiedHop := previous.any fun old =>
    verifiedPreviousDigest = some (Primitives.digestToken (old.map .authority))
  let sameKnownLocation := previous.any fun old =>
    b.issuer = old.body.issuer && token.keyId = old.keyId && b.generation = old.body.generation
  demand (here = none ∨ localHandoff s b token.keyId ∨ verifiedHop ∨ sameKnownLocation)
    "relocation_required" "remote authority differs from committed local handoff" 403
  match previous with
  | none => pure ()
  | some old => continues old b token.keyId (localHandoff s b token.keyId || verifiedHop)
  let stored : RemoteAuthority := ⟨⟨b, token.keyId, token.signature⟩⟩
  pure ({ s with remoteAuthorities := s.remoteAuthorities.set b.organizationId stored },
    .authority b.organizationId b.generation b.host b.expiresAt)

def authorityAccept (s : State) (token : SignedToken) (ctx : Context) :
    Attempt (State × Result) :=
  acceptAuthority s token ctx none

/-- A token as evidence of what held when it was issued. -/
def historicalToken {β : Type} (select : TokenBody → Option β) (token : SignedToken)
    (ctx : Context) : Attempt β := do
  let stamp := token.body.stamp
  demand (stamp.issuedAt ≤ ctx.now + 30000 ∧ stamp.expiresAt > stamp.issuedAt ∧
      stamp.expiresAt - stamp.issuedAt ≤ 3600000)
    "invalid_relocation" "invalid historical proof lifetime" 403
  verifyToken select token { ctx with now := stamp.issuedAt }

/-- Advances a cached attestation one independently verified hop. -/
def authorityRelocate (s : State) (token commitToken : SignedToken) (ctx : Context) :
    Attempt (State × Result) := do
  let next ← verifyToken TokenBody.authority? token ctx
  let previous ← require ((s.remoteAuthorities.get? next.organizationId).map (·.token))
    "relocation_required" "previous authority must be explicitly known before relocation" 403
  let old ← historicalToken TokenBody.authority? (previous.map .authority) ctx
  let alreadyCurrent :=
    Primitives.digestToken (previous.map .authority) = Primitives.digestToken token
  let commit ← historicalToken TokenBody.commit? commitToken ctx
  demand (commit.organizationId = old.organizationId ∧
      next.organizationId = old.organizationId ∧ commit.issuer = commit.source.audience ∧
      commitToken.keyId = commit.source.keyId ∧
      (if alreadyCurrent then next.generation = commit.generation + 1
       else commit.generation = old.generation ∧ next.generation = old.generation + 1 ∧
         commit.source = ⟨old.issuer, previous.keyId⟩))
    "invalid_relocation" "handoff does not continue cached company authority" 403
  demand (commit.destination = ⟨next.issuer, token.keyId⟩ ∧
      commit.destination.audience ≠ commit.source.audience ∧
      commit.destination.keyId ≠ commit.source.keyId)
    "invalid_relocation" "handoff destination differs from fresh authority" 403
  let ready ← historicalToken TokenBody.ready? (commit.ready.map .ready) ctx
  demand (ready.issuer = commit.destination.audience ∧
      commit.ready.keyId = commit.destination.keyId ∧
      ready.manifestHash = commit.manifestHash ∧ ready.migrationId = commit.migrationId ∧
      ready.organizationId = commit.organizationId ∧ ready.generation = commit.generation ∧
      ready.snapshotHash = commit.snapshotHash ∧
      Primitives.digestHost ready.source = Primitives.digestHost commit.source ∧
      Primitives.digestHost ready.destination = Primitives.digestHost commit.destination)
    "invalid_relocation" "destination readiness differs from source handoff" 403
  demand (commit.issuedAt ≥ ready.issuedAt ∧ commit.issuedAt < ready.expiresAt)
    "invalid_relocation" "source committed outside destination readiness lifetime" 403
  acceptAuthority s token ctx (some (Primitives.digestToken (previous.map .authority)))

/-- Re-accepts the cached attestation of a counterparty that is not active here. -/
def requireRemoteAuthority (s : State) (organizationId : Uuid) (ctx : Context) :
    Attempt State := do
  let stored ← require (s.remoteAuthorities.get? organizationId)
    "authority_unavailable" "remote authority evidence unavailable" 403
  let accepted ← authorityAccept s (stored.token.map .authority) ctx
  pure accepted.1

end DirectTrade
