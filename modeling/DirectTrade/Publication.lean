import DirectTrade.Administration

/-!
Profiles and releases. A published profile version and a published release version are
immutable; a protocol profile enters a host under the reserved publisher.
-/

namespace DirectTrade

open Library

variable [Primitives]

namespace Call

def profilePublish (k : Call) (p : ProfilePayload) : Attempt Reply := do
  let o ← k.currentOrg
  management k.s o k.c .profilesPublish k.ctx
  ids p.readers 0 64
  let profile : Profile :=
    { publisherId := .organization o.id, name := p.name, version := p.version,
      schema := p.schema, semantics := p.semantics, dependencies := p.dependencies,
      id := ⟨.organization o.id, p.name, p.version⟩, digest := p.digest,
      visibility := p.visibility, readers := p.readers, command := k.stored (.profilePublish p) }
  validateProfile profile k.s.profiles.get?
  demand (∀ d ∈ profile.dependencies,
      (k.s.profiles.get? d).any (accessibleProfile · o.id) = true)
    "forbidden" "private dependency unavailable" 403
  demand (profileReserved k.s p.digest = false) "migration_reserved" "profile reserved" 409
  demand (migrationProfileReserved k.s profile.id = false)
    "migration_reserved" "profile identity reserved" 409
  match k.previous with
  | some receipt => pure (k.answer receipt.result)
  | none => do
    demand (∀ x ∈ k.s.profiles.values, x.id ≠ profile.id)
      "conflict" "profile version is immutable" 409
    pure (Reply.write { k.s with profiles := k.s.profiles.set profile.digest profile }
      (.profilePublished profile.id profile.digest))

/-- The admitted form of a registered protocol contract. -/
def protocolProfile (contract : ProfileContract) (digest : Digest) (command : StoredCommand) :
    Profile :=
  { contract with
    publisherId := .dtp
    id := ⟨.dtp, contract.name, contract.version⟩
    digest := digest
    visibility := .community
    readers := []
    command := command }

def profileAdmit (k : Call) (digest : Digest) : Attempt Reply := do
  let o ← k.currentOrg
  management k.s o k.c .profilesPublish k.ctx
  let contract ← require (k.ctx.protocolProfiles digest)
    "not_found" "protocol profile unavailable at this host" 404
  demand (k.ctx.kinds.any (fun entry => entry.2.contains digest) = true)
    "unsupported_profile" "profile is not registered under any protocol kind" 422
  let profile := protocolProfile contract digest (k.stored (.profileAdmit digest))
  demand (contract.publisherId = .dtp ∧
      Primitives.digestContract profile.toProfileContract = digest)
    "digest_mismatch" "contract bytes differ from the registered digest" 422
  validateProfile profile k.s.profiles.get?
  match k.previous with
  | some receipt => pure (k.answer receipt.result)
  | none =>
    match k.s.profiles.get? digest with
    | some _ => pure (k.answer (some (.profileAdmitted profile.id digest false)))
    | none =>
      pure (Reply.write { k.s with profiles := k.s.profiles.set digest profile }
        (.profileAdmitted profile.id digest true))

def profileGet (k : Call) (digest : Digest) : Attempt Reply := do
  let o ← k.currentOrg
  demand ((k.c.requestedBy.or (o.installations[k.c.actor.id]?.map (·.sponsorId))).any
      (activeMember k.s o · k.ctx.now) = true)
    "forbidden" "membership required" 403
  let profile ← require (k.s.profiles.get? digest) "not_found" "profile unavailable" 404
  demand (accessibleProfile profile o.id = true) "not_found" "profile unavailable" 404
  let understood ← k.understands digest
  demand (understood = true) "not_found" "profile unavailable" 404
  pure (k.answer (some (.profile profile)))

/-- A release may carry an approval; one that it carries must be live and exact. -/
def assessedRelease (k : Call) (p : ReleasePayload) : Attempt Unit :=
  match p.assessment with
  | none => pure ()
  | some assessment =>
    approvedArtifact assessment p.artifactDigest k.ctx
      "assessment does not approve exact artifact"

def releasePublish (k : Call) (p : ReleasePayload) : Attempt Reply := do
  let o ← k.currentOrg
  management k.s o k.c .releasesPublish k.ctx
  text p.version 120
  demand (isVersion p.version = true) "invalid" "invalid release" 400
  demand (0 < p.profiles.length ∧ p.profiles.length ≤ 16 ∧ p.profiles.Nodup ∧
      ∀ d ∈ p.profiles, (k.s.profiles.get? d).any (accessibleProfile · o.id) = true)
    "unsupported_profile" "release profile unavailable" 422
  demand (0 < p.actions.length ∧ p.actions.length ≤ 3 ∧ p.actions.Nodup)
    "invalid" "invalid data actions" 400
  k.assessedRelease p
  let digest := Primitives.digestRelease o.id p
  demand (releaseReserved k.s digest = false) "migration_reserved" "release reserved" 409
  demand (migrationModuleReserved k.s p.moduleId = false)
    "migration_reserved" "module publisher namespace reserved" 409
  match k.previous with
  | some receipt => pure (k.answer receipt.result)
  | none => do
    demand (∀ r ∈ k.s.releases.values, r.moduleId = p.moduleId → r.version ≠ p.version)
      "conflict" "release version immutable" 409
    demand (∀ r ∈ k.s.releases.values, r.moduleId = p.moduleId → r.publisherId = o.id)
      "forbidden" "module belongs to another publisher" 403
    let release : Release :=
      { p with publisherId := o.id, digest := digest, command := k.stored (.releasePublish p) }
    pure (Reply.write { k.s with releases := k.s.releases.set digest release } (.release digest))

end Call
end DirectTrade
