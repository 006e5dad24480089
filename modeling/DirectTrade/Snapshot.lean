import DirectTrade.Replay

/-!
Import of a snapshot: the destination judges the whole snapshot against its own tables
and every other ready stage, and then takes the company over in one step.
-/

namespace DirectTrade

open Library

variable [Primitives]

/-- A stage that still holds its company and resources reserved. -/
def InboundMigration.pending (stage : InboundMigration) : Bool :=
  !stage.activated && !stage.aborted

/-- The validated snapshot of a pending stage. -/
def InboundMigration.ready? (stage : InboundMigration) : Option Snapshot :=
  if stage.pending && stage.readyToken.isSome then stage.snapshot else none

/-- The validated snapshots of the other companies. -/
def reservedSnapshots (s : State) (snap : Snapshot) : List Snapshot :=
  (s.incoming.values.filter (·.manifest.organizationId ≠ snap.organization.id)).filterMap
    InboundMigration.ready?

/-- The tables with another stage's resources added where they are absent. -/
def State.reserve (s : State) (other : Snapshot) : State :=
  { s with
    organizations := s.organizations.setNew other.organization.id other.organization
    persons := other.persons.foldl (fun d p => d.setNew p.id p) s.persons
    profiles := other.profiles.foldl (fun d p => d.setNew p.digest p) s.profiles
    policies := other.policies.foldl (fun d p => d.setNew p.id p) s.policies
    releases := other.releases.foldl (fun d r => d.setNew r.digest r) s.releases
    records := other.records.foldl (fun d r => d.setNew r.id r) s.records }

/-- The destination as an import sees it: its tables and every other ready stage. -/
def reservedState (s : State) (snap : Snapshot) : State :=
  (reservedSnapshots s snap).foldl State.reserve s

def validateHeader (snap : Snapshot) : Attempt Unit := do
  demand (snap.organization.status = .active ∧ snap.organization.generation ≤ maxSafeInteger ∧
      1 ≤ snap.organization.generation)
    "invalid_snapshot" "invalid snapshot collections" 400
  invalidSnapshot (∀ id ∈ snap.inventory.keys, id = snap.organization.id)
    "foreign inventory state in snapshot"

structure ProfileReplay where
  digests : List Digest
  names : Dict ProfileLabel Digest

/-- The fields of a profile that its publisher signed. -/
def Profile.publication (p : Profile) : ProfilePayload :=
  ⟨p.name, p.version, p.schema, p.semantics, p.dependencies, p.visibility, p.readers, p.digest⟩

def Mutation.published? : Mutation → Option ProfilePayload
  | .profilePublish profile => some profile
  | _ => none

def Mutation.released? : Mutation → Option ReleasePayload
  | .releasePublish release => some release
  | _ => none

def profileProvenance (snap : Snapshot) (p : Profile) : Attempt Unit :=
  match p.publisherId with
  | .dtp => do
    let _ ← verifyStored p.command
    invalidSnapshot (p.id = p.label ∧ p.visibility = .community ∧ p.readers = [] ∧
        p.command.payload = .profileAdmit p.digest)
      "invalid protocol profile admission"
  | .organization publisherId => do
    let _ ← historicalPerson snap p.command publisherId
    invalidSnapshot (publisherId = snap.organization.id → p.command.actor.id ∈ snap.associated)
      "publisher actor was never associated with company"
    invalidSnapshot (p.id = p.label) "profile ID differs from publisher namespace"
    let published ← require p.command.payload.published?
      "invalid_snapshot" "invalid profile publication" 403
    invalidSnapshot p.readers.Nodup "invalid profile publication"
    invalidSnapshot (published = p.publication) "profile publication differs from signed fields"

def validateProfileAt (s : State) (snap : Snapshot) (r : ProfileReplay) (p : Profile) :
    Attempt ProfileReplay := do
  invalidSnapshot (p.digest ∉ r.digests) "invalid or duplicate profile"
  validateProfile p (candidateProfile s snap)
  profileProvenance snap p
  demand ((r.names.get? p.label).all (· = p.digest) = true)
    "conflict" "profile namespace/version collision" 409
  demand ((s.profiles.get? p.digest).all (· = p) = true)
    "conflict" "profile differs at destination" 409
  pure ⟨r.digests ++ [p.digest], r.names.set p.label p.digest⟩

def validateProfiles (s : State) (snap : Snapshot) : Attempt Unit := do
  let names := s.profiles.values.foldl
    (fun names (p : Profile) => names.set p.label p.digest) ∅
  let _ ← snap.profiles.foldlM (validateProfileAt s snap) ⟨[], names⟩
  pure ()

inductive Visit where
  | enter (id : Digest)
  | exit (id : Digest)

structure Walk where
  visiting : List Digest
  visited : List Digest

/-- Depth-first walk over an explicit stack, whose top is the head of the list. -/
def walkProfiles (profiles : Digest → Option Profile) :
    (fuel : ℕ) → Walk → List Visit → Attempt Walk
  | _, walk, [] => .ok walk
  | 0, _, _ :: _ => .error .fault
  | fuel + 1, walk, .exit id :: pending =>
    walkProfiles profiles fuel
      ⟨walk.visiting.filter (· ≠ id), walk.visited ++ [id]⟩ pending
  | fuel + 1, walk, .enter id :: pending => do
    invalidSnapshot (id ∉ walk.visiting) "cyclic profile dependencies"
    if id ∈ walk.visited then walkProfiles profiles fuel walk pending
    else
      let p ← require (profiles id)
        "invalid_snapshot" "missing transitive profile dependency" 403
      walkProfiles profiles fuel ⟨walk.visiting ++ [id], walk.visited⟩
        (p.dependencies.reverse.map .enter ++ .exit id :: pending)

/-- A bound on the visits of one walk: every profile is left once and entered once from
each profile that depends on it. -/
def walkFuel (s : State) (snap : Snapshot) : ℕ :=
  ((snap.profiles ++ s.profiles.values).map fun p => p.dependencies.length + 1).sum + 1

def validateDependencies (s : State) (snap : Snapshot) : Attempt Unit := do
  let _ ← snap.profiles.foldlM (fun walk (p : Profile) =>
    walkProfiles (candidateProfile s snap) (walkFuel s snap) walk [.enter p.digest]) ⟨[], []⟩
  pure ()

/-- The namespace a release version is unique in. -/
structure ReleaseLabel where
  publisherId : Uuid
  moduleId : Uuid
  version : String
  deriving DecidableEq

def Release.label (r : Release) : ReleaseLabel := ⟨r.publisherId, r.moduleId, r.version⟩

structure ReleaseReplay where
  digests : List Digest
  names : Dict ReleaseLabel Digest

def validateAssessment (r : Release) : Attempt Unit :=
  match r.assessment with
  | none => pure ()
  | some a => do
    invalidSnapshot (a.body.artifactDigest = r.artifactDigest ∧ a.body.approved ∧
        a.body.expiresAt > a.body.issuedAt)
      "assessment does not bind artifact"
    -- preserving the signature does not transfer trust in the issuer
    invalidSnapshot
      (Primitives.verifyToken a.keyId (.assessment a.body) a.signature = true)
      "artifact assessment signature differs"

def validateRelease (s : State) (snap : Snapshot) (replay : ReleaseReplay) (r : Release) :
    Attempt ReleaseReplay := do
  invalidSnapshot (r.digest ∉ replay.digests) "invalid or duplicate release"
  let _ ← historicalPerson snap r.command r.publisherId
  let payload ← require r.command.payload.released?
    "invalid_snapshot" "invalid release publication" 403
  invalidSnapshot (r.publisherId = snap.organization.id → r.command.actor.id ∈ snap.associated)
    "release actor was never associated with company"
  invalidSnapshot (r.digest = Primitives.digestRelease r.publisherId payload ∧
      isVersion r.version = true)
    "release digest/version differs"
  invalidSnapshot (0 < r.actions.length ∧ r.actions.length ≤ 3 ∧ r.actions.Nodup)
    "invalid release visibility or actions"
  validateAssessment r
  demand ((∀ other ∈ s.releases.values, other.moduleId = r.moduleId →
        other.publisherId = r.publisherId) ∧
      ∀ other ∈ snap.releases, other.moduleId = r.moduleId → other.publisherId = r.publisherId)
    "conflict" "module publisher namespace collision" 409
  invalidSnapshot (payload = r.toReleasePayload) "release differs from signed publication"
  demand ((replay.names.get? r.label).all (· = r.digest) = true)
    "conflict" "release namespace/version collision" 409
  invalidSnapshot (0 < r.profiles.length ∧ r.profiles.length ≤ 16 ∧ r.profiles.Nodup ∧
      ∀ d ∈ r.profiles, (candidateProfile s snap d).isSome = true)
    "release profile dependency missing"
  demand ((s.releases.get? r.digest).all (· = r) = true)
    "conflict" "release differs at destination" 409
  pure ⟨replay.digests ++ [r.digest], replay.names.set r.label r.digest⟩

def validateReleases (s : State) (snap : Snapshot) : Attempt Unit := do
  let names := s.releases.values.foldl
    (fun names (r : Release) => names.set r.label r.digest) ∅
  let _ ← snap.releases.foldlM (validateRelease s snap) ⟨[], names⟩
  pure ()

variable [Reducers]

def validateSnapshot (host : State) (snap : Snapshot) : Attempt Unit := do
  validateHeader snap
  let s := reservedState host snap
  let claimed ← validatePersons s snap
  let replay ← validateOrganization s snap claimed
  validateProfiles s snap
  validateDependencies s snap
  let policyIds ← validatePolicies s snap
  let opened ← validateOpenings s snap policyIds
  validateRecords s snap replay.installations opened
  validateReleases s snap
  demand (s.organizations.get? snap.organization.id = none)
    "conflict" "company already exists" 409

/-- The company as the destination activates it. -/
def activated (org : Organization) : Organization :=
  { org with
    status := .active
    generation := org.generation + 1
    installations := org.installations.map fun _ inst => { inst with active := false } }

/-- The host's tables with a validated snapshot taken over. -/
def takeOver (s : State) (snap : Snapshot) : State :=
  { s with
    persons := snap.persons.foldl (fun d p => d.setNew p.id p) s.persons
    profiles := snap.profiles.foldl (fun d p => d.set p.digest p) s.profiles
    policies := snap.policies.foldl (fun d p => d.set p.id p) s.policies
    releases := snap.releases.foldl (fun d r => d.set r.digest r) s.releases
    records := (renumber 1 snap.records).foldl (fun d r => d.set r.id r) s.records
    recordSeq := s.recordSeq.set snap.organization.id (snap.records.length + 1)
    organizations := s.organizations.set snap.organization.id (activated snap.organization)
    inventory := match snap.inventory[snap.organization.id]? with
      | none => s.inventory
      | some company => s.inventory.set snap.organization.id company }

def applySnapshot (s : State) (snap : Snapshot) : Attempt State := do
  validateSnapshot s snap
  pure (takeOver s snap)

end DirectTrade
