import DirectTrade.Export

/-!
Replay of the authority history of a snapshot: personal keys, company control and
membership, and policy revisions. Every command is judged at its own signing time,
against the union of the keys that the snapshot's people ever held.
-/

namespace DirectTrade

open Library

def invalidSnapshot (p : Prop) [Decidable p] (message : String) : Attempt Unit :=
  demand p "invalid_snapshot" message 403

@[simp] theorem invalidSnapshot_eq_ok (p : Prop) [Decidable p] (message : String) (u : Unit) :
    invalidSnapshot p message = .ok u ↔ p :=
  demand_eq_ok p _ _ _ u

variable [Primitives]

/-- The identity a key is bound to. -/
inductive Owner where
  | person (id : Uuid)
  | installation (id : Uuid)
  deriving DecidableEq

abbrev Owners := Dict KeyId Owner

/-- The owners of every key known to a host; a later identity overwrites an earlier one. -/
def hostOwners (s : State) : Owners :=
  let people := s.persons.values.foldl (fun owners (p : Person) =>
    (p.keys ++ p.retiredKeys).foldl (fun owners key => owners.set key (.person p.id)) owners) ∅
  s.organizations.values.foldl (fun owners (org : Organization) =>
    org.installations.values.foldl (fun owners inst =>
      owners.set inst.keyId (.installation inst.id)) owners) people

def ownerText : Owner → String
  | .person id => "person " ++ uuidText id
  | .installation id => "installation " ++ uuidText id

/-- Claims a key for an identity of the snapshot; a current key must be free at the host. -/
def claimKey (host : Owners) (claimed : Owners) (key : KeyId) (owner : Owner) (current : Bool)
    (message : String) : Attempt Owners := do
  demand ((claimed.get? key).all (· = owner)) "conflict"
    (message ++ ": " ++ ownerText owner ++ " shares key " ++ Primitives.keyText key ++
      " with another identity in the snapshot") 409
  demand (current = false ∨ (host.get? key).all (· = owner)) "conflict"
    (message ++ ": the current key " ++ Primitives.keyText key ++ " of " ++ ownerText owner ++
      " is already bound at the destination to another identity") 409
  pure (claimed.set key owner)

structure PersonReplay where
  keys : List KeyId
  retired : List KeyId
  commands : List Uuid

def currentKeys (keys : List KeyId) : Attempt Unit :=
  invalidSnapshot (0 < keys.length ∧ keys.length ≤ 8 ∧ keys.Nodup) "invalid current keys"

def personalContext (p : Person) (c : StoredCommand) (commands : List Uuid) :
    Attempt (List KeyId) := do
  let signed ← verifyStored c
  invalidSnapshot (c.requestId ∉ commands) "repeated personal command"
  invalidSnapshot (c.actor.kind = .person ∧ c.actor.id = p.id ∧ c.organizationId = none ∧
      c.requestedBy = some p.id)
    "invalid personal history context"
  pure signed

def replayGenesis (p : Person) (c : StoredCommand) : Attempt PersonReplay := do
  let signed ← personalContext p c []
  match c.payload with
  | .personRegister keys =>
    invalidSnapshot (p.id = Primitives.personId c.actor.keyId ∧ c.actor.keyId ∈ keys ∧
        ∀ k ∈ keys, k ∈ signed)
      "invalid personal genesis"
    currentKeys keys
    pure ⟨keys, [], [c.requestId]⟩
  | _ => .error (.dtp "invalid_snapshot" "invalid personal genesis" 403)

def replayRotation (p : Person) (r : PersonReplay) (c : StoredCommand) :
    Attempt PersonReplay := do
  let signed ← personalContext p c r.commands
  match c.payload with
  | .personRotate add revoke =>
    invalidSnapshot (add ++ revoke).Nodup "duplicate or overlapping rotation keys"
    invalidSnapshot (c.actor.keyId ∈ r.keys ∧ (∀ k ∈ revoke, k ∈ r.keys) ∧
        ∀ k ∈ add, k ∈ signed ∧ k ∉ r.keys ∧ k ∉ r.retired)
      "invalid key rotation"
    let keys := r.keys.filter (· ∉ revoke) ++ add
    currentKeys keys
    pure ⟨keys, r.retired ++ revoke, r.commands ++ [c.requestId]⟩
  | _ => .error (.dtp "invalid_snapshot" "invalid key rotation" 403)

def replayPerson (p : Person) : Attempt PersonReplay :=
  match p.history with
  | [] => .error (.dtp "invalid_snapshot" "invalid person history" 403)
  | genesis :: rotations => do
    let start ← replayGenesis p genesis
    rotations.foldlM (replayRotation p) start

/-- A controller, an active member or a pending invitee can still act for the company. -/
def currentPerson (org : Organization) (id : Uuid) : Bool :=
  id ∈ org.controllers || (org.members.has id fun m => m.active) ||
    org.invitations.values.any fun i => i.personId = id && i.active && !i.accepted

def sameKeys (p q : Person) : Bool := p.keys = q.keys && p.retiredKeys = q.retiredKeys

structure PeopleReplay where
  seen : List Uuid
  claimed : Owners

def claimKeys (host : Owners) (claimed : Owners) (p : Person) (keys : List KeyId)
    (current : Bool) : Attempt Owners :=
  keys.foldlM (fun claimed key => do
    demand (Primitives.validKey key = true) "invalid" "invalid public key" 400
    claimKey host claimed key (.person p.id) current "personal key aliases another identity")
    claimed

def validatePerson (s : State) (snap : Snapshot) (r : PeopleReplay) (p : Person) :
    Attempt PeopleReplay := do
  invalidSnapshot (p.id ∉ r.seen ∧ 0 < p.history.length) "invalid person history"
  let replay ← replayPerson p
  invalidSnapshot (p.keys = replay.keys ∧ p.retiredKeys = replay.retired)
    "key projection differs from signed history"
  let claimed ← claimKeys (hostOwners s) r.claimed p replay.keys true
  let claimed ← claimKeys (hostOwners s) claimed p replay.retired false
  demand ((s.persons.get? p.id).all (sameKeys · p) ∨ currentPerson snap.organization p.id = false)
    "conflict"
    ("destination identity diverged: person " ++ uuidText p.id ++
      " has another key history at the destination and is still a controller, member or " ++
      "invitee of the company; at the source, revoke the membership or replace the " ++
      "controller, enrol a fresh identity, and move again") 409
  pure ⟨r.seen ++ [p.id], claimed⟩

def validatePersons (s : State) (snap : Snapshot) : Attempt Owners := do
  let replay ← snap.persons.foldlM (validatePerson s snap) ⟨[], ∅⟩
  pure replay.claimed

def Snapshot.person? (snap : Snapshot) (id : Uuid) : Option Person :=
  snap.persons.find? (·.id = id)

def Snapshot.signedBy (snap : Snapshot) (id : Uuid) (proofs : List KeyId) : Bool :=
  (snap.person? id).any fun p => (p.keys ++ p.retiredKeys).any (· ∈ proofs)

/-- Everyone who ever controlled or joined the company. -/
def Snapshot.associated (snap : Snapshot) : List Uuid :=
  snap.organization.controllers ++ snap.organization.members.keys ++
    snap.organization.history.flatMap fun c =>
      match c.payload with
      | .organizationCreate _ _ controllers _ | .organizationPolicy controllers _ => controllers
      | .membershipAccept _ => [c.actor.id]
      | _ => []

def historicalPerson (snap : Snapshot) (c : StoredCommand) (orgId : Uuid) :
    Attempt (List KeyId) := do
  let signed ← verifyStored c
  invalidSnapshot (c.actor.kind = .person ∧ c.organizationId = some orgId ∧
      c.requestedBy = some c.actor.id ∧ snap.signedBy c.actor.id signed)
    "signed personal company context differs"
  pure signed

structure OrgReplay where
  controllers : List Uuid
  threshold : ℕ
  members : Table Uuid Membership
  invitations : Table Uuid Invitation
  installations : Table Uuid Installation
  historyIds : List Uuid
  claimed : Owners

namespace OrgReplay

def memberActive (r : OrgReplay) (snap : Snapshot) (id : Uuid) (at_ : Instant) : Bool :=
  (snap.person? id).isSome && (id ∈ r.controllers ||
    r.members.has id fun m => m.active && m.expiresAt > at_)

def manage (r : OrgReplay) (snap : Snapshot) (c : StoredCommand) (permission : Permission) :
    Attempt Unit :=
  invalidSnapshot (r.memberActive snap c.actor.id c.issuedAt ∧
      (c.actor.id ∈ r.controllers ∨
        r.members.has c.actor.id fun m => permission ∈ m.permissions))
    "historical administration exceeded authority"

/-- What a non-controller may hand on: no more permissions, no longer than its own. -/
def delegates (r : OrgReplay) (id : Uuid) (permissions : List Permission) (expiresAt : Instant) :
    Bool :=
  r.members.has id fun m => permissions.all (· ∈ m.permissions) && expiresAt ≤ m.expiresAt

def controlThreshold (r : OrgReplay) : Attempt Unit :=
  invalidSnapshot (1 ≤ r.controllers.length ∧ r.controllers.length ≤ 8 ∧ r.controllers.Nodup ∧
      r.threshold ≤ maxSafeInteger ∧ 0 < r.threshold ∧ r.threshold ≤ r.controllers.length)
    "invalid historical control threshold"

end OrgReplay

/-- The invitations once every one naming a person counts as consumed. -/
def consumeInvitations (invitations : Table Uuid Invitation) (personId : Uuid) :
    Table Uuid Invitation :=
  invitations.map fun _ inv =>
    if inv.personId = personId then { inv with accepted := true } else inv

/-- The invitations once every one naming a person is withdrawn. -/
def withdrawInvitations (invitations : Table Uuid Invitation) (personId : Uuid) :
    Table Uuid Invitation :=
  invitations.map fun _ inv =>
    if inv.personId = personId then { inv with active := false } else inv

def deactivate (members : Table Uuid Membership) (personId : Uuid) : Table Uuid Membership :=
  members.modify personId fun m => { m with active := false }

def Invitation.member (inv : Invitation) : Membership :=
  { inv.toMembership with active := true }

def newInvitation (id personId : Uuid) (permissions : List Permission) (expiresAt : Instant)
    (authorizedBy : Uuid) : Invitation :=
  { id := id, personId := personId, permissions := permissions, expiresAt := expiresAt,
    active := true, accepted := false, authorizedBy := authorizedBy }

def newInstallation (p : InstallationPayload) (release : Release) (sponsorId : Uuid) :
    Installation :=
  { id := p.installationId, moduleId := release.moduleId, releaseDigest := p.releaseDigest,
    keyId := p.keyId, policyIds := p.policyIds, actions := p.actions, sponsorId := sponsorId,
    expiresAt := p.expiresAt, active := true, mode := p.mode }

def Snapshot.release? (snap : Snapshot) (d : Digest) : Option Release :=
  snap.releases.find? (·.digest = d)

def replayOrganizationGenesis (snap : Snapshot) (claimed : Owners) (c : StoredCommand) :
    Attempt OrgReplay := do
  let signed ← historicalPerson snap c snap.organization.id
  match c.payload with
  | .organizationCreate name nonce controllers threshold =>
    invalidSnapshot (snap.organization.id = Primitives.organizationId c.actor.id nonce ∧
        c.actor.id ∈ controllers ∧ ∀ id ∈ controllers, snap.signedBy id signed = true)
      "invalid organization genesis"
    invalidSnapshot (snap.organization.name = name) "company name differs from signed genesis"
    let r : OrgReplay := ⟨controllers, threshold, ∅, ∅, ∅, [c.requestId], claimed⟩
    r.controlThreshold
    pure r
  | _ => .error (.dtp "invalid_snapshot" "invalid organization genesis" 403)

def replayInvite (snap : Snapshot) (r : OrgReplay) (c : StoredCommand)
    (invitationId personId : Uuid) (permissions : List Permission) (expiresAt : Instant) :
    Attempt OrgReplay := do
  r.manage snap c .membersManage
  invalidSnapshot ((snap.person? personId).isSome ∧ personId ∉ r.controllers ∧
      r.invitations[invitationId]? = none)
    "invalid historical invitation"
  let permissions ← checkPermissions permissions
  invalidSnapshot (expiresAt > c.issuedAt ∧ expiresAt ≤ c.issuedAt + yearMillis)
    "invalid historical invitation expiry"
  invalidSnapshot (c.actor.id ∈ r.controllers ∨ r.delegates c.actor.id permissions expiresAt)
    "historical invitation exceeds inviter"
  pure { r with
    invitations := (consumeInvitations r.invitations personId).insert invitationId
      (newInvitation invitationId personId permissions expiresAt c.actor.id) }

def replayAccept (snap : Snapshot) (r : OrgReplay) (c : StoredCommand) (invitationId : Uuid) :
    Attempt OrgReplay := do
  let inv ← require r.invitations[invitationId]?
    "invalid_snapshot" "invalid historical invitation acceptance" 403
  invalidSnapshot (inv.active ∧ inv.accepted = false ∧ inv.personId = c.actor.id ∧
      inv.expiresAt > c.issuedAt ∧ r.memberActive snap inv.authorizedBy c.issuedAt)
    "invalid historical invitation acceptance"
  invalidSnapshot (inv.authorizedBy ∈ r.controllers ∨
      ((r.members.has inv.authorizedBy fun m => .membersManage ∈ m.permissions) ∧
        r.delegates inv.authorizedBy inv.permissions inv.expiresAt))
    "inviter authority no longer sufficient"
  pure { r with
    members := r.members.insert c.actor.id inv.member
    invitations := r.invitations.insert invitationId { inv with accepted := true } }

def replayInstallation (s : State) (snap : Snapshot) (r : OrgReplay) (c : StoredCommand)
    (signed : List KeyId) (p : InstallationPayload) : Attempt OrgReplay := do
  r.manage snap c .installationsManage
  invalidSnapshot (r.installations[p.installationId]? = none)
    "invalid signed installation genesis"
  let release ← require (snap.release? p.releaseDigest)
    "invalid_snapshot" "invalid signed installation genesis" 403
  invalidSnapshot (p.keyId ∈ signed) "invalid signed installation genesis"
  demand (Primitives.validKey p.keyId = true) "invalid" "invalid public key" 400
  demand (∀ org ∈ s.organizations.values, org.installations[p.installationId]? = none)
    "conflict" "installation ID already exists or is reserved" 409
  let claimed ← claimKey (hostOwners s) r.claimed p.keyId (.installation p.installationId)
    (!snap.organization.installations.has p.installationId fun inst => !inst.active)
    "installation key aliases another identity"
  invalidSnapshot (0 < p.policyIds.length ∧
      (∀ id ∈ p.policyIds, snap.policies.any (·.id = id) = true) ∧ 0 < p.actions.length ∧
      ∀ a ∈ p.actions, a ∈ release.actions)
    "invalid installation scopes"
  pure { r with
    claimed := claimed
    installations := r.installations.insert p.installationId
      (newInstallation p release c.actor.id) }

def replayOrganizationCommand (s : State) (snap : Snapshot) (r : OrgReplay) (c : StoredCommand) :
    Attempt OrgReplay := do
  let signed ← historicalPerson snap c snap.organization.id
  invalidSnapshot (c.requestId ∉ r.historyIds) "duplicate organization history command"
  let r := { r with historyIds := r.historyIds ++ [c.requestId] }
  let next : OrgReplay ← match c.payload with
    | .organizationPolicy controllers threshold => do
      invalidSnapshot (c.actor.id ∈ r.controllers ∧
          (r.controllers.filter (snap.signedBy · signed)).length ≥ r.threshold ∧
          ∀ id ∈ controllers, id ∉ r.controllers → snap.signedBy id signed = true)
        "invalid controller transition"
      pure { r with controllers := controllers, threshold := threshold }
    | .membershipInvite invitationId personId permissions expiresAt =>
      replayInvite snap r c invitationId personId permissions expiresAt
    | .membershipAccept invitationId => replayAccept snap r c invitationId
    | .membershipRevoke personId => do
      r.manage snap c .membersManage
      invalidSnapshot (personId ∉ r.controllers) "historical revoke cannot remove controller"
      pure { r with
        members := deactivate r.members personId
        invitations := withdrawInvitations r.invitations personId }
    | .installationCreate p => replayInstallation s snap r c signed p
    | .installationRevoke installationId => do
      r.manage snap c .installationsManage
      invalidSnapshot (r.installations[installationId]? ≠ none)
        "revoked installation never existed"
      pure { r with installations :=
        r.installations.modify installationId fun inst => { inst with active := false } }
    | _ => .error (.dtp "invalid_snapshot" "unsupported organization history action" 403)
  next.controlThreshold
  pure next

/-- A prior migration disabled installations without a user command. -/
def disableMigrated (org : Organization) (installations : Table Uuid Installation) :
    Table Uuid Installation :=
  installations.map fun id inst =>
    if org.generation > 1 ∧ org.installations.has id (fun i => !i.active)
    then { inst with active := false } else inst

def replayOrganization (s : State) (snap : Snapshot) (claimed : Owners) : Attempt OrgReplay :=
  match snap.organization.history with
  -- an empty history leaves the company without a controller
  | [] => .error (.dtp "invalid_snapshot" "controller projection mismatch" 403)
  | genesis :: commands => do
    let start ← replayOrganizationGenesis snap claimed genesis
    commands.foldlM (replayOrganizationCommand s snap) start

def validateOrganization (s : State) (snap : Snapshot) (claimed : Owners) :
    Attempt OrgReplay := do
  let r ← replayOrganization s snap claimed
  invalidSnapshot (0 < r.controllers.length ∧ 0 < r.threshold ∧
      r.threshold ≤ r.controllers.length ∧ r.controllers = snap.organization.controllers ∧
      r.threshold = snap.organization.threshold)
    "controller projection mismatch"
  invalidSnapshot (r.members = snap.organization.members ∧
      r.invitations = snap.organization.invitations)
    "membership projection differs from signed history"
  let installations := disableMigrated snap.organization r.installations
  invalidSnapshot (installations = snap.organization.installations)
    "installation projection differs from signed history"
  pure { r with installations := installations }

structure PolicyReplay where
  prior : Option PolicyPayload
  commands : List Uuid

def replayGrant (snap : Snapshot) (c : StoredCommand) (g : Grant) : Attempt Unit := do
  invalidSnapshot ((snap.person? g.personId).isSome ∧ g.personId ∈ snap.associated ∧
      0 < g.actions.length ∧ g.actions.length ≤ 3 ∧ g.actions.Nodup ∧
      g.resourceIds.conforms = true)
    "invalid grant scope"
  invalidSnapshot (g.expiresAt > c.issuedAt ∧ g.expiresAt ≤ c.issuedAt + yearMillis)
    "invalid historical grant lifetime"

/-- The payload of the revision command due at an index. -/
def policyRevision (index : ℕ) : Mutation → Option PolicyPayload
  | .policyCreate p => if index = 0 then some p else none
  | .policyUpdate p => if index = 0 then none else some p
  | _ => none

def replayRevision (snap : Snapshot) (p : Policy) (r : PolicyReplay) (c : StoredCommand) :
    Attempt PolicyReplay := do
  let proofs ← historicalPerson snap c p.organizationId
  invalidSnapshot (c.actor.id ∈ snap.associated)
    "policy actor was never associated with company"
  let value ← require (policyRevision r.commands.length c.payload)
    "invalid_snapshot" "invalid policy command sequence" 403
  invalidSnapshot (c.requestId ∉ r.commands ∧ value.policyId = p.id ∧
      value.expectedRevision = r.commands.length)
    "invalid policy command sequence"
  invalidSnapshot (0 < value.stewards.length ∧ value.stewards.length ≤ 8 ∧
      value.stewards.Nodup ∧
      (∀ id ∈ value.stewards, (snap.person? id).isSome = true ∧ id ∈ snap.associated) ∧
      value.threshold ≤ maxSafeInteger ∧ 0 < value.threshold ∧
      value.threshold ≤ value.stewards.length)
    "invalid policy stewardship"
  invalidSnapshot (∀ prior ∈ r.prior, prior.classification = value.classification ∧
      c.actor.id ∈ prior.stewards ∧
      (prior.stewards.filter (snap.signedBy · proofs)).length ≥ prior.threshold)
    "policy update lacks prior stewardship quorum"
  invalidSnapshot (∀ id ∈ value.stewards, (r.prior.all fun prior => id ∉ prior.stewards) →
      snap.signedBy id proofs = true)
    "new steward consent missing"
  invalidSnapshot (value.grants.length ≤ 256) "invalid policy grants"
  Outcome.each (replayGrant snap c) value.grants
  pure ⟨some value, r.commands ++ [c.requestId]⟩

def validatePolicy (s : State) (snap : Snapshot) (policyIds : List Uuid) (p : Policy) :
    Attempt (List Uuid) := do
  demand (p.organizationId = snap.organization.id ∧ s.policies.get? p.id = none ∧
      p.id ∉ policyIds)
    "conflict" "policy scope or destination collision" 409
  invalidSnapshot (0 < p.history.length ∧ p.history.length = p.revision)
    "invalid policy revision history"
  let r ← p.history.foldlM (replayRevision snap p) ⟨none, []⟩
  invalidSnapshot (∃ prior ∈ r.prior, p.classification = prior.classification ∧
      p.stewards = prior.stewards ∧ p.threshold = prior.threshold ∧ p.grants = prior.grants)
    "policy projection differs from signed history"
  pure (policyIds ++ [p.id])

def validatePolicies (s : State) (snap : Snapshot) : Attempt (List Uuid) :=
  snap.policies.foldlM (validatePolicy s snap) []

end DirectTrade
