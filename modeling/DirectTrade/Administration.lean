import DirectTrade.Call

/-!
People, companies, memberships, policies and installations. A replayed command passes
the same authorization again before its recorded response is returned.
-/

namespace DirectTrade

open Library

variable [Primitives]

namespace Call

def personRegister (k : Call) (keys : List KeyId) : Attempt Reply := do
  let a := k.c.actor
  demand (a.kind = .person ∧ k.c.organizationId = none ∧ k.c.requestedBy = some a.id ∧
      a.id = Primitives.personId a.keyId)
    "invalid" "invalid personal enrollment" 400
  demand (0 < keys.length ∧ keys.length ≤ 8 ∧ keys.Nodup ∧ a.keyId ∈ keys)
    "invalid" "invalid enrollment keys" 400
  match k.previous with
  | some receipt => do
    demand ((k.s.persons.get? a.id).any (fun p => a.keyId ∈ p.keys) = true)
      "forbidden" "enrollment key revoked" 403
    pure (k.answer receipt.result)
  | none => do
    demand (k.s.persons.get? a.id = none ∧ personReserved k.s a.id = false)
      "conflict" "identity exists or reserved" 409
    provenKeys k.s k.signed keys "new key possession proof required"
    let person : Person := ⟨a.id, keys, [], [k.stored (.personRegister keys)]⟩
    pure (Reply.write { k.s with persons := k.s.persons.set a.id person } (.person a.id))

def personRotate (k : Call) (add revoke : List KeyId) : Attempt Reply := do
  let a := k.c.actor
  demand (a.kind = .person ∧ k.c.organizationId = none) "invalid" "personal operation" 400
  demand (personReserved k.s a.id = false)
    "migration_reserved" "identity reserved by validated migration" 409
  match k.previous with
  | some receipt => pure (k.answer receipt.result)
  | none => do
    let person ← access (k.s.persons.get? a.id)
    demand (add.length + revoke.length ≤ 16 ∧ (add ++ revoke).Nodup)
      "invalid" "invalid rotation" 400
    provenKeys k.s k.signed add "new key proof required"
    demand (∀ key ∈ revoke, key ∈ person.keys) "invalid" "unknown revoked key" 400
    let next := person.keys.filter (· ∉ revoke) ++ add
    demand (0 < next.length ∧ next.length ≤ 8) "forbidden" "retain active key" 403
    let rotated : Person :=
      { person with
        keys := next
        retiredKeys := person.retiredKeys ++ revoke
        history := person.history ++ [k.stored (.personRotate add revoke)] }
    pure (Reply.write { k.s with persons := k.s.persons.set a.id rotated }
      (.rotated person.id next))

def organizationCreate (k : Call) (name : String) (nonce : Uuid) (controllers : List Uuid)
    (threshold : ℕ) : Attempt Reply := do
  let orgId ← require k.c.organizationId "invalid" "expected UUID" 400
  ids controllers 1 8
  text name 120
  demand (k.c.actor.kind = .person ∧ orgId = Primitives.organizationId k.c.actor.id nonce ∧
      k.c.actor.id ∈ controllers)
    "invalid" "invalid company genesis" 400
  demand (0 < threshold ∧ threshold ≤ controllers.length) "invalid" "invalid quorum" 400
  quorum k.s controllers controllers.length k.signed
  match k.previous with
  | some receipt => pure (k.answer receipt.result)
  | none => do
    demand (k.org = none ∧ migrationReserved k.s orgId = false)
      "conflict" "company exists or reserved" 409
    let org : Organization :=
      { id := orgId, name := name, controllers := controllers, threshold := threshold,
        generation := 1, status := .active, members := ∅, invitations := ∅,
        installations := ∅, history := [] }
    pure ⟨k.setOrg org, some (.organization orgId), true⟩

def organizationPolicy (k : Call) (controllers : List Uuid) (threshold : ℕ) :
    Attempt Reply := do
  let o ← k.asController (← k.currentOrg)
  ids controllers 1 8
  demand (0 < threshold ∧ threshold ≤ controllers.length) "invalid" "invalid quorum" 400
  let joining := controllers.filter (· ∉ o.controllers)
  quorum k.s joining joining.length k.signed
  match k.previous with
  | some receipt => pure (k.answer receipt.result)
  | none =>
    pure ⟨k.setOrg { o with controllers := controllers, threshold := threshold },
      some .changed, true⟩

def organizationsList (k : Call) : Attempt Reply := do
  demand (k.c.actor.kind = .person ∧ k.c.organizationId = none)
    "invalid" "personal operation" 400
  let rows := (k.s.organizations.values.filter fun o =>
    activeMember k.s o k.c.actor.id k.ctx.now).map fun o =>
      (⟨o.id, o.name, o.status, o.generation⟩ : OrganizationRow)
  pure (k.answer (some (.organizations rows)))

/-- Whether a non-controller's own membership covers what it hands on. -/
def covers (o : Organization) (id : Uuid) (permissions : List Permission)
    (expiresAt : Instant) : Bool :=
  o.members.has id fun m => permissions.all (· ∈ m.permissions) && expiresAt ≤ m.expiresAt

def membershipInvite (k : Call) (invitationId personId : Uuid) (requested : List Permission)
    (expiresAt : Instant) : Attempt Reply := do
  let o ← k.currentOrg
  management k.s o k.c .membersManage k.ctx
  future expiresAt k.ctx
  let permissions ← checkPermissions requested
  demand (isPerson k.s personId ∧ personId ∉ o.controllers)
    "invalid" "target must be registered non-controller" 400
  demand (k.c.actor.id ∈ o.controllers ∨ covers o k.c.actor.id permissions expiresAt)
    "forbidden" "delegation exceeds authority" 403
  match k.previous with
  | some receipt => pure (k.answer receipt.result)
  | none => do
    demand (o.invitations[invitationId]? = none) "conflict" "invitation exists" 409
    let invitations := (consumeInvitations o.invitations personId).insert invitationId
      (newInvitation invitationId personId permissions expiresAt k.c.actor.id)
    pure ⟨k.setOrg { o with invitations := invitations }, some (.invitation invitationId), true⟩

def membershipAccept (k : Call) (invitationId : Uuid) : Attempt Reply := do
  let o ← k.currentOrg
  let inv ← require (o.invitations[invitationId]?.filter fun inv =>
      k.c.actor.kind = .person && inv.personId = k.c.actor.id && inv.active &&
      inv.expiresAt > k.ctx.now)
    "forbidden" "invitation unavailable" 403
  demand (activeMember k.s o inv.authorizedBy k.ctx.now ∧
      (inv.authorizedBy ∈ o.controllers ∨
        o.members.has inv.authorizedBy fun m => .membersManage ∈ m.permissions))
    "forbidden" "inviter authority revoked" 403
  demand (inv.authorizedBy ∈ o.controllers ∨
      covers o inv.authorizedBy inv.permissions inv.expiresAt)
    "forbidden" "invitation exceeds current inviter authority" 403
  match k.previous with
  | some receipt => do
    demand (o.members.has k.c.actor.id (·.active) = true)
      "forbidden" "membership revoked" 403
    pure (k.answer receipt.result)
  | none => do
    demand (inv.accepted = false) "conflict" "invitation already consumed" 409
    let joined := { o with
      members := o.members.insert k.c.actor.id inv.member
      invitations := o.invitations.insert invitationId { inv with accepted := true } }
    pure ⟨k.setOrg joined, some (.joined o.id), true⟩

/-- Whether a policy revision that grants a person was signed after a revocation. -/
def grantedLater (s : State) (o : Organization) (personId : Uuid) (issuedAt : Instant) : Bool :=
  s.policies.values.any fun p => p.organizationId = o.id &&
    (p.grants.any (·.personId = personId)) &&
    p.history.getLast?.any fun c => c.issuedAt > issuedAt

def membershipRevoke (k : Call) (personId : Uuid) : Attempt Reply := do
  let o ← k.currentOrg
  management k.s o k.c .membersManage k.ctx
  demand (personId ∉ o.controllers) "forbidden" "use controller quorum policy" 403
  match k.previous with
  | some receipt => pure (k.answer receipt.result)
  | none => do
    demand (grantedLater k.s o personId k.c.issuedAt = false) "conflict"
      "a policy revision granting this person is newer than this revocation" 409
    let next := { o with
      members := deactivate o.members personId
      invitations := withdrawInvitations o.invitations personId }
    pure ⟨k.setOrg next, some .revoked, true⟩

/-- A policy is created by a member who may, and updated by a quorum of its stewards. -/
def mayWritePolicy (k : Call) (o : Organization) (create : Bool) (old : Option Policy) :
    Attempt Unit :=
  if create then do
    management k.s o k.c .policiesCreate k.ctx
    demand (old = none ∨ k.previous ≠ none) "conflict" "policy exists" 409
  else do
    let pol ← require (old.filter (·.organizationId = o.id))
      "not_found" "policy unavailable" 404
    steward k.s o pol k.c k.signed k.ctx

omit [Primitives] in
theorem mayWritePolicy_eq_ok {k : Call} {o : Organization} {create : Bool}
    {old : Option Policy} {u : Unit} (fresh : k.previous = none)
    (h : k.mayWritePolicy o create old = .ok u) :
    if create then Manages k.s o k.c .policiesCreate k.ctx ∧ old = none
    else ∃ pol, old = some pol ∧ pol.organizationId = o.id ∧
      Stewards k.s o pol k.c k.signed k.ctx := by
  cases create with
  | true => simpa [mayWritePolicy, fresh] using h
  | false => simpa [mayWritePolicy, Option.filter_eq_some_iff, and_assoc] using h

/-- `policy.create` when `create` holds, else `policy.update`. -/
def policyWrite (k : Call) (create : Bool) (p : PolicyPayload) : Attempt Reply := do
  let o ← k.currentOrg
  let old := k.s.policies.get? p.policyId
  demand (policyReserved k.s p.policyId = false) "migration_reserved" "policy reserved" 409
  k.mayWritePolicy o create old
  let revision := (old.map (·.revision)).getD 0
  let command := k.stored (if create then .policyCreate p else .policyUpdate p)
  let next : Policy :=
    { id := p.policyId, organizationId := o.id, revision := revision + 1,
      classification := p.classification, stewards := p.stewards, threshold := p.threshold,
      grants := p.grants, history := (old.map (·.history)).getD [] ++ [command] }
  checkPolicy next k.s o k.ctx
  let joining := next.stewards.filter fun id => old.all fun pol => id ∉ pol.stewards
  quorum k.s joining joining.length k.signed
  match k.previous with
  | some receipt => pure (k.answer receipt.result)
  | none => do
    demand (p.expectedRevision = revision) "conflict" "policy revision changed" 409
    demand (old.all (·.classification = next.classification) = true)
      "forbidden" "classification cannot be downgraded" 403
    pure (Reply.write { k.s with policies := k.s.policies.set next.id next }
      (.policyWritten next.id next.revision))

def policyGet (k : Call) (policyId : Uuid) : Attempt Reply := do
  let pol ← k.policy policyId
  let o ← k.currentOrg
  demand (k.c.actor.kind = .person ∧ activeMember k.s o k.c.actor.id k.ctx.now ∧
      k.c.actor.id ∈ pol.stewards)
    "not_found" "policy unavailable" 404
  pure (k.answer (some (.policy pol)))

def installationCreate (k : Call) (p : InstallationPayload) : Attempt Reply := do
  let o ← k.currentOrg
  management k.s o k.c .installationsManage k.ctx
  ids p.policyIds 1 32
  future p.expiresAt k.ctx
  let release ← require ((k.s.releases.get? p.releaseDigest).filter fun r =>
      r.visibility = .community || r.publisherId = o.id)
    "not_found" "release unavailable" 404
  let assessment ← require release.assessment
    "assessment_required" "exact artifact assessment required for installation" 403
  approvedArtifact assessment release.artifactDigest k.ctx
    "assessment does not bind approved artifact"
  demand ((∀ id ∈ p.policyIds,
        ((k.s.policies.get? id).any fun pol => pol.organizationId = o.id) = true) ∧
      0 < p.actions.length ∧ p.actions.length ≤ 3 ∧ p.actions.Nodup ∧
      ∀ a ∈ p.actions, a ∈ release.actions)
    "forbidden" "installation exceeds release or policy scope" 403
  match k.previous with
  | some receipt => do
    demand (o.installations.has p.installationId (·.active) = true)
      "forbidden" "installation revoked" 403
    pure (k.answer receipt.result)
  | none => do
    demand (migrationInstallationReserved k.s p.installationId = false)
      "migration_reserved" "installation ID reserved" 409
    demand (∀ x ∈ k.s.organizations.values, x.installations[p.installationId]? = none)
      "conflict" "installation ID exists" 409
    keyFree k.s p.keyId
    demand (p.keyId ∈ k.signed) "approval_required" "installation key possession required" 403
    demand (k.c.actor.id ∈ o.controllers ∨ covers o k.c.actor.id [] p.expiresAt)
      "forbidden" "installation outlives sponsor" 403
    let installations := o.installations.insert p.installationId
      (newInstallation p release k.c.actor.id)
    pure ⟨k.setOrg { o with installations := installations },
      some (.installation p.installationId), true⟩

def installationRevoke (k : Call) (installationId : Uuid) : Attempt Reply := do
  let o ← k.currentOrg
  management k.s o k.c .installationsManage k.ctx
  demand (o.installations[installationId]? ≠ none) "not_found" "installation unavailable" 404
  match k.previous with
  | some receipt => pure (k.answer receipt.result)
  | none =>
    let installations :=
      o.installations.modify installationId fun inst => { inst with active := false }
    pure ⟨k.setOrg { o with installations := installations }, some .revoked, true⟩

end Call
end DirectTrade
