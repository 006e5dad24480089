import DirectTrade.Wire

/-!
Administration and data permissions. Controllers and members administer a company;
data rights come only from the grants of a policy, read at the time of execution.
-/

namespace DirectTrade

open Library

/-- Tests a predicate on the value of a table entry that may be absent. -/
def Table.has {α β : Type} [Ord α] [Std.TransOrd α] (t : Table α β) (k : α)
    (p : β → Bool) : Bool :=
  t[k]?.any p

def checkPermissions (input : List Permission) : Attempt (List Permission) := do
  let management : List Permission := [.authorityManage, .installationsManage, .membersManage,
    .policiesCreate, .profilesPublish, .releasesPublish]
  demand (input.length ≤ management.length ∧ input.Nodup ∧ ∀ x ∈ input, x ∈ management)
    "invalid" "unsupported administration permission" 400
  -- the supported texts in their order, so the sorted input is a sublist of them
  pure (management.filter (· ∈ input))

def isPerson (s : State) (id : Uuid) : Bool := (s.persons.get? id).isSome

def activeMember (s : State) (org : Organization) (id : Uuid) (now : Instant) : Bool :=
  isPerson s id && (id ∈ org.controllers ||
    org.members.has id fun m => m.active && m.expiresAt > now)

/-- The latest signing time of a revocation of the person; `none` stands for `-Infinity`. -/
def revokedAt (org : Organization) (id : Uuid) : Option Instant :=
  (org.history.filterMap fun c =>
    if c.payload = .membershipRevoke id then some c.issuedAt else none).max?

/-- A grant counts only when the policy revision carrying it was signed after the
person's latest revocation. -/
def grantCurrent (org : Organization) (policy : Policy) (id : Uuid) : Bool :=
  policy.history.getLast?.any fun c => (revokedAt org id).all (· < c.issuedAt)

def management (s : State) (org : Organization) (c : Command) (action : Permission)
    (ctx : Context) : Attempt Unit :=
  demand (c.actor.kind = .person ∧ activeMember s org c.actor.id ctx.now ∧
      (c.actor.id ∈ org.controllers ∨
        org.members.has c.actor.id fun m => action ∈ m.permissions))
    "forbidden" "administration permission required" 403

/-- A person who administers the company under a permission. -/
structure Manages (s : State) (o : Organization) (c : Command) (action : Permission)
    (ctx : Context) : Prop where
  person : c.actor.kind = .person
  active : activeMember s o c.actor.id ctx.now = true
  permitted : c.actor.id ∈ o.controllers ∨
    (o.members.has c.actor.id fun m => action ∈ m.permissions) = true

@[simp] theorem management_eq_ok (s : State) (o : Organization) (c : Command)
    (action : Permission) (ctx : Context) (u : Unit) :
    management s o c action ctx = .ok u ↔ Manages s o c action ctx := by
  simp only [management, demand_eq_ok]
  exact ⟨fun ⟨h1, h2, h3⟩ => ⟨h1, h2, h3⟩, fun ⟨h1, h2, h3⟩ => ⟨h1, h2, h3⟩⟩

/-- Whether one of a person's current keys signed. -/
def personSigned (s : State) (signed : List KeyId) (id : Uuid) : Bool :=
  (s.persons.get? id).any fun p => p.keys.any (· ∈ signed)

def quorum (s : State) (ids : List Uuid) (threshold : ℕ) (signed : List KeyId) :
    Attempt Unit :=
  demand ((ids.filter (personSigned s signed)).length ≥ threshold)
    "approval_required" "distinct current steward/controller signatures required" 403

@[simp] theorem quorum_eq_ok (s : State) (people : List Uuid) (threshold : ℕ)
    (signed : List KeyId) (u : Unit) :
    quorum s people threshold signed = .ok u ↔
      (people.filter (personSigned s signed)).length ≥ threshold := by
  simp [quorum]

def controller (s : State) (org : Organization) (c : Command) (signed : List KeyId) :
    Attempt Unit := do
  demand (c.actor.kind = .person ∧ c.actor.id ∈ org.controllers)
    "forbidden" "company controller required" 403
  quorum s org.controllers org.threshold signed

/-- A controller who brought the signatures of a control quorum. -/
structure Controls (s : State) (o : Organization) (c : Command) (signed : List KeyId) :
    Prop where
  person : c.actor.kind = .person
  member : c.actor.id ∈ o.controllers
  quorum : (o.controllers.filter (personSigned s signed)).length ≥ o.threshold

def steward (s : State) (org : Organization) (policy : Policy) (c : Command)
    (signed : List KeyId) (ctx : Context) : Attempt Unit := do
  demand (c.actor.kind = .person ∧ c.actor.id ∈ policy.stewards ∧
      activeMember s org c.actor.id ctx.now)
    "forbidden" "active compartment stewardship required" 403
  quorum s (policy.stewards.filter fun id => activeMember s org id ctx.now)
    policy.threshold signed

/-- A steward who brought the signatures of a quorum of the active stewards. -/
structure Stewards (s : State) (o : Organization) (policy : Policy) (c : Command)
    (signed : List KeyId) (ctx : Context) : Prop where
  person : c.actor.kind = .person
  member : c.actor.id ∈ policy.stewards
  active : activeMember s o c.actor.id ctx.now = true
  quorum : ((policy.stewards.filter fun id => activeMember s o id ctx.now).filter
    (personSigned s signed)).length ≥ policy.threshold

@[simp] theorem steward_eq_ok (s : State) (o : Organization) (policy : Policy) (c : Command)
    (signed : List KeyId) (ctx : Context) (u : Unit) :
    steward s o policy c signed ctx = .ok u ↔ Stewards s o policy c signed ctx := by
  simp only [steward, Outcome.bind_eq_ok, demand_eq_ok, quorum_eq_ok, exists_const]
  constructor
  · rintro ⟨⟨h1, h2, h3⟩, h4⟩
    exact ⟨h1, h2, h3, h4⟩
  · rintro ⟨h1, h2, h3, h4⟩
    exact ⟨⟨h1, h2, h3⟩, h4⟩

def Scope.covers : Scope → Uuid → Bool
  | .all, _ => true
  | .only resources, resource => resource ∈ resources

/-- The person whose grants decide a data access: the actor, the requester, or else
the sponsor of the acting installation. -/
def humanOf (org : Organization) (c : Command) : Option Uuid :=
  match c.actor.kind with
  | .person => some c.actor.id
  | .installation => c.requestedBy.or (org.installations[c.actor.id]?.map (·.sponsorId))

def grants (s : State) (org : Organization) (policy : Policy) (resource : Uuid)
    (action : DataAction) (ctx : Context) (id : Uuid) : Bool :=
  activeMember s org id ctx.now && grantCurrent org policy id &&
    policy.grants.any fun g => g.personId = id && action ∈ g.actions &&
      g.expiresAt > ctx.now && g.resourceIds.covers resource

def dataAllowed (s : State) (org : Organization) (policy : Policy) (resource : Uuid)
    (action : DataAction) (c : Command) (ctx : Context) : Bool :=
  policy.organizationId = org.id && org.status = .active &&
    match c.actor.kind with
    | .person => (humanOf org c).any (grants s org policy resource action ctx)
    | .installation =>
      org.installations.has c.actor.id (fun inst => inst.active && inst.expiresAt > ctx.now &&
        policy.id ∈ inst.policyIds && action ∈ inst.actions) &&
      (humanOf org c).any (grants s org policy resource action ctx)

/-- 366 days in milliseconds. -/
def yearMillis : Instant := 366 * 86400000

def checkGrant (g : Grant) (policy : Policy) (s : State) (org : Organization)
    (ctx : Context) : Attempt Unit := do
  demand (activeMember s org g.personId ctx.now ∧ 0 < g.actions.length ∧ g.actions.length ≤ 3 ∧
      g.actions.Nodup)
    "invalid" "invalid policy grant" 400
  demand (g.resourceIds.conforms = true) "invalid" "invalid resource scope" 400
  demand (g.expiresAt > ctx.now ∧ g.expiresAt ≤ ctx.now + yearMillis)
    "invalid" "invalid grant expiry" 400
  demand (g.personId ∈ org.controllers ∨
      org.members.has g.personId fun m => g.expiresAt ≤ m.expiresAt)
    "forbidden" "grant outlives membership" 403
  demand (grantCurrent org policy g.personId = true)
    "invalid" "policy revision predates the person's membership revocation" 400

/-- A grant that a live policy write accepts. -/
structure GrantFits (g : Grant) (policy : Policy) (s : State) (o : Organization)
    (ctx : Context) : Prop where
  active : activeMember s o g.personId ctx.now = true
  actions : 0 < g.actions.length ∧ g.actions.length ≤ 3 ∧ g.actions.Nodup
  scope : g.resourceIds.conforms = true
  lifetime : g.expiresAt > ctx.now ∧ g.expiresAt ≤ ctx.now + yearMillis
  covered : g.personId ∈ o.controllers ∨
    (o.members.has g.personId fun m => g.expiresAt ≤ m.expiresAt) = true
  current : grantCurrent o policy g.personId = true

@[simp] theorem checkGrant_eq_ok (g : Grant) (policy : Policy) (s : State) (o : Organization)
    (ctx : Context) (u : Unit) :
    checkGrant g policy s o ctx = .ok u ↔ GrantFits g policy s o ctx := by
  simp only [checkGrant, Outcome.bind_eq_ok, demand_eq_ok, exists_const]
  constructor
  · rintro ⟨⟨h1, h2⟩, h3, h4, h5, h6⟩
    exact ⟨h1, h2, h3, h4, h5, h6⟩
  · rintro ⟨h1, h2, h3, h4, h5, h6⟩
    exact ⟨⟨h1, h2⟩, h3, h4, h5, h6⟩

def checkPolicy (policy : Policy) (s : State) (org : Organization) (ctx : Context) :
    Attempt Unit := do
  demand (policy.organizationId = org.id) "invalid" "invalid policy identity" 400
  demand (0 < policy.stewards.length ∧ policy.stewards.length ≤ 8 ∧ policy.stewards.Nodup ∧
      ∀ id ∈ policy.stewards, activeMember s org id ctx.now = true)
    "invalid" "stewards must be distinct active members" 400
  demand (1 ≤ policy.threshold ∧ policy.threshold ≤ policy.stewards.length)
    "invalid" "invalid steward quorum" 400
  demand (policy.grants.length ≤ 256) "invalid" "too many grants" 400
  Outcome.each (fun g => checkGrant g policy s org ctx) policy.grants

/-- A policy revision that a live write accepts. -/
structure PolicyFits (policy : Policy) (s : State) (o : Organization) (ctx : Context) :
    Prop where
  organization : policy.organizationId = o.id
  stewards : 0 < policy.stewards.length ∧ policy.stewards.length ≤ 8 ∧ policy.stewards.Nodup ∧
    ∀ id ∈ policy.stewards, activeMember s o id ctx.now = true
  threshold : 1 ≤ policy.threshold ∧ policy.threshold ≤ policy.stewards.length
  size : policy.grants.length ≤ 256
  grants : ∀ g ∈ policy.grants, GrantFits g policy s o ctx

@[simp] theorem checkPolicy_eq_ok (policy : Policy) (s : State) (o : Organization)
    (ctx : Context) (u : Unit) :
    checkPolicy policy s o ctx = .ok u ↔ PolicyFits policy s o ctx := by
  simp only [checkPolicy, Outcome.bind_eq_ok, demand_eq_ok, Outcome.each_eq_ok,
    checkGrant_eq_ok, exists_const]
  constructor
  · rintro ⟨h1, h2, h3, h4, h5⟩
    exact ⟨h1, h2, h3, h4, h5⟩
  · rintro ⟨h1, h2, h3, h4, h5⟩
    exact ⟨h1, h2, h3, h4, h5⟩

end DirectTrade
