import DirectTrade.Foundation.Datatypes

/-!
Finite operation authority: grants delegated down a forest, the budgets that every accepted
operation charges on the whole chain above its grant, and the approvals that a chain asks
for. Principals are authenticated by the caller, in the transaction that commits the state.
-/

namespace DirectTrade.Foundation.Authority

open Library Outcome

/-- A decimal amount of a metric, of at most 78 digits where it is checked. -/
structure Limit where
  metric : ExternalIdentifier
  amount : ℕ
  deriving DecidableEq

structure ApprovalRule where
  people : List EntityReference
  threshold : ℕ
  excludeActor : Bool
  deriving DecidableEq

structure OperationScope where
  organizationId : Uuid
  operations : List String
  profiles : List Digest
  resourceIds : List Uuid
  deriving DecidableEq

structure CapabilityGrant where
  id : Uuid
  parentId : Option Uuid
  subject : EntityReference
  scope : OperationScope
  notBefore : ℤ
  expiresAt : ℤ
  delegationDepth : ℕ
  limits : List Limit
  approval : Option ApprovalRule
  deriving DecidableEq

structure GrantEntry where
  grant : CapabilityGrant
  revoked : Bool
  used : List Limit
  deriving DecidableEq

/-- An accepted operation. -/
structure AuthorityReceipt where
  operationId : Uuid
  organizationId : Uuid
  intentDigest : Digest
  planDigest : Digest
  actor : EntityReference
  deriving DecidableEq

structure AuthorityState where
  revision : ℕ
  governance : List Governance
  grants : List GrantEntry
  receipts : List AuthorityReceipt
  deriving DecidableEq

/-- A principal that the host has authenticated. -/
structure PrincipalConsent where
  principal : EntityReference
  deriving DecidableEq

structure ApprovalEvidence where
  person : EntityReference
  organizationId : Uuid
  operationId : Uuid
  intentDigest : Digest
  planDigest : Digest
  grantId : Uuid
  expiresAt : ℤ
  deriving DecidableEq

structure ExecutionAuthority where
  actor : EntityReference
  grantId : Uuid
  scope : OperationScope
  operationId : Uuid
  intentDigest : Digest
  planDigest : Digest
  usage : List Limit
  approvals : List ApprovalEvidence
  deriving DecidableEq

structure Authorized where
  state : AuthorityState
  replayed : Bool
  chain : List Uuid
  deriving DecidableEq

def Limit.json (l : Limit) : Json :=
  .obj [("metric", l.metric.json), ("amount", .str (toString l.amount))]

def ApprovalRule.json (r : ApprovalRule) : Json :=
  .obj [("people", .arr (r.people.map EntityReference.json)), ("threshold", .num r.threshold),
    ("exclude_actor", .bool r.excludeActor)]

def OperationScope.json (v : OperationScope) : Json :=
  .obj [("organization_id", uuidJson v.organizationId),
    ("operations", .arr (v.operations.map .str)), ("profiles", .arr (v.profiles.map digestJson)),
    ("resource_ids", .arr (v.resourceIds.map uuidJson))]

def CapabilityGrant.json (g : CapabilityGrant) : Json :=
  .obj [("id", uuidJson g.id), ("parent_id", optionJson uuidJson g.parentId),
    ("subject", g.subject.json), ("scope", g.scope.json), ("not_before", .num g.notBefore),
    ("expires_at", .num g.expiresAt), ("delegation_depth", .num g.delegationDepth),
    ("limits", .arr (g.limits.map Limit.json)), 
    ("approval", optionJson ApprovalRule.json g.approval)]

def GrantEntry.json (e : GrantEntry) : Json :=
  .obj [("grant", e.grant.json), ("revoked", .bool e.revoked),
    ("used", .arr (e.used.map Limit.json))]

def AuthorityReceipt.json (r : AuthorityReceipt) : Json :=
  .obj [("operation_id", uuidJson r.operationId), ("organization_id", uuidJson r.organizationId),
    ("intent_digest", digestJson r.intentDigest), ("plan_digest", digestJson r.planDigest),
    ("actor", r.actor.json)]

def AuthorityState.json (s : AuthorityState) : Json :=
  .obj [("revision", .num s.revision), ("governance", .arr (s.governance.map Governance.json)),
    ("grants", .arr (s.grants.map GrantEntry.json)),
    ("receipts", .arr (s.receipts.map AuthorityReceipt.json))]

def PrincipalConsent.json (c : PrincipalConsent) : Json := .obj [("principal", c.principal.json)]

def ApprovalEvidence.json (a : ApprovalEvidence) : Json :=
  .obj [("person", a.person.json), ("organization_id", uuidJson a.organizationId),
    ("operation_id", uuidJson a.operationId), ("intent_digest", digestJson a.intentDigest),
    ("plan_digest", digestJson a.planDigest), ("grant_id", uuidJson a.grantId),
    ("expires_at", .num a.expiresAt)]

def ExecutionAuthority.json (i : ExecutionAuthority) : Json :=
  .obj [("actor", i.actor.json), ("grant_id", uuidJson i.grantId), ("scope", i.scope.json),
    ("operation_id", uuidJson i.operationId), ("intent_digest", digestJson i.intentDigest),
    ("plan_digest", digestJson i.planDigest), ("usage", .arr (i.usage.map Limit.json)),
    ("approvals", .arr (i.approvals.map ApprovalEvidence.json))]

/-- The limits of a copy. An object of this module has few members, so the limit on members
is not among them. -/
structure Copyable (value : Json) : Prop where
  nodes : value.nodes ≤ 65536
  depth : value.depth ≤ 16
  plain : value.plain = true
  bytes : value.bytes ≤ 2 * 1024 * 1024

/-- Copies a value before it is used. -/
def copy (value : Json) : Checked Unit := do
  demand "authority input complexity exceeded" (value.nodes ≤ 65536 ∧ value.depth ≤ 16)
  demand "plain authority data required" (value.plain = true)
  demand "authority input too large" (value.bytes ≤ 2 * 1024 * 1024)

def time (v : ℤ) : Checked Unit :=
  demand "invalid authority time" (0 ≤ v ∧ v ≤ maxSafeInteger - 1)

/-- A bounded list whose elements have distinct keys. -/
def values {α κ : Type} [DecidableEq κ] (v : List α) (max : ℕ) (key : α → κ) : Checked Unit :=
  demand "bounded unique values required" (v.length ≤ max ∧ (v.map key).Nodup)

def principal (v : EntityReference) (kinds : List EntityKind) : Checked Unit :=
  demand "invalid principal kind" (v.kind ∈ kinds)

def amount (v : ℕ) : Checked Unit :=
  demand "nonnegative bounded integral metric required" (v < 10 ^ 78)

def limits (v : List Limit) : Checked Unit := do
  values v 16 Limit.metric
  each (fun l => do
    parseExternalIdentifier l.metric
    amount l.amount) v

def operation (op : String) : Checked Unit :=
  demand "invalid operation" (isNamespaced op = true ∧ textLength op ≤ 96)

def scope (v : OperationScope) : Checked Unit := do
  values v.operations 32 id
  demand "operation required" (0 < v.operations.length)
  each operation v.operations
  values v.profiles 32 id
  demand "profile required" (0 < v.profiles.length)
  values v.resourceIds 64 id
  demand "resource required" (0 < v.resourceIds.length)

/-- A scope within another one. -/
structure Narrower (child parent : OperationScope) : Prop where
  organization : child.organizationId = parent.organizationId
  operations : child.operations ⊆ parent.operations
  profiles : child.profiles ⊆ parent.profiles
  resources : child.resourceIds ⊆ parent.resourceIds

instance (child parent : OperationScope) : Decidable (Narrower child parent) :=
  decidable_of_iff (child.organizationId = parent.organizationId ∧
      child.operations ⊆ parent.operations ∧ child.profiles ⊆ parent.profiles ∧
      child.resourceIds ⊆ parent.resourceIds)
    ⟨fun h => ⟨h.1, h.2.1, h.2.2.1, h.2.2.2⟩,
      fun h => ⟨h.organization, h.operations, h.profiles, h.resources⟩⟩

def narrower (child parent : OperationScope) : Checked Unit :=
  demand "scope widens authority" (Narrower child parent)

def rule : Option ApprovalRule → Checked Unit
  | none => pure ()
  | some r => do
    values r.people 16 id
    each (principal · [.person]) r.people
    demand "invalid approval rule" (1 ≤ r.threshold ∧ r.threshold ≤ r.people.length)

def grant (g : CapabilityGrant) : Checked Unit := do
  principal g.subject [.person, .organization, .service]
  scope g.scope
  time g.notBefore
  time g.expiresAt
  demand "invalid grant lifetime/delegation" (g.notBefore < g.expiresAt ∧ g.delegationDepth ≤ 4)
  limits g.limits
  rule g.approval

def governance (g : Governance) : Checked Unit := do
  values g.controllers 16 id
  each (principal · [.person]) g.controllers
  demand "invalid controller quorum" (1 ≤ g.threshold ∧ g.threshold ≤ g.controllers.length)

def nextRevision (s : AuthorityState) : Checked Unit :=
  demand "authority revision exhausted" ((s.revision : ℤ) < maxSafeInteger)

def AuthorityState.find? (s : AuthorityState) (id : Uuid) : Option GrantEntry :=
  s.grants.find? fun e => e.grant.id = id

def entry (s : AuthorityState) (id : Uuid) : Checked GrantEntry :=
  require "grant unavailable" (s.find? id)

/-- A grant that may be used at an instant. -/
def GrantEntry.active (e : GrantEntry) (now : ℤ) : Prop :=
  e.revoked = false ∧ e.grant.notBefore ≤ now ∧ now < e.grant.expiresAt

instance (e : GrantEntry) (now : ℤ) : Decidable (e.active now) :=
  inferInstanceAs (Decidable (_ ∧ _))

/-- The grants from one up to its root: five at most, none twice, every one active. -/
def climb (s : AuthorityState) (now : ℤ) : ℕ → List Uuid → Option Uuid → Checked (List GrantEntry)
  | _, _, none => pure []
  | 0, _, some _ => .error "authority cycle or depth exceeded"
  | room + 1, seen, some id => do
    demand "authority cycle or depth exceeded" (id ∉ seen)
    let e ← entry s id
    demand "grant inactive" (e.active now)
    let rest ← climb s now room (seen ++ [id]) e.grant.parentId
    pure (e :: rest)

def chain (s : AuthorityState) (leaf : Uuid) (now : ℤ) : Checked (List GrantEntry) := do
  time now
  climb s now 5 [] (some leaf)

/-- Whether authenticated principals may act as a subject. -/
def control (s : AuthorityState) (subject : EntityReference) (consents : List PrincipalConsent) :
    Checked Unit := do
  values consents 16 PrincipalConsent.principal
  each (fun c => principal c.principal [.person, .service]) consents
  if subject.kind = .organization then do
    let g ← require "organization control unavailable"
      (s.governance.find? fun g => g.organizationId = subject.id)
    demand "controller quorum required"
      (g.threshold ≤ (g.controllers.filter (· ∈ consents.map PrincipalConsent.principal)).length)
  else
    demand "grant subject consent required" (subject ∈ consents.map PrincipalConsent.principal)

/-- The governance of every organization has been verified by the host. -/
def createAuthorityState (organizations : List Governance) : Checked AuthorityState := do
  copy (.arr (organizations.map Governance.json))
  values organizations 1024 Governance.organizationId
  each governance organizations
  pure { revision := 0, governance := organizations, grants := [], receipts := [] }

/-- The state with one more grant. -/
def AuthorityState.withGrant (s : AuthorityState) (g : CapabilityGrant) : AuthorityState :=
  { s with
    grants := s.grants ++ [⟨g, false, g.limits.map fun l => { l with amount := 0 }⟩]
    revision := s.revision + 1 }

/-- What a delegated grant keeps within its parent. -/
def delegated (g parent : CapabilityGrant) : Checked Unit := do
  demand "delegation not permitted"
    (0 < parent.delegationDepth ∧ g.delegationDepth < parent.delegationDepth)
  narrower g.scope parent.scope
  demand "delegation extends lifetime"
    (parent.notBefore ≤ g.notBefore ∧ g.expiresAt ≤ parent.expiresAt)
  demand "delegation widens metrics or budget"
    (g.limits.length = parent.limits.length ∧
      ∀ c ∈ g.limits, ∃ p ∈ parent.limits, p.metric = c.metric ∧ c.amount ≤ p.amount)

/-- Who may issue a grant: the organization of a root grant, the subject of a parent. -/
def grantable (s : AuthorityState) (g : CapabilityGrant) (consents : List PrincipalConsent)
    (now : ℤ) : Checked Unit :=
  match g.parentId with
  | none => control s (.organization g.scope.organizationId) consents
  | some parentId => do
    let ancestors ← chain s parentId now
    let parent ← require "grant unavailable" ancestors.head?
    control s parent.grant.subject consents
    delegated g parent.grant

def issueGrant (s : AuthorityState) (g : CapabilityGrant) (consents : List PrincipalConsent)
    (now : ℤ) : Checked AuthorityState := do
  copy s.json
  copy g.json
  copy (.arr (consents.map PrincipalConsent.json))
  grant g
  time now
  demand "grant capacity exceeded" (s.grants.length < 4096)
  demand "grant ID already used" (∀ e ∈ s.grants, e.grant.id ≠ g.id)
  demand "grant already expired" (now < g.expiresAt)
  grantable s g consents now
  nextRevision s
  pure (s.withGrant g)

/-- The grantor of a grant: the organization of a root grant, the subject of its parent. -/
def grantor (s : AuthorityState) (g : CapabilityGrant) : Checked EntityReference :=
  match g.parentId with
  | none => pure (.organization g.scope.organizationId)
  | some parentId => do
    let parent ← entry s parentId
    pure parent.grant.subject

/-- Marks the first grant with an identifier as revoked. -/
def revoke (grantId : Uuid) : List GrantEntry → List GrantEntry
  | [] => []
  | e :: rest =>
    if e.grant.id = grantId then { e with revoked := true } :: rest else e :: revoke grantId rest

def AuthorityState.withRevoked (s : AuthorityState) (grantId : Uuid) : AuthorityState :=
  { s with grants := revoke grantId s.grants, revision := s.revision + 1 }

def revokeGrant (s : AuthorityState) (grantId : Uuid) (consents : List PrincipalConsent) :
    Checked AuthorityState := do
  copy s.json
  copy (.arr (consents.map PrincipalConsent.json))
  let e ← entry s grantId
  let parent ← grantor s e.grant
  control s parent consents
  if e.revoked then pure s
  else do
    nextRevision s
    pure (s.withRevoked grantId)

/-- Adds to the first counter of a metric. -/
def credit (metric : ExternalIdentifier) (n : ℕ) : List Limit → List Limit
  | [] => []
  | l :: rest =>
    if l.metric = metric then { l with amount := l.amount + n } :: rest
    else l :: credit metric n rest

/-- One metric of a use, within the limit of a grant. -/
def chargeMetric (g : CapabilityGrant) (used : List Limit) (u : Limit) : Checked (List Limit) := do
  let limit ← require "unaccounted usage metric" (g.limits.find? fun l => l.metric = u.metric)
  let counter ← require "missing usage counter" (used.find? fun l => l.metric = u.metric)
  demand "cumulative grant budget exceeded" (counter.amount + u.amount ≤ limit.amount)
  pure (credit u.metric u.amount used)

/-- An approval that a rule counts for one operation at one instant. -/
def ApprovalEvidence.counts (a : ApprovalEvidence) (r : ApprovalRule) (g : CapabilityGrant)
    (i : ExecutionAuthority) (now : ℤ) : Prop :=
  a.grantId = g.id ∧ a.organizationId = i.scope.organizationId ∧ a.operationId = i.operationId ∧
    a.intentDigest = i.intentDigest ∧ a.planDigest = i.planDigest ∧ now < a.expiresAt ∧
    (r.excludeActor = true → a.person ≠ i.actor) ∧ a.person ∈ r.people

instance (a : ApprovalEvidence) (r : ApprovalRule) (g : CapabilityGrant) (i : ExecutionAuthority)
    (now : ℤ) : Decidable (a.counts r g i now) :=
  inferInstanceAs (Decidable (_ ∧ _ ∧ _ ∧ _ ∧ _ ∧ _ ∧ _ ∧ _))

def approved (g : CapabilityGrant) (i : ExecutionAuthority) (now : ℤ) : Checked Unit :=
  match g.approval with
  | none => pure ()
  | some r =>
    demand "exact live approval quorum required"
      (r.threshold ≤ (i.approvals.filter fun a => a.counts r g i now).length)

/-- One grant of the chain, charged. -/
def chargeEntry (i : ExecutionAuthority) (now : ℤ) (e : GrantEntry) : Checked GrantEntry := do
  let g := e.grant
  narrower i.scope g.scope
  demand "unaccounted usage metric"
    (i.usage.length = g.limits.length ∧
      ∀ u ∈ i.usage, ∃ l ∈ g.limits, l.metric = u.metric)
  let used ← i.usage.foldlM (chargeMetric g) e.used
  approved g i now
  pure { e with used }

def approval (a : ApprovalEvidence) : Checked Unit := do
  principal a.person [.person]
  time a.expiresAt

def ExecutionAuthority.receipt (i : ExecutionAuthority) : AuthorityReceipt :=
  { operationId := i.operationId, organizationId := i.scope.organizationId
    intentDigest := i.intentDigest, planDigest := i.planDigest, actor := i.actor }

/-- A grant with the counters that a charge left it. -/
def GrantEntry.recharged (charged : List GrantEntry) (e : GrantEntry) : GrantEntry :=
  { e with
    used := ((charged.find? fun c => c.grant.id = e.grant.id).map GrantEntry.used).getD e.used }

/-- The state with the grants of a chain charged and one more receipt. -/
def AuthorityState.withCharge (s : AuthorityState) (charged : List GrantEntry)
    (receipt : AuthorityReceipt) : AuthorityState :=
  { s with
    grants := s.grants.map (GrantEntry.recharged charged)
    receipts := s.receipts ++ [receipt]
    revision := s.revision + 1 }

/-- What every authorization checks, a replay included. -/
def authorized (s : AuthorityState) (i : ExecutionAuthority) (now : ℤ) :
    Checked (List GrantEntry) := do
  copy s.json
  copy i.json
  time now
  principal i.actor [.person, .service]
  scope i.scope
  limits i.usage
  demand "one business operation per authorization" (i.scope.operations.length = 1)
  let ancestors ← chain s i.grantId now
  let leaf ← require "grant unavailable" ancestors.head?
  demand "actor is not grant subject" (leaf.grant.subject = i.actor)
  each (fun e => narrower i.scope e.grant.scope) ancestors
  pure ancestors

/-- Approvals bind the exact plan, so none is reused after a revision changes. -/
def authorizeAndCharge (s : AuthorityState) (i : ExecutionAuthority) (now : ℤ) :
    Checked Authorized := do
  let ancestors ← authorized s i now
  let ids := ancestors.map fun e => e.grant.id
  match s.receipts.find? fun r =>
      r.operationId = i.operationId ∧ r.organizationId = i.scope.organizationId with
  | some prior => do
    demand "operation ID conflict"
      (prior.intentDigest = i.intentDigest ∧ prior.planDigest = i.planDigest ∧
        prior.actor = i.actor)
    pure ⟨s, true, ids⟩
  | none => do
    values i.approvals 64 fun a => (a.grantId, a.person)
    each approval i.approvals
    let charged ← ancestors.mapM (chargeEntry i now)
    demand "authority receipt capacity exceeded" (s.receipts.length < 4096)
    nextRevision s
    pure ⟨s.withCharge charged i.receipt, false, ids⟩

end DirectTrade.Foundation.Authority
