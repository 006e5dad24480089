import DirectTrade.Store.Transitions

/-!
What a signed envelope must be before any table is looked at: its shape, its type, its body, the
keys of an identity and its signature.
-/

namespace DirectTrade.Store

open Library.Outcome

/-- What the store is given: the schemas beyond the members read here, signatures, digests, and
how the database reads a time. -/
class Platform where
  conforms : Envelope → Bool
  bodyConforms : String → Json → Bool
  verifies : Envelope → Bool
  payloadHash : Envelope → Digest
  tokenHash : String → String
  instant : String → Option ℤ
  /-- The text of a value with its members in the order they have. -/
  stringify : Json → String

def text? (body : Json) (field : String) : Option String :=
  match body.member? field with
  | some (.str s) => some s
  | _ => none

structure KeyEntry where
  keyId : String
  role : Role
  status : Status
  deriving DecidableEq

def role? : String → Option Role
  | "root" => some .root
  | "delegate" => some .delegate
  | _ => none

def status? : String → Option Status
  | "active" => some .active
  | "revoked" => some .revoked
  | _ => none

def readKey (entry : Json) : Option KeyEntry :=
  match text? entry "key_id", (text? entry "role").bind role?,
      (text? entry "status").bind status? with
  | some keyId, some role, some status => some ⟨keyId, role, status⟩
  | _, _, _ => none

def readKeys (body : Json) : Option (List KeyEntry) :=
  match body.member? "keys" with
  | some (.arr items) => items.mapM readKey
  | _ => none

/-- A member that is a string or missing. -/
def optionalText (body : Json) (field : String) : Option (Option String) :=
  match body.member? field with
  | none => some none
  | some (.str s) => some (some s)
  | _ => none

def readScope (scope : Json) : Option Scope :=
  match optionalText scope "namespace", optionalText scope "type", text? scope "access" with
  | some nameSpace, some type, some access =>
    if access = "read" ∨ access = "write" then some ⟨nameSpace, type, access⟩ else none
  | _, _, _ => none

structure GrantBody where
  moduleId : String
  scopes : List Scope
  status : Status
  expiresAt : Option String
  deriving DecidableEq

def readExpiry (body : Json) : Option (Option String) :=
  match body.member? "expires_at" with
  | none | some .null => some none
  | some (.str s) => some (some s)
  | _ => none

def readScopes (body : Json) : Option (List Scope) :=
  match body.member? "scopes" with
  | some (.arr items) => items.mapM readScope
  | _ => none

def readGrant (body : Json) : Option GrantBody :=
  match text? body "module_id", readScopes body, (text? body "status").bind status?,
      readExpiry body with
  | some moduleId, some scopes, some status, some expiresAt =>
    some ⟨moduleId, scopes, status, expiresAt⟩
  | _, _, _, _ => none

def keysOf (body : Json) : List KeyEntry := (readKeys body).getD []

def isIdentity (type : String) : Prop := type = "core.company" ∨ type = "core.module"

instance (type : String) : Decidable (isIdentity type) := inferInstanceAs (Decidable (_ ∨ _))

/-- The members of a body that the store itself reads have the shapes the schemas give them. -/
def readable (type : String) (body : Json) : Prop :=
  (isIdentity type → (readKeys body).isSome = true) ∧
    (type = "core.module" → (text? body "module_id").isSome = true) ∧
    (type = "core.grant" → (readGrant body).isSome = true)

instance (type : String) (body : Json) : Decidable (readable type body) :=
  inferInstanceAs (Decidable (_ ∧ _ ∧ _))

def hasActiveRoot (keys : List KeyEntry) : Prop := ∃ k ∈ keys, k.role = .root ∧ k.status = .active

instance (keys : List KeyEntry) : Decidable (hasActiveRoot keys) :=
  inferInstanceAs (Decidable (∃ k ∈ keys, _))

section
variable [Platform]

/-- Shape, registry, body and signature of an envelope; the type's entry of the registry. -/
def validateSignedEnvelope (env : Envelope) : Checked TypeInfo := do
  demand ⟨.envelopeInvalid, "envelope failed validation"⟩ (Platform.conforms env = true)
  demand ⟨.envelopeInvalid, "namespace " ++ env.nameSpace ++ " does not match type " ++ env.type⟩
    (env.nameSpace = namespaceOf env.type)
  demand ⟨.envelopeInvalid, "subject_company_id must not appear in counterparty_ids"⟩
    (env.subjectCompanyId ∉ env.counterpartyIds)
  demand ⟨.envelopeInvalid, "a genesis record (supersedes null) must have root_id == record_id"⟩
    (env.supersedes = none → env.rootId = env.recordId)
  let info ← require ⟨.unknownType, "unknown record type " ++ env.type⟩ (typeInfo env.type)
  demand ⟨.unknownType, "type " ++ env.type ++ " has no schema version " ++ env.schemaVersion⟩
    (env.schemaVersion ∈ info.schemaVersions)
  demand ⟨.schemaInvalid, "body does not conform to " ++ env.type⟩
    (readable env.type env.body ∧ Platform.bodyConforms env.type env.body = true)
  demand ⟨.schemaInvalid, "keys must contain unique key_id values"⟩
    (isIdentity env.type → ((keysOf env.body).map KeyEntry.keyId).Nodup)
  demand ⟨.forbidden, "an identity must retain at least one active root key"⟩
    (isIdentity env.type → hasActiveRoot (keysOf env.body))
  demand ⟨.signatureInvalid, "signature does not verify"⟩ (Platform.verifies env = true)
  pure info

/-- What an accepted envelope is. -/
structure Valid (env : Envelope) (info : TypeInfo) : Prop where
  nameSpace : env.nameSpace = namespaceOf env.type
  counterparties : env.subjectCompanyId ∉ env.counterpartyIds
  genesis : env.supersedes = none → env.rootId = env.recordId
  info : typeInfo env.type = some info
  readable : readable env.type env.body
  keyIds : isIdentity env.type → ((keysOf env.body).map KeyEntry.keyId).Nodup
  activeRoot : isIdentity env.type → hasActiveRoot (keysOf env.body)
  signed : Platform.verifies env = true

theorem valid_of_validate {env : Envelope} {info : TypeInfo}
    (h : validateSignedEnvelope env = .ok info) : Valid env info := by
  simp only [validateSignedEnvelope, bind_eq_ok, demand_eq_ok, require_eq_ok, pure_eq_ok,
    exists_const] at h
  obtain ⟨-, hns, hparties, hgenesis, info', hinfo, -, hbody, hkeys, hroot, hsigned, rfl⟩ := h
  exact ⟨hns, hparties, hgenesis, hinfo, hbody.1, hkeys, hroot, hsigned⟩

end

end DirectTrade.Store
