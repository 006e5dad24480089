import DirectTrade.Library.Serial
import DirectTrade.Store.Authz
import DirectTrade.Store.Statements

/-!
The requests that write: a company or a module registers itself, and any record is appended to
its chain. Each runs in one transaction that holds the lock of the store, the caller's key and
grants being read inside it.
-/

namespace DirectTrade.Store

open Library Library.Outcome Library.Serial

abbrev Handler (α : Type) := Program Db StoreError α

abbrev Reader (α : Type) := Query Db StoreError α

/-- A request that writes, with the clock and the random tokens that it meets. -/
structure Request where
  token : Option String
  now : ℤ
  minted : String → String
  input : Envelope

structure Context where
  principal : Option Principal
  now : ℤ
  minted : String → String

structure WriteResult where
  record : RecordRow
  supersededBy : Option String
  created : Bool
  keys : List (String × String)
  deriving DecidableEq

def check {α : Type} (x : Checked α) : Handler α := Program.ofExcept x

def ask {α : Type} (q : Reader α) : Handler α := Program.query q

def answer {α : Type} (x : Checked α) : Reader α := Query.ofExcept x

section
variable [Platform]

/-- The caller that a bearer token identifies, or nobody when there is no token. -/
def resolvePrincipal (token : Option String) : Reader (Option Principal) :=
  match token with
  | none => pure none
  | some token => do
    answer (demand ⟨.authInvalid, "malformed bearer token"⟩
      (token.toList.take 5 = "dtps_".toList))
    let rows ← Query.read fun db : Db =>
      db.keys.values.filter fun k => k.tokenHash == some (Platform.tokenHash token)
    let k ← answer (require ⟨.authInvalid, "unknown bearer token"⟩ rows.head?)
    answer (demand ⟨.keyInactive, "key " ++ k.keyId ++ " is revoked"⟩ (k.status = .active))
    pure (some ⟨k.ownerKind, k.ownerId, k.keyId, k.role⟩)

end

def grantsForModule (moduleId : String) : Reader (List GrantRow) :=
  Query.read fun db : Db =>
    db.grants.values.filter fun g => g.granteeModuleId == moduleId && g.status == .active

def grantsFor (p : Principal) : Reader (List GrantRow) :=
  match p.kind with
  | .module => grantsForModule p.id
  | .company => pure []

/-- A record with the one that supersedes it. -/
def Db.record? (db : Db) (recordId : String) : Option (RecordRow × Option String) :=
  (db.records.get? recordId).map fun r =>
    (r, (db.records.values.find? (·.supersedes == some recordId)).map (·.recordId))

def fetchRecordRow (recordId : String) : Reader (Option (RecordRow × Option String)) :=
  if isUuidText recordId = true then Query.read fun db : Db => db.record? recordId
  else pure none

def companyExists (id : String) : Reader Bool :=
  Query.read fun db : Db => (db.companies.get? id).isSome

def getRecord (ctx : Context) (recordId : String) : Reader (RecordRow × Option String) := do
  let row ← fetchRecordRow recordId
  let row ← answer (require ⟨.notFound, "record " ++ recordId ++ " not found"⟩ row)
  let grants ← (ctx.principal.map grantsFor).getD (pure [])
  answer (demand ⟨.notFound, "record " ++ recordId ++ " not found"⟩
    (canRead row.1.visibilityInput ctx.principal grants ctx.now = true))
  pure row

/-- The key must belong to the principal that the envelope claims. -/
def authorizeIssuer (p : Principal) (env : Envelope) (info : TypeInfo) : Checked Unit := do
  demand ⟨.issuerMismatch, "issuer.key_id must be the key the bearer token belongs to"⟩
    (env.issuer.keyId = p.keyId)
  match p.kind with
  | .company => do
    demand ⟨.issuerMismatch, "a company key signed this record but issuer.module_id is set"⟩
      (env.issuer.moduleId = none)
    demand ⟨.issuerMismatch, "key belongs to " ++ p.id ++ ", not " ++ env.issuer.companyId⟩
      (env.issuer.companyId = p.id)
    demand ⟨.forbidden, "core.* records must be signed by a root key"⟩
      (namespaceOf info.type = "core" → p.role = .root)
  | .module => do
    demand ⟨.issuerMismatch, "key belongs to module " ++ p.id ++ ", not "
      ++ env.issuer.moduleId.getD "null"⟩ (env.issuer.moduleId = some p.id)
    demand ⟨.forbidden, env.type ++ " cannot be written by a module"⟩ (.module ∈ info.writableBy)
    demand ⟨.forbidden, "modules cannot write core.* records"⟩ (namespaceOf info.type ≠ "core")

/-- The issuing company is a party of the record as it exists, or of a new one as given. -/
def authorizeParty (env : Envelope) (prev : Option RecordRow) : Checked Unit :=
  let parties := match prev with
    | some r => r.subjectCompanyId :: r.counterpartyIds
    | none => env.subjectCompanyId :: env.counterpartyIds
  demand ⟨.issuerNotParty, "issuer.company_id must be the subject or a counterparty of the record"⟩
    (env.issuer.companyId ∈ parties)

/-- A module needs a live grant to write from the company that it acts for. -/
def authorizeWrite (p : Principal) (now : ℤ) (env : Envelope) (info : TypeInfo)
    (prev : Option RecordRow) : Reader (List GrantRow) := do
  answer (authorizeIssuer p env info)
  answer (authorizeParty env prev)
  match p.kind with
  | .company => pure []
  | .module => do
    let grants ← grantsForModule p.id
    answer (demand ⟨.grantMissing, "module " ++ p.id ++ " has no active write grant for " ++
        env.type ++ " from " ++ env.issuer.companyId⟩
      (hasGrant grants env.issuer.companyId env.type "write" now = true))
    pure grants

section
variable [Platform]

def statusFromBody (info : TypeInfo) (body : Json) : Option String := statusOf info body

def insertRecord (taken : StoreError) (env : Envelope) (status : Option String) : Handler Unit :=
  Program.write (insertRecordRow taken (recordRow env status (Platform.payloadHash env)))

end

/-- The number of an event is drawn as it is inserted. -/
def insertEvent (env : Envelope) (status : Option String) : Handler ℕ := do
  let seq ← Program.next
  Program.write (insertEventRow (eventRow env status seq))
  Program.write (setSeq env.recordId seq)
  pure seq

section
variable [Platform]

def keyRow (kind : PrincipalKind) (ownerId : String) (minted : String → String) (k : KeyEntry) :
    KeyRow :=
  ⟨k.keyId, kind, ownerId, k.role, k.status,
    if k.status = .active then some (Platform.tokenHash (minted k.keyId)) else none⟩

/-- The token of a new key, shown once. -/
def mintedToken (minted : String → String) (k : KeyEntry) : Option (String × String) :=
  if k.status = .active then some (k.keyId, minted k.keyId) else none

/-- Brings the row of one listed key in line with its entry, `existing` being the rows of the
owner before. -/
def syncKey (kind : PrincipalKind) (ownerId : String) (minted : String → String)
    (existing : List KeyRow) (k : KeyEntry) : Handler (Option (String × String)) :=
  match existing.find? (·.keyId == k.keyId) with
  | none => do
    let foreign ← ask (Query.read fun db : Db => (db.keys.get? k.keyId).isSome)
    check (demand ⟨.forbidden, "key " ++ k.keyId ++ " already belongs to another principal"⟩
      (foreign = false))
    Program.write (insertKey internal (keyRow kind ownerId minted k))
    pure (mintedToken minted k)
  | some cur => do
    Program.onlyIf (cur.status = .active ∧ k.status = .revoked)
      (Program.write (revokeKey k.keyId))
    check (demand ⟨.forbidden, "key " ++ k.keyId
      ++ " was revoked and cannot be reactivated; add a new key instead"⟩
      (¬ (cur.status = .revoked ∧ k.status = .active)))
    Program.onlyIf (cur.role ≠ k.role) (Program.write (setKeyRole k.keyId k.role))
    pure none

/-- A key that is no longer listed counts as revoked. -/
def dropKey (listed : List String) (k : KeyRow) : Handler Unit :=
  Program.onlyIf (k.keyId ∉ listed ∧ k.status = .active) (Program.write (revokeKey k.keyId))

/-- Brings the key table in line with the keys of an identity's record. -/
def syncKeys (kind : PrincipalKind) (ownerId : String) (body : Json) (prev : Option Json)
    (p : Principal) (minted : String → String) : Handler (List (String × String)) := do
  let keys := keysOf body
  check (demand ⟨.forbidden, "an identity must retain at least one active root key; "
    ++ "add a replacement before revoking or demoting the last root"⟩ (hasActiveRoot keys))
  check (demand ⟨.forbidden, "only a root key may change keys[]"⟩
    (∀ before, prev.bind (·.member? "keys") = some before →
      Platform.stringify before = Platform.stringify (value body "keys") ∨ p.role = .root))
  let existing ← ask (Query.read fun db : Db =>
    db.keys.values.filter fun k => k.ownerKind == kind && k.ownerId == ownerId)
  let fresh ← Program.forEach (syncKey kind ownerId minted existing) keys
  let _ ← Program.forEach (dropKey (keys.map KeyEntry.keyId)) existing
  pure (fresh.filterMap id)

/-- The grant that a record of its type states. -/
def grantRow (env : Envelope) (grant : GrantBody) (expiresAt : Option ℤ) : GrantRow :=
  ⟨env.rootId, env.recordId, env.subjectCompanyId, grant.moduleId, grant.scopes, grant.status,
    expiresAt⟩

/-- When a grant expires; a text that is no time fails the statement. -/
def expiry (grant : GrantBody) : Checked (Option ℤ) :=
  match grant.expiresAt with
  | none => .ok none
  | some text => do
    let at_ ← require internal (Platform.instant text)
    pure (some at_)

def companyHook (ctx : Context) (p : Principal) (env : Envelope) (prev : Option RecordRow) :
    Handler (List (String × String)) := do
  check (demand ⟨.forbidden, "core.company may only be written by the company itself"⟩
    (env.subjectCompanyId = env.issuer.companyId ∧ env.issuer.moduleId = none))
  let minted ← syncKeys .company env.subjectCompanyId env.body (prev.map (·.body)) p ctx.minted
  Program.write (setCompanyHead env.subjectCompanyId env.recordId)
  pure minted

def moduleHook (ctx : Context) (p : Principal) (env : Envelope) (prev : Option RecordRow) :
    Handler (List (String × String)) := do
  let moduleId := (text? env.body "module_id").getD ""
  check (demand ⟨.schemaInvalid, "module_id cannot change"⟩
    (∀ r, prev = some r → r.body.member? "module_id" = some (.str moduleId)))
  let minted ← syncKeys .module moduleId env.body (prev.map (·.body)) p ctx.minted
  Program.write (setModuleHead moduleId env.recordId)
  pure minted

def grantHook (env : Envelope) (prev : Option RecordRow) : Handler Unit := do
  check (demand ⟨.forbidden, "core.grant must be issued by the granting company"⟩
    (env.subjectCompanyId = env.issuer.companyId))
  let grant ← check (require internal (readGrant env.body))
  let known ← ask (Query.read fun db : Db => (db.modules.get? grant.moduleId).isSome)
  check (demand ⟨.notFound, "module " ++ grant.moduleId ++ " is not registered"⟩ (known = true))
  check (demand ⟨.schemaInvalid, "a grant chain cannot change module_id"⟩
    (∀ r, prev = some r → r.body.member? "module_id" = some (.str grant.moduleId)))
  let expiresAt ← check (expiry grant)
  Program.write (upsertGrant (grantRow env grant expiresAt))

/-- What a record of a type changes beside the records. -/
def runHooks (ctx : Context) (p : Principal) (env : Envelope) (prev : Option RecordRow) :
    Handler (List (String × String)) :=
  if env.type = "core.company" then companyHook ctx p env prev
  else if env.type = "core.module" then moduleHook ctx p env prev
  else if env.type = "core.grant" then do
    grantHook env prev
    pure []
  else pure []

end

def sameSet (a b : List String) : Prop := a.length = b.length ∧ ∀ x ∈ b, x ∈ a

instance (a b : List String) : Decidable (sameSet a b) := inferInstanceAs (Decidable (_ ∧ _))

/-- An identity's first record is not written here, and the subject is whom the body names. -/
def checkRequest (env : Envelope) (info : TypeInfo) : Checked Unit := do
  demand ⟨.badRequest, "create a new " ++ env.type ++ " via POST /"
      ++ if env.type = "core.company" then "companies" else "modules"⟩
    (¬ (env.supersedes = none ∧ isIdentity env.type))
  demand ⟨.schemaInvalid, "body." ++ info.subject ++ " must equal subject_company_id for "
      ++ env.type⟩
    (info.subject ≠ "self" → env.body.member? info.subject = some (.str env.subjectCompanyId))

/-- The record to be superseded, which the caller must be able to read. -/
def target (p : Principal) (now : ℤ) (env : Envelope) :
    Reader (Option (RecordRow × Option String)) :=
  match env.supersedes with
  | none => pure none
  | some recordId => do
    let prev ← fetchRecordRow recordId
    let grants ← grantsFor p
    let row ← answer (require ⟨.notFound, "supersedes target not found"⟩ prev)
    answer (demand ⟨.notFound, "supersedes target not found"⟩
      (canRead row.1.visibilityInput (some p) grants now = true))
    pure (some row)

section
variable [Platform]

/-- An exact retry is acknowledged with what is stored. -/
def acknowledge (p : Principal) (now : ℤ) (env : Envelope)
    (existing : RecordRow × Option String) : Reader WriteResult := do
  let grants ← grantsFor p
  answer (demand ⟨.notFound, "record not found"⟩
    (canRead existing.1.visibilityInput (some p) grants now = true))
  answer (demand ⟨.duplicateRecordId, "record_id " ++ env.recordId
    ++ " already exists with a different payload"⟩
    (existing.1.payloadHash = Platform.payloadHash env))
  pure ⟨existing.1, existing.2, false, []⟩

end

/-- A chain keeps its type, its root, its parties and its visibility, and grows at its head. -/
def checkChain (env : Envelope) (prev : RecordRow × Option String) : Checked Unit := do
  demand ⟨.supersedesConflict, "record " ++ env.supersedes.getD "null"
    ++ " is already superseded by " ++ prev.2.getD "null"⟩ (prev.1.isHead = true)
  demand ⟨.supersedesConflict, "superseding record must have the same type"⟩
    (prev.1.type = env.type)
  demand ⟨.supersedesConflict, "superseding record must have the same subject"⟩
    (prev.1.subjectCompanyId = env.subjectCompanyId)
  demand ⟨.supersedesConflict, "root_id must be " ++ prev.1.rootId⟩ (prev.1.rootId = env.rootId)
  demand ⟨.supersedesConflict, "counterparty_ids cannot change across a supersede"⟩
    (sameSet prev.1.counterpartyIds env.counterpartyIds)
  demand ⟨.supersedesConflict, "visibility cannot change across a supersede"⟩
    (prev.1.visibility = env.visibility)

def checkChain? (env : Envelope) (prev : Option (RecordRow × Option String)) : Checked Unit :=
  match prev with
  | none => .ok ()
  | some prev => checkChain env prev

/-- Every company that the record names is registered. -/
def checkParties (env : Envelope) : Handler Unit := do
  let subject ← ask (companyExists env.subjectCompanyId)
  check (demand ⟨.notFound, "subject company " ++ env.subjectCompanyId ++ " is not registered"⟩
    (subject = true))
  let _ ← Program.forEach (fun c => do
    let known ← ask (companyExists c)
    check (demand ⟨.notFound, "counterparty " ++ c ++ " is not registered"⟩ (known = true)))
    env.counterpartyIds
  pure ()

def partyOf (env : Envelope) : PartyContext :=
  ⟨env.issuer.companyId, env.subjectCompanyId, env.counterpartyIds⟩

/-- Roles, continuity and the state machine, judged by the record that is superseded. -/
def judge (info : TypeInfo) (env : Envelope) (prev : Option Json) : Checked Unit := do
  checkRoleContinuity info prev env.body (partyOf env)
  checkTransition info prev env.body (rolesOf info (prev.getD env.body) (partyOf env))
  checkIntegrity env prev

section
variable [Platform]

def supersedeHead (prev : Option RecordRow) : Handler Unit :=
  match prev with
  | none => pure ()
  | some r => Program.write (supersede r.recordId)

/-- The record, its event and what depends on them. -/
def append (ctx : Context) (p : Principal) (info : TypeInfo) (env : Envelope)
    (prev : Option RecordRow) : Handler (List (String × String)) := do
  insertRecord internal env (statusFromBody info env.body)
  supersedeHead prev
  let _ ← insertEvent env (statusFromBody info env.body)
  runHooks ctx p env prev

def writeRecord (ctx : Context) (env : Envelope) : Handler WriteResult := do
  let info ← check (validateSignedEnvelope env)
  check (checkRequest env info)
  let p ← check (require ⟨.authRequired, "writes require a bearer token for the signing key"⟩
    ctx.principal)
  let prev ← ask (target p ctx.now env)
  let _ ← ask (authorizeWrite p ctx.now env info (prev.map Prod.fst))
  let existing ← ask (fetchRecordRow env.recordId)
  match existing with
  | some row => ask (acknowledge p ctx.now env row)
  | none => do
    check (checkChain? env prev)
    checkParties env
    check (judge info env (prev.map (·.1.body)))
    let keys ← append ctx p info env (prev.map Prod.fst)
    let row ← ask (fetchRecordRow env.recordId)
    let row ← check (require internal row)
    pure ⟨row.1, row.2, true, keys⟩

/-- The rows of the keys that a new identity lists. -/
def insertKeys (taken : StoreError) (kind : PrincipalKind) (ownerId : String)
    (minted : String → String) (keys : List KeyEntry) : Handler (List (String × String)) := do
  let fresh ← Program.forEach (fun k => do
    Program.write (insertKey taken (keyRow kind ownerId minted k))
    pure (mintedToken minted k)) keys
  pure (fresh.filterMap id)

def checkKeysFree (keys : List KeyEntry) : Handler Unit := do
  let _ ← Program.forEach (fun k : KeyEntry => do
    let known ← ask (Query.read fun db : Db => (db.keys.get? k.keyId).isSome)
    check (demand ⟨.forbidden, "key " ++ k.keyId ++ " already belongs to another principal"⟩
      (known = false))) keys
  pure ()

/-- An exact retry of an identity's first record. -/
def replay (ctx : Context) (env : Envelope) (existing : RecordRow) : Reader WriteResult := do
  answer (demand ⟨.duplicateRecordId, "record_id " ++ env.recordId
    ++ " already exists with a different payload"⟩
    (existing.payloadHash = Platform.payloadHash env))
  let row ← getRecord ctx env.recordId
  pure ⟨row.1, row.2, false, []⟩

def isActiveRoot (keys : List KeyEntry) (keyId : String) : Prop :=
  ∃ k, keys.find? (·.keyId == keyId) = some k ∧ k.role = .root ∧ k.status = .active

instance (keys : List KeyEntry) (keyId : String) : Decidable (isActiveRoot keys keyId) :=
  match h : keys.find? (·.keyId == keyId) with
  | none => isFalse fun ⟨_, hk, _⟩ => nomatch h.symm.trans hk
  | some k =>
    decidable_of_iff (k.role = .root ∧ k.status = .active)
      ⟨fun hk => ⟨k, h, hk⟩, fun ⟨_, hk, h'⟩ => Option.some.inj (h.symm.trans hk) ▸ h'⟩

def checkGenesis (info : TypeInfo) (env : Envelope) : Checked Unit :=
  checkTransition info none env.body (rolesOf info env.body (partyOf env))

/-- The first record of a company, signed by a key that it lists. -/
def createCompany (ctx : Context) (env : Envelope) : Handler WriteResult := do
  let info ← check (validateSignedEnvelope env)
  check (demand ⟨.badRequest, "POST /companies expects a core.company envelope"⟩
    (env.type = "core.company"))
  check (demand ⟨.badRequest,
    "genesis record must have supersedes null; use POST /records to update"⟩
    (env.supersedes = none))
  check (demand ⟨.forbidden, "a company genesis must be signed by the company itself "
    ++ "(issuer.company_id == subject, module_id null)"⟩
    (env.issuer.companyId = env.subjectCompanyId ∧ env.issuer.moduleId = none))
  check (demand ⟨.envelopeInvalid, "core.company has no counterparties"⟩
    (env.counterpartyIds = []))
  check (demand ⟨.forbidden, "genesis must be signed by an active root key listed in body.keys"⟩
    (isActiveRoot (keysOf env.body) env.issuer.keyId))
  let existing ← ask (fetchRecordRow env.recordId)
  match existing with
  | some row => ask (replay ctx env row.1)
  | none => do
    let known ← ask (companyExists env.subjectCompanyId)
    check (demand ⟨.duplicateRecordId, "company " ++ env.subjectCompanyId ++ " already exists"⟩
      (known = false))
    checkKeysFree (keysOf env.body)
    check (checkGenesis info env)
    let taken : StoreError :=
      ⟨.duplicateRecordId, "this company already exists (concurrent creation)"⟩
    Program.write (insertCompany taken ⟨env.subjectCompanyId, some env.recordId⟩)
    let keys ← insertKeys taken .company env.subjectCompanyId ctx.minted (keysOf env.body)
    insertRecord taken env (statusFromBody info env.body)
    let _ ← insertEvent env none
    let row ← ask (fetchRecordRow env.recordId)
    let row ← check (require internal row)
    pure ⟨row.1, row.2, true, keys⟩

/-- Who signed a module's first record: the module itself, or the caller for the publisher. -/
def checkModuleIssuer (p : Principal) (env : Envelope) (moduleId : String) : Checked Unit :=
  if env.issuer.moduleId = some moduleId then
    demand ⟨.forbidden,
      "self-certified module genesis must be signed by an active root key in body.keys"⟩
      (isActiveRoot (keysOf env.body) env.issuer.keyId)
  else if env.issuer.moduleId = none then
    demand ⟨.forbidden,
      "publisher-signed module genesis must be signed by the key the bearer token belongs to"⟩
      (p.keyId = env.issuer.keyId)
  else .error ⟨.envelopeInvalid,
    "issuer.module_id must be null (publisher-signed) or body.module_id (self-certified)"⟩

/-- The first record of a module, with the consent of its publisher. -/
def createModule (ctx : Context) (env : Envelope) : Handler WriteResult := do
  let info ← check (validateSignedEnvelope env)
  check (demand ⟨.badRequest, "POST /modules expects a core.module envelope"⟩
    (env.type = "core.module"))
  check (demand ⟨.badRequest,
    "genesis record must have supersedes null; use POST /records to update"⟩
    (env.supersedes = none))
  let moduleId := (text? env.body "module_id").getD ""
  check (demand ⟨.envelopeInvalid,
    "subject_company_id and issuer.company_id must equal body.publisher_company_id"⟩
    (env.body.member? "publisher_company_id" = some (.str env.subjectCompanyId) ∧
      env.issuer.companyId = env.subjectCompanyId))
  let publisher ← ask (companyExists env.subjectCompanyId)
  check (demand ⟨.notFound, "publisher company " ++ env.subjectCompanyId
    ++ " is not registered"⟩ (publisher = true))
  let notPublisher : StoreError := ⟨.forbidden,
    "module genesis requires a bearer token for a root key of the publisher company"⟩
  let p ← check (require notPublisher ctx.principal)
  check (demand notPublisher
    (p.kind = .company ∧ p.id = env.subjectCompanyId ∧ p.role = .root))
  let existing ← ask (fetchRecordRow env.recordId)
  match existing with
  | some row => ask (replay ctx env row.1)
  | none => do
    let known ← ask (Query.read fun db : Db => (db.modules.get? moduleId).isSome)
    check (demand ⟨.duplicateRecordId, "module " ++ moduleId ++ " already exists"⟩
      (known = false))
    check (checkModuleIssuer p env moduleId)
    checkKeysFree (keysOf env.body)
    check (checkGenesis info env)
    let taken : StoreError :=
      ⟨.duplicateRecordId, "this module already exists (concurrent creation)"⟩
    Program.write (insertModule taken ⟨moduleId, env.subjectCompanyId, some env.recordId⟩)
    let keys ← insertKeys taken .module moduleId ctx.minted (keysOf env.body)
    insertRecord taken env (statusFromBody info env.body)
    let _ ← insertEvent env none
    let row ← ask (fetchRecordRow env.recordId)
    let row ← check (require internal row)
    pure ⟨row.1, row.2, true, keys⟩

inductive Route where
  | companies
  | modules
  | records
  deriving DecidableEq

/-- One request in its transaction: the caller is resolved behind the lock. -/
def atomicWrite (route : Route) (req : Request) : Handler WriteResult := do
  let principal ← ask (resolvePrincipal req.token)
  let ctx : Context := ⟨principal, req.now, req.minted⟩
  match route with
  | .companies => createCompany ctx req.input
  | .modules => createModule ctx req.input
  | .records => writeRecord ctx req.input

end

end DirectTrade.Store
