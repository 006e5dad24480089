import DirectTrade.Store.Validation

/-!
The statements that write to the tables, with the constraints under which they fail.
-/

namespace DirectTrade.Store

open Library Library.Outcome

def internal : StoreError := ⟨.internal, "internal error"⟩

/-- Inserts fail with `taken` where a unique value is there already. -/
def insertCompany (taken : StoreError) (row : CompanyRow) (db : Db) : Checked Db := do
  demand taken (db.companies.get? row.id = none)
  pure { db with companies := db.companies.set row.id row }

def insertModule (taken : StoreError) (row : ModuleRow) (db : Db) : Checked Db := do
  demand taken (db.modules.get? row.id = none)
  demand internal ((db.companies.get? row.publisherCompanyId).isSome = true)
  pure { db with modules := db.modules.set row.id row }

def insertKey (taken : StoreError) (row : KeyRow) (db : Db) : Checked Db := do
  demand taken (db.keys.get? row.keyId = none)
  demand taken (row.tokenHash = none ∨ ∀ k ∈ db.keys.values, k.tokenHash ≠ row.tokenHash)
  pure { db with keys := db.keys.set row.keyId row }

def KeyRow.revoked (k : KeyRow) : KeyRow := { k with status := .revoked }

def revokeKey (keyId : String) (db : Db) : Checked Db :=
  pure { db with keys := db.keys.modify keyId KeyRow.revoked }

def setKeyRole (keyId : String) (role : Role) (db : Db) : Checked Db :=
  pure { db with keys := db.keys.modify keyId fun k => { k with role := role } }

def setCompanyHead (id recordId : String) (db : Db) : Checked Db :=
  pure { db with companies :=
    db.companies.modify id fun c => { c with headRecordId := some recordId } }

def setModuleHead (id recordId : String) (db : Db) : Checked Db :=
  pure { db with modules :=
    db.modules.modify id fun c => { c with headRecordId := some recordId } }

def recordRow (env : Envelope) (status : Option String) (payloadHash : Digest) : RecordRow :=
  { env with isHead := true, status := status, payloadHash := payloadHash, seq := none }

def insertRecordRow (taken : StoreError) (row : RecordRow) (db : Db) : Checked Db := do
  demand taken (db.records.get? row.recordId = none)
  demand internal ((db.companies.get? row.subjectCompanyId).isSome = true)
  demand internal ((db.keys.get? row.issuer.keyId).isSome = true)
  demand internal (∀ id, row.supersedes = some id → (db.records.get? id).isSome = true)
  demand taken (row.supersedes = none ∨
    ∀ r ∈ db.records.values, r.supersedes ≠ row.supersedes)
  pure { db with records := db.records.set row.recordId row }

def RecordRow.superseded (r : RecordRow) : RecordRow := { r with isHead := false }

def supersede (recordId : String) (db : Db) : Checked Db :=
  pure { db with records := db.records.modify recordId RecordRow.superseded }

def RecordRow.numbered (seq : ℕ) (r : RecordRow) : RecordRow := { r with seq := some seq }

def eventRow (env : Envelope) (status : Option String) (seq : ℕ) : EventRow :=
  ⟨seq, env.recordId, env.rootId, env.type, env.nameSpace, env.subjectCompanyId,
    env.counterpartyIds, env.issuer, env.visibility, env.supersedes, status⟩

def insertEventRow (row : EventRow) (db : Db) : Checked Db := do
  demand internal (∀ e ∈ db.events, e.seq ≠ row.seq)
  demand internal ((db.records.get? row.recordId).isSome = true)
  pure { db with events := db.events ++ [row] }

/-- The number of a record is written once. -/
def setSeq (recordId : String) (seq : ℕ) (db : Db) : Checked Db := do
  demand internal (∀ r, db.records.get? recordId = some r → r.seq = none ∨ r.seq = some seq)
  pure { db with records := db.records.modify recordId (RecordRow.numbered seq) }

/-- New values in the row of a chain; its parties stay. -/
def GrantRow.update (old row : GrantRow) : GrantRow :=
  { row with grantorCompanyId := old.grantorCompanyId, granteeModuleId := old.granteeModuleId }

def upsertGrant (row : GrantRow) (db : Db) : Checked Db := do
  demand internal ((db.records.get? row.grantRecordId).isSome = true)
  demand internal ((db.companies.get? row.grantorCompanyId).isSome = true)
  demand internal ((db.modules.get? row.granteeModuleId).isSome = true)
  let written := match db.grants.get? row.grantRootId with
    | none => row
    | some old => old.update row
  pure { db with grants := db.grants.set row.grantRootId written }

end DirectTrade.Store
