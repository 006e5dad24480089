import DirectTrade.Json
import DirectTrade.Library.Dict

/-!
The tables of the protocol store: identities and their keys, signed records in chains, grants to
modules, and one event for each record that was accepted.
-/

namespace DirectTrade.Store

open Library

inductive Visibility where
  | publicly
  | counterparties
  | granted
  | privately
  deriving DecidableEq

inductive PrincipalKind where
  | company
  | module
  deriving DecidableEq

inductive Role where
  | root
  | delegate
  deriving DecidableEq

inductive Status where
  | active
  | revoked
  deriving DecidableEq

structure Issuer where
  keyId : String
  companyId : String
  moduleId : Option String
  deriving DecidableEq

structure Envelope where
  recordId : String
  rootId : String
  type : String
  nameSpace : String
  schemaVersion : String
  subjectCompanyId : String
  counterpartyIds : List String
  issuer : Issuer
  visibility : Visibility
  createdAt : ℤ
  supersedes : Option String
  body : Json
  signature : String
  deriving DecidableEq

/-- The part of a type before its first dot. -/
def namespaceOf (type : String) : String := String.ofList (type.toList.takeWhile (· ≠ '.'))

structure CompanyRow where
  id : String
  headRecordId : Option String
  deriving DecidableEq

structure ModuleRow where
  id : String
  publisherCompanyId : String
  headRecordId : Option String
  deriving DecidableEq

structure KeyRow where
  keyId : String
  ownerKind : PrincipalKind
  ownerId : String
  role : Role
  status : Status
  tokenHash : Option String
  deriving DecidableEq

/-- A record with the envelope that its columns repeat. -/
structure RecordRow extends Envelope where
  isHead : Bool
  status : Option String
  payloadHash : Digest
  seq : Option ℕ
  deriving DecidableEq

structure Scope where
  nameSpace : Option String
  type : Option String
  access : String
  deriving DecidableEq

structure GrantRow where
  grantRootId : String
  grantRecordId : String
  grantorCompanyId : String
  granteeModuleId : String
  scopes : List Scope
  status : Status
  expiresAt : Option ℤ
  deriving DecidableEq

structure EventRow where
  seq : ℕ
  recordId : String
  rootId : String
  type : String
  nameSpace : String
  subjectCompanyId : String
  counterpartyIds : List String
  issuer : Issuer
  visibility : Visibility
  supersedes : Option String
  status : Option String
  deriving DecidableEq

/-- Each table but the last by its primary key; events in the order they were inserted in. -/
structure Db where
  companies : Dict String CompanyRow
  modules : Dict String ModuleRow
  keys : Dict String KeyRow
  records : Dict String RecordRow
  grants : Dict String GrantRow
  events : List EventRow
  deriving DecidableEq

/-- The tables before the first request. -/
def Db.empty : Db := ⟨∅, ∅, ∅, ∅, ∅, []⟩

/-- A caller that a bearer token identifies. -/
structure Principal where
  kind : PrincipalKind
  id : String
  keyId : String
  role : Role
  deriving DecidableEq

end DirectTrade.Store
