import DirectTrade.Foundation.IdentityData

/-!
The bounded vocabulary of the foundation: entities, the exact revisions of entities, and
identifiers that an issuer names.
-/

namespace DirectTrade.Foundation

open Library Outcome

inductive EntityKind where
  | person
  | organization
  | service
  | resource
  | record
  deriving DecidableEq

def EntityKind.text : EntityKind → String
  | .person => "person"
  | .organization => "organization"
  | .service => "service"
  | .resource => "resource"
  | .record => "record"

/-- People and organizations are identified everywhere; the rest within an organization. -/
def EntityKind.isGlobal : EntityKind → Bool
  | .person | .organization => true
  | .service | .resource | .record => false

structure EntityReference where
  kind : EntityKind
  id : Uuid
  organizationId : Option Uuid
  unscoped : organizationId.isNone = kind.isGlobal
  deriving DecidableEq

def EntityReference.person (id : Uuid) : EntityReference := ⟨.person, id, none, rfl⟩

def EntityReference.organization (id : Uuid) : EntityReference := ⟨.organization, id, none, rfl⟩

structure RevisionReference where
  entity : EntityReference
  revisionId : Uuid
  digest : Digest
  deriving DecidableEq

structure ExternalIdentifier where
  issuer : EntityReference
  type : String
  value : String
  deriving DecidableEq

/-- The people who control an organization, and how many of them it takes. -/
structure Governance where
  organizationId : Uuid
  controllers : List EntityReference
  threshold : ℕ
  deriving DecidableEq

/-- The length of a string in UTF-16 units. -/
def textLength (s : String) : ℕ := (s.toList.map fun c => if c.toNat > 65535 then 2 else 1).sum

/-- What `trim` removes. -/
def isSpace (c : Char) : Bool :=
  [9, 10, 11, 12, 13, 32, 160, 5760, 8232, 8233, 8239, 8287, 12288, 65279].contains c.toNat ||
    (8192 ≤ c.toNat && c.toNat ≤ 8202)

def isControl (c : Char) : Bool := c.toNat < 32 || (127 ≤ c.toNat && c.toNat ≤ 159)

def isLower (c : Char) : Bool := 'a' ≤ c && c ≤ 'z'

def isDigitChar (c : Char) : Bool := '0' ≤ c && c ≤ '9'

def text (value : String) (max : ℕ) (path : String) : Checked Unit :=
  demand ("bounded nonempty text required at " ++ path)
    (0 < textLength value ∧ textLength value ≤ max ∧
      (value.toList.head?.all fun c => !isSpace c) = true ∧
      (value.toList.getLast?.all fun c => !isSpace c) = true ∧
      (value.toList.all fun c => !isControl c) = true)

/-- What may follow the first letter of a name, after a separator or not. -/
def isNameTail : Bool → List Char → Bool
  | separated, [] => !separated
  | separated, c :: rest =>
    if isLower c || isDigitChar c then isNameTail false rest
    else ['.', '_', '-'].contains c && !separated && isNameTail true rest

/-- Words of lower-case letters and digits between single separators. -/
def isNamespaced (s : String) : Bool :=
  match s.toList with
  | [] => false
  | c :: rest => isLower c && isNameTail false rest

def parseExternalIdentifier (v : ExternalIdentifier) : Checked Unit := do
  text v.type 96 "$.type"
  demand "namespaced identifier type required at $.type" (isNamespaced v.type = true)
  demand "issuer must be a person, organization or service at $.issuer"
    (v.issuer.kind ∈ [.person, .organization, .service])
  text v.value 512 "$.value"

def EntityReference.json (v : EntityReference) : Json :=
  .obj [("kind", .str v.kind.text), ("id", uuidJson v.id),
    ("organization_id", optionJson uuidJson v.organizationId)]

def RevisionReference.json (v : RevisionReference) : Json :=
  .obj [("entity", v.entity.json), ("revision_id", uuidJson v.revisionId),
    ("digest", digestJson v.digest)]

def ExternalIdentifier.json (v : ExternalIdentifier) : Json :=
  .obj [("issuer", v.issuer.json), ("type", .str v.type), ("value", .str v.value)]

def Governance.json (g : Governance) : Json :=
  .obj [("organization_id", uuidJson g.organizationId),
    ("controllers", .arr (g.controllers.map EntityReference.json)), ("threshold", .num g.threshold)]

end DirectTrade.Foundation
