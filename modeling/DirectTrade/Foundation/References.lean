import DirectTrade.Foundation.Datatypes

/-!
References read from values that nothing is known of. A value from outside is first copied:
what cannot be copied as bounded plain data is refused.
-/

namespace DirectTrade.Foundation.Semantics

open Library Outcome

inductive SemanticCode where
  | invalidSemantics
  | unsupportedSemantics
  | handlerFailed
  deriving DecidableEq

/-- What is thrown: by the semantics, by the reading of a reference, or by canonicalization. -/
inductive Thrown where
  | semantic (reason : String) (code : SemanticCode)
  | datatype (path reason : String)
  | canonicalization (reason : String)
  deriving DecidableEq

abbrev Read (α : Type) := Except Thrown α

def invalid (reason : String) : Thrown := .semantic reason .invalidSemantics

/-- What a copy can see of a value from outside: `other` is whatever is not plain data, such as a
function, a getter, a hole, a fraction or a container of another prototype. -/
inductive Hostile where
  | null
  | bool (value : Bool)
  | num (value : ℤ)
  | str (value : String)
  | arr (items : List Hostile)
  | obj (fields : List (String × Hostile))
  | other

/-- What a copy has taken so far. -/
structure Tally where
  nodes : ℕ
  bytes : ℕ

def maxSemanticBytes : ℕ := 256 * 1024

def Tally.add (t : Tally) (bytes : ℕ) : Tally := { t with bytes := t.bytes + bytes }

def Tally.enter (t : Tally) (depth : ℕ) : Read Tally := do
  demand (invalid "JSON complexity limit exceeded") (t.nodes + 1 ≤ 8192 ∧ depth ≤ 16)
  pure { t with nodes := t.nodes + 1 }

def countString (t : Tally) (s : String) : Read Tally := do
  demand (invalid "JSON string limit exceeded") (textLength s ≤ 65536)
  demand (invalid "aggregate JSON byte limit exceeded")
    (t.bytes + Json.textBytes s ≤ maxSemanticBytes)
  pure (t.add (Json.textBytes s))

mutual

def visit (depth : ℕ) (t : Tally) : Hostile → Read (Json × Tally)
  | .null => do
    let t ← t.enter depth
    pure (.null, t.add 5)
  | .bool b => do
    let t ← t.enter depth
    pure (.bool b, t.add 5)
  | .num n => do
    let t ← t.enter depth
    demand (invalid "JSON numbers must be safe integers") ((n.natAbs : ℤ) ≤ maxSafeInteger)
    pure (.num n, t.add 24)
  | .str s => do
    let t ← t.enter depth
    let t ← countString t s
    pure (.str s, t)
  | .arr items => do
    let t ← t.enter depth
    demand (invalid "bounded dense JSON array required") (items.length ≤ 256)
    let (out, t) ← visitItems (depth + 1) (t.add (items.length + 2)) items
    pure (.arr out, t)
  | .obj fields => do
    let t ← t.enter depth
    demand (invalid "JSON object field limit exceeded") (fields.length ≤ 128)
    let (out, t) ← visitFields (depth + 1) (t.add (fields.length * 2 + 2)) fields
    pure (.obj out, t)
  | .other => do
    let _ ← t.enter depth
    throw (invalid "plain JSON data required")

def visitItems (depth : ℕ) (t : Tally) : List Hostile → Read (List Json × Tally)
  | [] => pure ([], t)
  | item :: rest => do
    let (copy, t) ← visit depth t item
    let (copies, t) ← visitItems depth t rest
    pure (copy :: copies, t)

def visitFields (depth : ℕ) (t : Tally) :
    List (String × Hostile) → Read (List (String × Json) × Tally)
  | [] => pure ([], t)
  | (key, value) :: rest => do
    demand (invalid "unsafe JSON field") (key ∉ ["__proto__", "prototype", "constructor"])
    let t ← countString t key
    let (copy, t) ← visit depth t value
    let (copies, t) ← visitFields depth t rest
    pure ((key, copy) :: copies, t)

end

/-- A name that is written without escapes. -/
def isPlainName (s : String) : Bool :=
  s.toList.all fun c => c.toNat ≠ 34 ∧ c.toNat ≠ 92 ∧ 32 ≤ c.toNat

/-- Every member is named so that it can be signed. -/
def plainNames : Json → Bool :=
  Json.fold (fun _ => true) (fun items => items.all id) fun members =>
    members.all fun m => isPlainName m.1 && m.2

def boundedCopy (value : Hostile) : Read Json := do
  let (copy, _) ← visit 0 ⟨0, 0⟩ value
  demand (.canonicalization ("member name contains a quotation mark, a reverse solidus or a " ++
    "control character, which DTP refuses")) (plainNames copy = true)
  demand (invalid "aggregate JSON byte limit exceeded") (copy.bytes ≤ maxSemanticBytes)
  pure copy

abbrev JsonObject := List (String × Json)

def JsonObject.get (o : JsonObject) (key : String) : Json :=
  ((o.find? fun m => m.1 = key).map Prod.snd).getD .null

def object (value : Json) : Read JsonObject :=
  match value with
  | .obj members => pure members
  | _ => throw (invalid "object required")

def exactly (value : Json) (keys : List String) : Read JsonObject := do
  let o ← object value
  demand (invalid "exact declared fields required")
    (o.length = keys.length ∧ ∀ k ∈ keys, k ∈ o.map Prod.fst)
  pure o

def array (value : Json) (max : ℕ) : Read (List Json) :=
  match value with
  | .arr items => do
    demand (invalid "bounded array required") (items.length ≤ max)
    pure items
  | _ => throw (invalid "bounded array required")

/-- The number that hexadecimal text spells; other characters only group it. -/
def spelled (s : String) : ℕ :=
  s.toList.foldl (fun n c =>
    if isHexDigit c then 16 * n + "0123456789abcdef".toList.idxOf c else n) 0

def isHashText (s : String) : Bool := s.toList.length == 64 && s.toList.all isHexDigit

def hash (value : Json) : Read Digest :=
  match value with
  | .str s => do
    demand (invalid "SHA-256 digest required") (isHashText s = true)
    pure (spelled s)
  | _ => throw (invalid "SHA-256 digest required")

def uuid (value : Json) : Read Uuid :=
  match value with
  | .str s => do
    demand (invalid "lowercase UUID required") (isUuidText s = true)
    pure (spelled s)
  | _ => throw (invalid "lowercase UUID required")

def name (value : Json) : Read String :=
  match value with
  | .str s => do
    demand (invalid "bounded operation name required") (textLength s ≤ 96 ∧ isNamespaced s = true)
    pure s
  | _ => throw (invalid "bounded operation name required")

/-- At most 32, and at least one unless zero is allowed. -/
def count (value : Json) (zero : Bool) : Read ℕ :=
  match value with
  | .num n => do
    demand (invalid "descriptor count out of bounds") ((if zero then 0 else 1) ≤ n ∧ n ≤ 32)
    pure n.toNat
  | _ => throw (invalid "descriptor count out of bounds")

def unique {α κ : Type} [DecidableEq κ] (values : List α) (key : α → κ) (reason : String) :
    Read (List α) := do
  demand (invalid reason) (values.map key).Nodup
  pure values

mutual

/-- Values of one canonical text: objects may enumerate their members in different orders. -/
def same : Json → Json → Bool
  | .null, .null => true
  | .bool a, .bool b => a == b
  | .num a, .num b => a == b
  | .str a, .str b => a == b
  | .arr a, .arr b => sameItems a b
  | .obj a, .obj b => a.length == b.length && sameMembers a b
  | _, _ => false

def sameItems : List Json → List Json → Bool
  | [], [] => true
  | a :: as, b :: bs => same a b && sameItems as bs
  | _, _ => false

def sameMembers : List (String × Json) → List (String × Json) → Bool
  | [], _ => true
  | (key, a) :: rest, members =>
    (match members.find? fun m => m.1 = key with
      | some m => same a m.2
      | none => false) && sameMembers rest members

end

def requireValue (condition : Prop) [Decidable condition] (path reason : String) : Read Unit :=
  demand (.datatype path reason) condition

def fields (value : Json) (keys : List String) (path : String) : Read JsonObject :=
  match value with
  | .obj members => do
    requireValue (members.length = keys.length ∧ ∀ m ∈ members, m.1 ∈ keys) path
      "exact declared fields required"
    pure members
  | _ => throw (.datatype path "plain object required")

def entityKinds : List EntityKind := [.person, .organization, .service, .resource, .record]

def choice (value : Json) (path : String) : Read EntityKind :=
  match value with
  | .str s => require (.datatype path "unsupported value") (entityKinds.find? fun k => k.text = s)
  | _ => throw (.datatype path "unsupported value")

/-- An identifier of a reference. -/
def uuidAt (value : Json) (path : String) : Read Uuid :=
  match value with
  | .str s => do
    requireValue (isUuidText s = true) path "lowercase UUID required"
    pure (spelled s)
  | _ => throw (.datatype path "lowercase UUID required")

def isNull : Json → Bool
  | .null => true
  | _ => false

def entity (value : Json) (path : String) : Read EntityReference := do
  let o ← fields value ["kind", "id", "organization_id"] path
  let kind ← choice (o.get "kind") (path ++ ".kind")
  if hglobal : kind.isGlobal = true then do
    requireValue (isNull (o.get "organization_id") = true) (path ++ ".organization_id")
      "global identity requires null scope"
    let id ← uuidAt (o.get "id") (path ++ ".id")
    pure ⟨kind, id, none, by simp [hglobal]⟩
  else do
    let id ← uuidAt (o.get "id") (path ++ ".id")
    let organizationId ← uuidAt (o.get "organization_id") (path ++ ".organization_id")
    pure ⟨kind, id, some organizationId, by simp [hglobal]⟩

def parseEntityReference (value : Json) : Read EntityReference := entity value "$"

def parseRevisionReference (value : Json) : Read RevisionReference := do
  let o ← fields value ["entity", "revision_id", "digest"] "$"
  match o.get "digest" with
  | .str s => do
    requireValue (isHashText s = true) "$.digest" "SHA-256 hex digest required"
    let entity ← entity (o.get "entity") "$.entity"
    let revisionId ← uuidAt (o.get "revision_id") "$.revision_id"
    pure { entity, revisionId, digest := spelled s }
  | _ => throw (.datatype "$.digest" "SHA-256 hex digest required")

/-- A revision, or none where the value is null. -/
def parseRevision? (value : Json) : Read (Option RevisionReference) :=
  if isNull value then pure none else some <$> parseRevisionReference value

def isDigits (chars : List Char) : Bool := chars.all isDigitChar

/-- The number that decimal digits spell. -/
def decimal (chars : List Char) : ℕ := chars.foldl (fun n c => 10 * n + (c.toNat - 48)) 0

def isCalendarDate (year month day : ℕ) : Bool :=
  let leap := year % 4 = 0 ∧ (year % 100 ≠ 0 ∨ year % 400 = 0)
  let days := [31, if leap then 29 else 28, 31, 30, 31, 30, 31, 31, 30, 31, 30, 31]
  1 ≤ month ∧ month ≤ 12 ∧ 1 ≤ day ∧ day ≤ days.getD (month - 1) 0

/-- `width` characters of a text, from a position on. -/
def part (s : String) (start width : ℕ) : List Char := (s.toList.drop start).take width

/-- `YYYY-MM-DDTHH:MM:SS.mmmZ`. -/
def isInstantText (s : String) : Bool :=
  s.toList.length = 24 ∧ part s 4 1 = ['-'] ∧ part s 7 1 = ['-'] ∧ part s 10 1 = ['T'] ∧
    part s 13 1 = [':'] ∧ part s 16 1 = [':'] ∧ part s 19 1 = ['.'] ∧ part s 23 1 = ['Z'] ∧
    isDigits (part s 0 4 ++ part s 5 2 ++ part s 8 2 ++ part s 11 2 ++ part s 14 2 ++
      part s 17 2 ++ part s 20 3)

def parseInstant (value : Json) : Read String :=
  match value with
  | .str s => do
    requireValue (isInstantText s = true) "$" "UTC millisecond instant required"
    requireValue (decimal (part s 0 4) ≠ 0) "$" "YYYY-MM-DD date required"
    requireValue (isCalendarDate (decimal (part s 0 4)) (decimal (part s 5 2))
      (decimal (part s 8 2)) = true) "$" "invalid calendar date"
    requireValue (decimal (part s 11 2) < 24 ∧ decimal (part s 14 2) < 60 ∧
      decimal (part s 17 2) < 60) "$" "invalid UTC instant"
    pure s
  | _ => throw (.datatype "$" "UTC millisecond instant required")

end DirectTrade.Foundation.Semantics
