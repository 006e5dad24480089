import DirectTrade.Foundation.Datatypes

/-!
The vocabulary that facts share: texts and identifiers, instants, digests, references to
objects and the header of an act, with the issues that a header is reported for.
-/

namespace DirectTrade.Flow

open Library Outcome
open Foundation (textLength isSpace isLower isDigitChar optionJson)

def maxSafeInteger : ℕ := 9007199254740991

/-- A digest. There is one for every canonical value, so that a hash can be free of collisions. -/
structure Digest where
  canonical : Json
  deriving DecidableEq

/-- SHA-256 over canonical text, which the facts take to be free of collisions, and how a
digest is written where a message names it. -/
class FactHash where
  sha256 : Json → Digest
  hex : Digest → String
  collisionFree : Function.Injective sha256

def digestOf [FactHash] (v : Json) : Digest := FactHash.sha256 v

@[reducible] def sampleHash : FactHash where
  sha256 := Digest.mk
  hex _ := ""
  collisionFree _ _ h := Digest.mk.inj h

/-- A digest as a member of another value. -/
def Digest.json (d : Digest) : Json := .arr [d.canonical]

/-- A trimmed text of bounded length without control characters. -/
def text (v : String) (max : ℕ) : Bool :=
  0 < textLength v && textLength v ≤ max &&
    (v.toList.head?.all fun c => !isSpace c) && (v.toList.getLast?.all fun c => !isSpace c) &&
    v.toList.all fun c => !(c.toNat < 32 || c.toNat = 127)

/-- A text that can be the name of a member. -/
def ident (v : String) (max : ℕ) : Bool := text v max && v.toList.all fun c => c ≠ '"' && c ≠ '\\'

/-- The members every object has without its own. -/
def inheritedMembers : List String :=
  ["constructor", "__defineGetter__", "__defineSetter__", "hasOwnProperty", "__lookupGetter__",
    "__lookupSetter__", "isPrototypeOf", "propertyIsEnumerable", "toString", "valueOf",
    "__proto__", "toLocaleString"]

def isUcum (v : String) : Bool :=
  1 ≤ v.toList.length && v.toList.length ≤ 32 && v.toList.all fun c => '!' ≤ c && c ≤ '~'

def isCurrency (v : String) : Bool :=
  3 ≤ v.toList.length && v.toList.length ≤ 8 && v.toList.all fun c => 'A' ≤ c && c ≤ 'Z'

/-- 64 lower-case hexadecimal digits. -/
def isSha256 (v : String) : Bool := v.toList.length == 64 && v.toList.all isHexDigit

/-- Whether a text has a digit wherever the pattern has one and else its character. -/
def hasShape (pattern : String) (v : List Char) : Bool :=
  v.length == pattern.toList.length &&
    (pattern.toList.zip v).all fun (p, c) => if p = '0' then isDigitChar c else p == c

def numberAt (v : List Char) (start width : ℕ) : ℕ :=
  Nat.ofDigitChars 10 ((v.drop start).take width) 0

def daysOfMonth (year month : ℕ) : ℕ :=
  let leap := year % 4 = 0 ∧ (year % 100 ≠ 0 ∨ year % 400 = 0)
  [31, if leap then 29 else 28, 31, 30, 31, 30, 31, 31, 30, 31, 30, 31].getD (month - 1) 0

/-- A day of the calendar, read from the first ten characters. -/
def isCalendarDay (v : List Char) : Bool :=
  let month := numberAt v 5 2
  let day := numberAt v 8 2
  1 ≤ month && month ≤ 12 && 1 ≤ day && day ≤ daysOfMonth (numberAt v 0 4) month

def isTimeOfDay (v : List Char) : Bool :=
  numberAt v 11 2 ≤ 23 && numberAt v 14 2 ≤ 59 && numberAt v 17 2 ≤ 59

/-- The end of the day, which is written as the start of the next one. -/
def isMidnight (v : List Char) : Bool :=
  numberAt v 11 2 = 24 && numberAt v 14 2 = 0 && numberAt v 17 2 = 0 && numberAt v 20 3 = 0

/-- A UTC millisecond instant; other times of a day are no dates at all. -/
def isInstant (v : String) : Except String Bool :=
  let chars := v.toList
  if hasShape "0000-00-00T00:00:00.000Z" chars = false ∨ numberAt chars 0 4 = 0 ∨
      isCalendarDay chars = false then
    .ok false
  else if isTimeOfDay chars = true then .ok true
  else if isMidnight chars = true then .ok false
  else .error "Invalid time value"

/-- A reference to an object: who minted it (nobody for the writer's own), its root, and
perhaps an exact revision. -/
structure ObjectRef where
  mintedBy : Option String
  root : String
  recordId : Option String
  deriving DecidableEq

def ObjectRef.json (r : ObjectRef) : Json :=
  .obj [("minted_by", optionJson Json.str r.mintedBy), ("root", .str r.root),
    ("record_id", optionJson Json.str r.recordId)]

structure ActIssue where
  path : String
  message : String
  deriving DecidableEq

def validateObjectRef (ref : ObjectRef) (path : String) : List ActIssue :=
  (if ref.mintedBy.all isUuidText then []
    else [⟨path ++ ".minted_by", "organization id or null required"⟩]) ++
  (if isUuidText ref.root then [] else [⟨path ++ ".root", "object root required"⟩]) ++
  (if ref.recordId.all isUuidText then []
    else [⟨path ++ ".record_id", "exact revision id or null required"⟩])

def indexed (path : String) (i : ℕ) : String := path ++ "[" ++ toString i ++ "]"

def maxActLinks : ℕ := 16

/-- The same reference twice in one list says nothing more. -/
def validateRefList (list : List ObjectRef) (path : String) (max : ℕ) : List ActIssue :=
  if max < list.length then [⟨path, "at most " ++ toString max ++ " references"⟩]
  else
    list.zipIdx.flatMap fun (ref, i) =>
      let own := validateObjectRef ref (indexed path i)
      own ++ if own = [] ∧ ref ∈ list.take i then [⟨indexed path i, "duplicate reference"⟩] else []

inductive ActVerb where
  | move
  | transform
  | transfer
  | assign
  | observe
  | value
  deriving DecidableEq

inductive ActBasis where
  | asserted
  | measured
  | inferred
  deriving DecidableEq

structure EvidenceDocument where
  digest : String
  mediaType : String
  description : Option String
  deriving DecidableEq

structure EvidenceItem where
  ref : Option ObjectRef
  document : Option EvidenceDocument
  deriving DecidableEq

structure Observation where
  sourceId : String
  sequence : ℕ
  deriving DecidableEq

structure Act where
  verb : ActVerb
  occurredAt : String
  observation : Observation
  basis : ActBasis
  references : List ObjectRef
  evidence : List EvidenceItem
  deriving DecidableEq

def isMediaChar (c : Char) : Bool :=
  isLower c || isDigitChar c || "!#$&^_.+-".toList.contains c

def isMediaPart : List Char → Bool
  | [] => false
  | c :: rest => (isLower c || isDigitChar c) && rest.length ≤ 62 && rest.all isMediaChar

/-- A lower-case type and subtype. -/
def isMediaType (v : String) : Bool :=
  match v.toList.dropWhile (· ≠ '/') with
  | [] => false
  | _ :: subtype => isMediaPart (v.toList.takeWhile (· ≠ '/')) && isMediaPart subtype

def validateDocument (d : EvidenceDocument) (path : String) : List ActIssue :=
  (if isSha256 d.digest then [] else [⟨path ++ ".digest", "lower-case hex SHA-256 required"⟩]) ++
  (if isMediaType d.mediaType then []
    else [⟨path ++ ".media_type", "lower-case type/subtype required"⟩]) ++
  (if d.description.all fun v => text v 200 then []
    else [⟨path ++ ".description", "bounded description or null required"⟩])

/-- A reference that is itself wrong is not compared with the evidence before it. -/
def validateEvidence (evidence : List EvidenceItem) (path : String) : List ActIssue :=
  if maxActLinks < evidence.length then
    [⟨path, "at most " ++ toString maxActLinks ++ " evidence items"⟩]
  else
    evidence.zipIdx.flatMap fun (e, i) =>
      let place := indexed path i
      let again := if e ∈ evidence.take i then [⟨place, "duplicate evidence"⟩] else []
      match e.ref, e.document with
      | some ref, none =>
        let own := validateObjectRef ref (place ++ ".ref")
        if own = [] then again else own
      | none, some document => validateDocument document (place ++ ".document") ++ again
      | _, _ => [⟨place, "exactly one of ref and document"⟩]

def validateAct (a : Act) (path : String) : Except String (List ActIssue) := do
  let instant ← isInstant a.occurredAt
  pure ((if instant then [] else [⟨path ++ ".occurred_at", "UTC millisecond instant required"⟩]) ++
    (if text a.observation.sourceId 200 = true ∧ 1 ≤ a.observation.sequence ∧
        a.observation.sequence ≤ maxSafeInteger then []
      else [⟨path ++ ".observation", "source id and positive sequence required"⟩]) ++
    validateRefList a.references (path ++ ".references") maxActLinks ++
    validateEvidence a.evidence (path ++ ".evidence"))

def ActVerb.text : ActVerb → String
  | .move => "move"
  | .transform => "transform"
  | .transfer => "transfer"
  | .assign => "assign"
  | .observe => "observe"
  | .value => "value"

def ActBasis.text : ActBasis → String
  | .asserted => "asserted"
  | .measured => "measured"
  | .inferred => "inferred"

def EvidenceDocument.json (d : EvidenceDocument) : Json :=
  .obj [("digest", .str d.digest), ("media_type", .str d.mediaType),
    ("description", optionJson Json.str d.description)]

def EvidenceItem.json (e : EvidenceItem) : Json :=
  .obj [("ref", optionJson ObjectRef.json e.ref),
    ("document", optionJson EvidenceDocument.json e.document)]

def Observation.json (o : Observation) : Json :=
  .obj [("source_id", .str o.sourceId), ("sequence", .num o.sequence)]

def Act.json (a : Act) : Json :=
  .obj [("verb", .str a.verb.text), ("occurred_at", .str a.occurredAt),
    ("observation", a.observation.json), ("basis", .str a.basis.text),
    ("references", .arr (a.references.map ObjectRef.json)),
    ("evidence", .arr (a.evidence.map EvidenceItem.json))]

section Injective

theorem optionJson_inj {α : Type} {f : α → Json} (hf : ∀ a b, f a = f b ↔ a = b)
    (hnull : ∀ a, f a ≠ .null) {a b : Option α} :
    optionJson f a = optionJson f b ↔ a = b := by
  cases a with
  | none =>
    cases b with
    | none => simp [optionJson]
    | some b => simpa [optionJson] using (hnull b).symm
  | some a =>
    cases b with
    | none => simpa [optionJson] using hnull a
    | some b => simp [optionJson, hf]

theorem mapJson_inj {α : Type} {f : α → Json} (hf : ∀ a b, f a = f b ↔ a = b) {l r : List α} :
    l.map f = r.map f ↔ l = r :=
  (List.map_injective_iff.mpr fun a b => (hf a b).mp).eq_iff

@[simp] theorem optionText_inj {a b : Option String} :
    optionJson Json.str a = optionJson Json.str b ↔ a = b :=
  optionJson_inj (by simp) (by simp)

@[simp] theorem Digest.json_inj (d d' : Digest) : d.json = d'.json ↔ d = d' := by
  cases d
  cases d'
  simp [Digest.json]

@[simp] theorem optionDigest_inj {a b : Option Digest} :
    optionJson Digest.json a = optionJson Digest.json b ↔ a = b :=
  optionJson_inj Digest.json_inj (by simp [Digest.json])

@[simp] theorem digestOf_inj [FactHash] (v w : Json) : digestOf v = digestOf w ↔ v = w :=
  FactHash.collisionFree.eq_iff

@[simp] theorem ObjectRef.json_inj (r s : ObjectRef) : r.json = s.json ↔ r = s := by
  cases r
  cases s
  simp [ObjectRef.json]

@[simp] theorem optionRef_inj {a b : Option ObjectRef} :
    optionJson ObjectRef.json a = optionJson ObjectRef.json b ↔ a = b :=
  optionJson_inj ObjectRef.json_inj (by simp [ObjectRef.json])

@[simp] theorem mapRef_inj {l r : List ObjectRef} :
    l.map ObjectRef.json = r.map ObjectRef.json ↔ l = r := mapJson_inj ObjectRef.json_inj

@[simp] theorem EvidenceDocument.json_inj (d e : EvidenceDocument) : d.json = e.json ↔ d = e := by
  cases d
  cases e
  simp [EvidenceDocument.json]

@[simp] theorem EvidenceItem.json_inj (e f : EvidenceItem) : e.json = f.json ↔ e = f := by
  cases e
  cases f
  have hdocument : ∀ {a b : Option EvidenceDocument},
      optionJson EvidenceDocument.json a = optionJson EvidenceDocument.json b ↔ a = b :=
    optionJson_inj EvidenceDocument.json_inj (by simp [EvidenceDocument.json])
  simp [EvidenceItem.json, hdocument]

@[simp] theorem ActVerb.text_inj (v w : ActVerb) : v.text = w.text ↔ v = w := by
  cases v <;> cases w <;> decide

@[simp] theorem ActBasis.text_inj (v w : ActBasis) : v.text = w.text ↔ v = w := by
  cases v <;> cases w <;> decide

@[simp] theorem Observation.json_inj (o o' : Observation) : o.json = o'.json ↔ o = o' := by
  cases o
  cases o'
  simp [Observation.json, Int.ofNat_inj]

@[simp] theorem Act.json_inj (a b : Act) : a.json = b.json ↔ a = b := by
  cases a
  cases b
  simp [Act.json, mapJson_inj EvidenceItem.json_inj]

end Injective

end DirectTrade.Flow
