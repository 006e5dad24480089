import DirectTrade.Permissions
import Mathlib.Data.List.Sort

/-!
Profiles: the bounded schema dialect, the semantics a host runs built-in rules for,
and the kinds that select profiles. The rules themselves enter through `Reducers`.
-/

namespace DirectTrade

open Library

structure Issue where
  path : String
  message : String
  deriving DecidableEq

/-- What a reducer returns: the next state, or the refusal it names. -/
inductive Change (σ : Type) where
  | ok (duplicate : Bool) (state : σ)
  | refused (code message : String)
  deriving DecidableEq

/-- What a host says about a record that an invoice refers to. -/
inductive Reference where
  | unknown
  | present (type : String) (seller buyer : Json)
  deriving DecidableEq

/-- The built-in rules of each semantics. A rule that can throw returns an `Attempt`;
a reducer that turns every exception into a refusal returns a `Change`. -/
class Reducers where
  validateInvoice : Json → (String → String → Reference) → ValidationReport
  validateProduct : Json → Attempt (List Issue)
  checkProductContinuity : Json → Json → Attempt (List Issue)
  validateOrder : Json → Attempt (List Issue)
  checkOrderContinuity : Json → Json → Attempt (List Issue)
  checkOrderGenesis : Json → Attempt (List Issue)
  validateForecast : Json → Attempt (List Issue)
  checkForecastContinuity : Json → Json → Attempt (List Issue)
  validateObject : Json → Attempt (List Issue)
  checkObjectOwner : Json → Uuid → Attempt (List Issue)
  checkObjectContinuity : Json → Json → Attempt (List Issue)
  checkObjectGenesis : Json → Attempt (List Issue)
  validateParty : Json → Attempt (List Issue)
  checkPartyContinuity : Json → Json → Attempt (List Issue)
  applyInventoryEvent : InventoryState → Json → Change InventoryState
  unpublishedPackaging : Json → Option Json → Attempt Bool
  applyInventoryFact : InventoryLedger → Json → Change InventoryLedger
  checkFlowOwner : Json → Uuid → Attempt (List Issue)
  flowUnpublishedPackaging : Json → (String → Option Json) → Attempt Bool
  applyFlowFact : FlowBook → Json → Change FlowBook

/-- The members the dialect knows for a type. -/
def schemaKeys : String → Option (List String)
  | "object" => some ["type", "properties", "required", "additionalProperties"]
  | "array" => some ["type", "items", "maxItems"]
  | "string" => some ["type", "maxLength"]
  | "integer" => some ["type", "minimum", "maximum"]
  | "boolean" | "null" => some ["type"]
  | _ => none

def Json.memberNames : Json → List String
  | .obj members => members.map Prod.fst
  | _ => []

def Json.num? : Json → Option Int
  | .num n => some n
  | _ => none

def Json.str? : Json → Option String
  | .str s => some s
  | _ => none

/-- A numeric member of a schema within bounds. -/
def boundedMember (schema : Json) (name : String) (low high : Int) : Bool :=
  ((schema.member? name).bind Json.num?).any fun n => low ≤ n && n ≤ high

def isFieldName (name : String) : Bool :=
  match name.toList with
  | [] => false
  | c :: rest => c.isAlpha && rest.length ≤ 79 && rest.all (fun d => d.isAlphanum || d == '_') &&
      !(["constructor", "prototype"].contains name)

def checkEnum (schema : Json) : Bool :=
  match schema.member? "enum" with
  | none => true
  | some (.arr values) =>
    schema.member? "type" == some (.str "string") && 0 < values.length && values.length ≤ 64 &&
      values.Nodup && values.all fun v => v.str?.any fun text =>
        ((schema.member? "maxLength").bind Json.num?).any fun n => (utf16Length text : Int) ≤ n
  | some _ => false

def checkNullable (schema : Json) : Bool :=
  match schema.member? "nullable" with
  | none => true
  | some v => v == .bool true && schema.member? "type" != some (.str "null")

/-- One schema node without its children. -/
def checkNode (schema : Json) : Attempt Unit := do
  demand (schema.isObject = true) "invalid_schema" "schema complexity exceeded" 400
  let type ← require ((schema.member? "type").bind Json.str?)
    "invalid_schema" "unsupported schema type" 400
  let keys ← require (schemaKeys type) "invalid_schema" "unsupported schema type" 400
  demand (checkNullable schema = true)
    "invalid_schema" "nullable must be true on a non-null type" 400
  demand (checkEnum schema = true) "invalid_schema" "invalid bounded enum" 400
  let names := schema.memberNames.filter fun name => !(["enum", "nullable"].contains name)
  demand (names.Nodup ∧ names.length = keys.length ∧ ∀ name ∈ keys, name ∈ names)
    "invalid" "unexpected or missing fields" 400
  if type = "object" then
    let properties ← require ((schema.member? "properties").filter Json.isObject)
      "invalid_schema" "objects must be closed and bounded" 400
    demand (properties.memberNames.length ≤ 64 ∧
        schema.member? "additionalProperties" = some (.bool false))
      "invalid_schema" "objects must be closed and bounded" 400
    let required ← require (match schema.member? "required" with
      | some (.arr names) => some names
      | _ => none) "invalid_schema" "invalid required fields" 400
    demand (required.Nodup ∧ ∀ v ∈ required, v.str?.any (properties.memberNames.contains ·))
      "invalid_schema" "invalid required fields" 400
  else if type = "array" then
    demand (boundedMember schema "maxItems" 0 256 = true)
      "invalid_schema" "array bound required" 400
  else if type = "string" then
    demand (boundedMember schema "maxLength" 1 65536 = true)
      "invalid_schema" "string bound required" 400
  else if type = "integer" then
    demand (boundedMember schema "minimum" (-maxSafeInteger) maxSafeInteger ∧
        boundedMember schema "maximum" (-maxSafeInteger) maxSafeInteger ∧
        ((schema.member? "minimum").bind Json.num?).getD 0 ≤
          ((schema.member? "maximum").bind Json.num?).getD 0)
      "invalid_schema" "safe integer bounds required" 400
  else pure ()

/-- The schemas directly below a node, properties with their names. -/
def childSchemas (schema : Json) : List (Option String × Json) :=
  match schema.member? "properties", schema.member? "items" with
  | some (.obj members), _ => members.map fun m => (some m.1, m.2)
  | _, some items => [(none, items)]
  | _, _ => []

/-- Visits a schema depth first; `levels` is what is left of the eight levels, and the
number of visited nodes is threaded through. -/
def visitSchema : (levels : ℕ) → (nodes : ℕ) → (schema : Json) → Attempt ℕ
  | 0, _, _ => .error (.dtp "invalid_schema" "schema complexity exceeded" 400)
  | levels + 1, nodes, schema => do
    demand (nodes + 1 ≤ 256) "invalid_schema" "schema complexity exceeded" 400
    checkNode schema
    (childSchemas schema).foldlM (fun nodes child => do
      demand (child.1.all isFieldName = true) "invalid_schema" "invalid field name" 400
      visitSchema levels nodes child.2) (nodes + 1)

def checkSchema (schema : Json) : Attempt Unit := do
  let _ ← visitSchema 9 0 schema
  pure ()

mutual

def validateShape (schema : Json) : (value : Json) → Bool
  | .null => schema.member? "nullable" == some (.bool true) ||
      schema.member? "type" == some (.str "null")
  | .bool _ => schema.member? "type" == some (.str "boolean")
  | .num n => schema.member? "type" == some (.str "integer") &&
      -maxSafeInteger ≤ n && n ≤ maxSafeInteger &&
      ((schema.member? "minimum").bind Json.num?).any (· ≤ n) &&
      ((schema.member? "maximum").bind Json.num?).any (n ≤ ·)
  | .str text => schema.member? "type" == some (.str "string") &&
      ((schema.member? "maxLength").bind Json.num?).any (fun n => (utf16Length text : Int) ≤ n) &&
      (schema.member? "enum").all fun values => values.items.contains (.str text)
  | .arr values => schema.member? "type" == some (.str "array") &&
      ((schema.member? "maxItems").bind Json.num?).any (fun n => (values.length : Int) ≤ n) &&
      (schema.member? "items").any fun items => validateItems items values
  | .obj members => schema.member? "type" == some (.str "object") &&
      ((schema.member? "required").map Json.items).any (fun names => names.all fun name =>
        name.str?.any fun text => members.any fun m => m.1 == text) &&
      (schema.member? "properties").any fun properties => validateMembers properties members

def validateItems (schema : Json) : (values : List Json) → Bool
  | [] => true
  | value :: rest => validateShape schema value && validateItems schema rest

def validateMembers (properties : Json) : (members : List (String × Json)) → Bool
  | [] => true
  | (name, value) :: rest =>
    (properties.member? name).any (fun schema => validateShape schema value) &&
      validateMembers properties rest

end

def profileMajor (version : String) : ℕ :=
  ((splitOn '.' version.toList).headD []).foldl
    (fun n digit => 10 * n + (digit.toNat - '0'.toNat)) 0

def profileKind (p : Profile) : Kind := ⟨p.publisherId, p.name, profileMajor p.version⟩

def accessibleProfile (p : Profile) (org : Uuid) : Bool :=
  p.visibility = .community || p.publisherId = .organization org || org ∈ p.readers

/-- The digests that a kind selects. -/
def kindDigests (s : State) (accessible : Profile → Bool) (registry : List (Kind × List Digest))
    (kind : Kind) : List Digest :=
  match kind.publisher with
  | .dtp => ((registry.find? fun entry => entry.1 = kind).map Prod.snd |>.getD []).filter
      fun d => (s.profiles.get? d).any accessible
  | .organization _ => (s.profiles.values.filter fun p =>
      accessible p && profileKind p = kind).map (·.digest)

def kindText (kind : Kind) : String :=
  let publisher := match kind.publisher with
    | .dtp => "dtp"
    | .organization id => uuidText id
  publisher ++ "/" ++ kind.name ++ "@" ++ toString kind.major

/-- Ascending order without repetitions. -/
def sortedSet (l : List ℕ) : List ℕ := l.dedup.insertionSort (· ≤ ·)

def expandKinds (s : State) (kinds : List Kind) (accessible : Profile → Bool)
    (registry : List (Kind × List Digest)) : Attempt (List Digest) := do
  let selected ← kinds.foldlM (fun selected kind => do
    let digests := kindDigests s accessible registry kind
    demand (0 < digests.length)
      "unsupported_profile" ("no admitted profile for kind " ++ kindText kind) 422
    pure (selected ++ digests)) []
  pure (sortedSet selected)

def ProfileContract.label (p : ProfileContract) : ProfileLabel :=
  ⟨p.publisherId, p.name, p.version⟩

def validateProfile [Primitives] (p : Profile) (profiles : Digest → Option Profile) :
    Attempt Unit := do
  checkSchema p.schema
  demand (isName p.name = true ∧ isVersion p.version = true)
    "invalid_profile" "invalid profile identity/version" 400
  demand (p.dependencies.length ≤ 8 ∧ p.dependencies.Nodup ∧
      ∀ d ∈ p.dependencies, (profiles d).isSome = true)
    "unsupported_dependency" "all dependencies must be pinned and admitted" 422
  demand (p.digest = Primitives.digestContract p.toProfileContract)
    "digest_mismatch" "profile bytes differ from pinned digest" 422

end DirectTrade
