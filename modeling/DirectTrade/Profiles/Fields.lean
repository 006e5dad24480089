import DirectTrade.Stock
import DirectTrade.Flow.Act
import DirectTrade.Flow.Decimal

/-!
The checks that the business profiles share: the exact members of an object, bounded texts,
identifiers and their check digits, and the issues that they report. A body's members are read
as values that may be absent.
-/

namespace DirectTrade.Profiles

open DirectTrade.Flow (isUcum isCurrency hasShape numberAt isCalendarDay indexed)
open Foundation (isLower isDigitChar)

def issueUnless (ok : Bool) (path message : String) : List Issue :=
  if ok then [] else [⟨path, message⟩]

@[simp] theorem issueUnless_eq_nil {ok : Bool} {path message : String} :
    issueUnless ok path message = [] ↔ ok = true := by
  cases ok <;> simp [issueUnless]

/-- `forEach` over a list with what the loop remembers. -/
def forEach {σ : Type} (step : σ → ℕ → Json → List Issue × σ) : σ → ℕ → List Json → List Issue
  | _, _, [] => []
  | s, i, v :: rest => (step s i v).1 ++ forEach step (step s i v).2 (i + 1) rest

/-- A loop that remembers nothing and reports nothing reports nothing of any element. -/
theorem forEach_eq_nil {f : ℕ → Json → List Issue} {items : List Json} {i : ℕ}
    (h : forEach (fun (_ : Unit) i v => (f i v, ())) () i items = []) :
    ∀ v ∈ items, ∃ j, f j v = [] := by
  induction items generalizing i with
  | nil => exact fun v hv => nomatch hv
  | cons v rest ih =>
    rw [forEach, List.append_eq_nil_iff] at h
    rw [List.forall_mem_cons]
    exact ⟨⟨i, h.1⟩, ih h.2⟩

/-- What a value is canonically compared as: an absent member serializes as `null`. -/
def canonical (v : Option Json) : Json := v.getD .null

/-- `canonicalize(a[name]) === canonicalize(b[name])`. -/
def sameMember (a b : Json) (name : String) : Bool :=
  canonical (a.member? name) = canonical (b.member? name)

/-- An object with exactly these members. -/
def exact (v : Option Json) (keys : List String) : Bool :=
  v.any fun o => o.isObject && o.memberNames.length == keys.length &&
    keys.all fun k => (o.member? k).isSome

def isText (max : ℕ) : Option Json → Bool
  | some (.str s) => Flow.text s max
  | _ => false

def textOf (test : String → Bool) : Option Json → Bool
  | some (.str s) => test s
  | _ => false

def orNull (test : Option Json → Bool) (v : Option Json) : Bool := v = some .null || test v

def uuidOrNull (v : Option Json) : Bool := orNull (textOf isUuidText) v

def oneOf (names : List String) : Option Json → Bool := textOf names.contains

/-- A safe integer within bounds. -/
def isIntegerIn (low high : ℤ) : Option Json → Bool
  | some (.num n) => -maxSafeInteger ≤ n && n ≤ maxSafeInteger && low ≤ n && n ≤ high
  | _ => false

def elements (v : Option Json) : List Json := ((v.bind Json.array?).getD [])

/-- An array of at least `low` and at most `high` elements. -/
def isArrayOf (low high : ℕ) (v : Option Json) : Bool :=
  (v.bind Json.array?).any fun items => low ≤ items.length && items.length ≤ high

/-- `/^[a-z][a-z0-9]*(?:\.[a-z0-9]+)*$/` -/
def isScheme (s : String) : Bool :=
  s.toList.head?.any isLower &&
    (splitOn '.' s.toList).all fun part => !part.isEmpty &&
      part.all fun c => isLower c || isDigitChar c

def isUpper (c : Char) : Bool := 'A' ≤ c && c ≤ 'Z'

/-- `/^[a-z]{2,3}(?:-[A-Za-z0-9]{2,8})*$/` -/
def isLanguage (s : String) : Bool :=
  match splitOn '-' s.toList with
  | [] => false
  | primary :: rest => 2 ≤ primary.length && primary.length ≤ 3 && primary.all isLower &&
      rest.all fun part => 2 ≤ part.length && part.length ≤ 8 &&
        part.all fun c => isLower c || isUpper c || isDigitChar c

/-- `/^[A-Z]{n}$/` -/
def isCode (n : ℕ) (s : String) : Bool := s.toList.length == n && s.toList.all isUpper

def isLocalDate : Option Json → Bool :=
  textOf fun s => hasShape "0000-00-00" s.toList && numberAt s.toList 0 4 ≠ 0 &&
    isCalendarDay s.toList

/-- A UTC millisecond instant; a time that no day has is thrown on. -/
def isInstant : Option Json → Attempt Bool
  | some (.str s) =>
    match Flow.isInstant s with
    | .ok b => .ok b
    | .error _ => .error .fault
  | _ => .ok false

/-- A three-place or six-place amount with what a rule asks of its value. -/
def amount (scale : ℕ) (v : Option Json) : Option ℤ :=
  match v with
  | some (.str s) => (Flow.parseDecimal s scale false).toOption
  | _ => none

def digits (s : String) : List ℕ := s.toList.map fun c => c.toNat - '0'.toNat

/-- Weights 3, 1, 3, ... from the right over the payload. -/
def checkDigit (payload : List ℕ) : ℕ :=
  (10 - (payload.reverse.mapIdx fun i d => if i % 2 = 0 then d * 3 else d).sum % 10) % 10

def hasCheckDigit (lengths : List ℕ) (s : String) : Bool :=
  lengths.contains s.toList.length && s.toList.all isDigitChar &&
    (digits s).getLast? = some (checkDigit (digits s).dropLast)

def isGtin : Option Json → Bool := textOf (hasCheckDigit [8, 12, 13, 14])

def isGln : Option Json → Bool := textOf (hasCheckDigit [13])

def isSscc : Option Json → Bool := textOf (hasCheckDigit [18])

def isDuns : Option Json → Bool := textOf fun s => s.toList.length == 9 && s.toList.all isDigitChar

def checkName (path : String) (v : Json) : List Issue :=
  if exact v ["name", "language"] then
    issueUnless (isText 200 (v.member? "name")) (path ++ ".name")
        "bounded nonempty name required" ++
      issueUnless (orNull (textOf isLanguage) (v.member? "language")) (path ++ ".language")
        "language tag or null required"
  else [⟨path, "name and language required"⟩]

def checkNames (b : Json) : List Issue :=
  if isArrayOf 1 8 (b.member? "names") then
    forEach (fun _ i v => (checkName (indexed "$.names" i) v, ())) () 0
      (elements (b.member? "names"))
  else [⟨"$.names", "1-8 names required"⟩]

/-- What an identifier is known by. -/
def identifierKey (v : Json) : Json × Json :=
  (canonical (v.member? "scheme"), canonical (v.member? "value"))

/-- An identifier in a list whose earlier ones are `seen`; `extra` holds the rules of a profile. -/
def checkIdentifier (path schemeMessage : String)
    (extra : List (Json × Json) → String → Json → List Issue) (seen : List (Json × Json)) (i : ℕ)
    (v : Json) : List Issue × List (Json × Json) :=
  if exact v ["scheme", "value"] then
    (issueUnless (textOf (fun s => utf16Length s ≤ 64 && isScheme s) (v.member? "scheme"))
        (indexed path i ++ ".scheme") schemeMessage ++
      issueUnless (isText 128 (v.member? "value")) (indexed path i ++ ".value")
        "bounded nonempty value required" ++
      issueUnless (!seen.contains (identifierKey v)) (indexed path i) "duplicate identifier" ++
      extra seen (indexed path i) v, seen ++ [identifierKey v])
  else ([⟨indexed path i, "scheme and value required"⟩], seen)

def checkIdentifiers (v : Option Json) (path : String) (max : ℕ) (tooMany schemeMessage : String)
    (extra : List (Json × Json) → String → Json → List Issue) : List Issue :=
  if isArrayOf 0 max v then
    forEach (checkIdentifier path schemeMessage extra) [] 0 (elements v)
  else [⟨path, tooMany⟩]

/-- A rule on the values of one scheme. -/
def schemeRule (scheme : String) (test : Option Json → Bool) (message path : String) (v : Json) :
    List Issue :=
  issueUnless (v.member? "scheme" ≠ some (.str scheme) || test (v.member? "value"))
    (path ++ ".value") message

/-- The identifiers of a list, read as a continuity rule reads them. -/
def identifierKeys (v : Option Json) : Attempt (List (Json × Json)) := do
  let items ← access (v.bind Json.array?)
  items.mapM fun e => if e = .null then .error .fault else .ok (identifierKey e)

/-- The identifiers of a list. -/
def identifiers (v : Option Json) : List (Json × Json) := (elements v).map identifierKey

theorem identifierKeys_eq_ok {v : Option Json} {keys : List (Json × Json)}
    (h : identifierKeys v = .ok keys) : keys = identifiers v := by
  simp only [identifierKeys, Library.Outcome.bind_eq_ok, access_eq_ok] at h
  obtain ⟨items, hitems, hkeys⟩ := h
  have hmap : keys.map id = items.map identifierKey :=
      Library.Outcome.map_of_mapM (fun e key hkey => by
    split at hkey
    · cases hkey
    · exact (Except.ok.inj hkey).symm) hkeys
  rw [List.map_id] at hmap
  rw [hmap, identifiers, elements, hitems]
  rfl

/-- The unit of a quantity: a UCUM code, or a packaging version with its conversion. -/
def checkUnit (u : Option Json) (path : String) : List Issue :=
  let field := fun name => u.bind (·.member? name)
  if exact u ["system", "code", "packaging_id", "version", "base_units_per_pack"] = false then
    [⟨path, "exact unit fields required"⟩]
  else if field "system" = some (.str "ucum") then
    issueUnless (textOf isUcum (field "code") && field "packaging_id" = some .null &&
        field "version" = some .null && field "base_units_per_pack" = some .null)
      path "ucum unit carries a code and no packaging"
  else if field "system" ≠ some (.str "packaging") || field "code" ≠ some .null ||
      !isText 80 (field "packaging_id") || !isText 40 (field "version") then
    [⟨path, "packaging unit needs packaging_id and version"⟩]
  else
    match amount 3 (field "base_units_per_pack") with
    | none => [⟨path, "three-place pack conversion required"⟩]
    | some n => issueUnless (0 < n) path "positive pack conversion required"

end DirectTrade.Profiles
