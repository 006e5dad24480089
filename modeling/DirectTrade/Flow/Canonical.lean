import DirectTrade.Flow.Act
import Mathlib.Data.List.Lex
import Mathlib.Data.List.Sort

/-!
The canonical text of a value: members in the order of their names, no blanks, integers
only. What cannot be written so is refused with the path of the part that is in the way.
-/

namespace DirectTrade.Flow

open Library Outcome

def hexPair (n : ℕ) : List Char := [hexDigit (n / 16), hexDigit (n % 16)]

/-- A character as `JSON.stringify` writes it. -/
def escapeChar (c : Char) : List Char :=
  if c.toNat = 34 then ['\\', c]
  else if c.toNat = 92 then ['\\', c]
  else if c.toNat = 8 then ['\\', 'b']
  else if c.toNat = 9 then ['\\', 't']
  else if c.toNat = 10 then ['\\', 'n']
  else if c.toNat = 12 then ['\\', 'f']
  else if c.toNat = 13 then ['\\', 'r']
  else if c.toNat < 32 then ['\\', 'u', '0', '0'] ++ hexPair c.toNat
  else [c]

def quoted (s : String) : String := "\"" ++ String.ofList (s.toList.flatMap escapeChar) ++ "\""

/-- The UTF-16 units of a text, by which names are ordered. -/
def utf16Units (s : String) : List ℕ :=
  s.toList.flatMap fun c =>
    if c.toNat > 65535 then
      [55296 + (c.toNat - 65536) / 1024, 56320 + (c.toNat - 65536) % 1024]
    else [c.toNat]

def sortKeys {α : Type} (members : List (String × α)) : List (String × α) :=
  members.insertionSort fun a b => utf16Units a.1 ≤ utf16Units b.1

def checkNumber (n : ℤ) (path : String) : Except String Unit :=
  demand ("non-integer number at " ++ path ++ "; DTP records must encode decimals as strings")
    (n.natAbs ≤ maxSafeInteger)

/-- A name that would need an escape is refused, so that it can never be signed. -/
def checkName (name path : String) : Except String Unit :=
  demand ("member name contains a quotation mark, a reverse solidus or a control character, " ++
    "which DTP refuses at " ++ path)
    (name.toList.all fun c => c.toNat ≠ 34 ∧ c.toNat ≠ 92 ∧ 32 ≤ c.toNat)

/-- The parts of an object in the order of their names; the first that is refused decides. -/
def inKeyOrder (parts : List (String × Except String String)) : Except String (List String) :=
  (sortKeys parts).mapM Prod.snd

mutual

def serialize (path : String) : Json → Except String String
  | .null => pure "null"
  | .bool b => pure (if b then "true" else "false")
  | .num n => do
    checkNumber n path
    pure (toString n)
  | .str s => pure (quoted s)
  | .arr items => do
    let parts ← serializeItems path 0 items
    pure ("[" ++ ",".intercalate parts ++ "]")
  | .obj members => do
    let parts ← inKeyOrder (serializeMembers path members)
    pure ("\x7b" ++ ",".intercalate parts ++ "\x7d")

def serializeItems (path : String) (i : ℕ) : List Json → Except String (List String)
  | [] => pure []
  | item :: rest => do
    let part ← serialize (indexed path i) item
    let parts ← serializeItems path (i + 1) rest
    pure (part :: parts)

def serializeMembers (path : String) :
    List (String × Json) → List (String × Except String String)
  | [] => []
  | (name, value) :: rest =>
    (name, do
      checkName name (path ++ "." ++ name)
      let part ← serialize (path ++ "." ++ name) value
      pure (quoted name ++ ":" ++ part)) :: serializeMembers path rest

end

def canonicalize (v : Json) : Except String String := serialize "$" v

example : canonicalize (.obj [("b", .num 10), ("a", .arr [.str "x\"y", .null])]) =
    .ok "\x7b\"a\":[\"x\\\"y\",null],\"b\":10\x7d" := by decide

/-- A text that serialization refuses a value with. -/
def IsCanonicalError (message : String) : Prop :=
  message.toList.head? = some 'n' ∨ message.toList.head? = some 'm'

theorem checkNumber_error {n : ℤ} {path m : String} (h : checkNumber n path = .error m) :
    IsCanonicalError m := by
  obtain ⟨-, hm⟩ := (demand_eq_error ..).mp h
  rw [← hm]
  left
  simp

theorem checkName_error {name path m : String} (h : checkName name path = .error m) :
    IsCanonicalError m := by
  obtain ⟨-, hm⟩ := (demand_eq_error ..).mp h
  rw [← hm]
  right
  simp

theorem mapM_snd_error {parts : List (String × Except String String)} {m : String}
    (h : parts.mapM Prod.snd = .error m) : ∃ part ∈ parts, part.2 = .error m := by
  induction parts with
  | nil => nomatch h
  | cons part rest ih =>
    rw [List.mapM_cons] at h
    cases hpart : part.2 with
    | error m' =>
      rw [hpart] at h
      have hm : m' = m := Except.error.inj h
      exact ⟨part, List.mem_cons_self, hm ▸ hpart⟩
    | ok text =>
      rw [hpart, ok_bind] at h
      cases hrest : rest.mapM Prod.snd with
      | error m' =>
        rw [hrest] at h
        have hm : m' = m := Except.error.inj h
        obtain ⟨other, hmem, hother⟩ := ih (hm ▸ hrest)
        exact ⟨other, List.mem_cons_of_mem _ hmem, hother⟩
      | ok texts =>
        rw [hrest] at h
        nomatch h

theorem inKeyOrder_error {parts : List (String × Except String String)} {m : String}
    (h : inKeyOrder parts = .error m) : ∃ part ∈ parts, part.2 = .error m := by
  obtain ⟨part, hmem, hpart⟩ := mapM_snd_error h
  exact ⟨part, (List.mem_insertionSort _).mp hmem, hpart⟩

mutual

theorem serialize_error {path m : String} :
    (v : Json) → serialize path v = .error m → IsCanonicalError m
  | .null, h => nomatch h
  | .bool b, h => nomatch h
  | .num n, h => by
    simp only [serialize, bind_eq_error, pure_ne_error, and_false, exists_false, or_false] at h
    exact checkNumber_error h
  | .str s, h => nomatch h
  | .arr items, h => by
    simp only [serialize, bind_eq_error, pure_ne_error, and_false, exists_false, or_false] at h
    exact serializeItems_error items h
  | .obj members, h => by
    simp only [serialize, bind_eq_error, pure_ne_error, and_false, exists_false, or_false] at h
    obtain ⟨part, hmem, hpart⟩ := inKeyOrder_error h
    exact serializeMembers_error members part hmem hpart

theorem serializeItems_error {path m : String} {i : ℕ} :
    (items : List Json) → serializeItems path i items = .error m → IsCanonicalError m
  | [], h => nomatch h
  | item :: rest, h => by
    simp only [serializeItems, bind_eq_error, pure_ne_error, and_false, exists_false, or_false] at h
    cases h with
    | inl hitem => exact serialize_error item hitem
    | inr hrest =>
      obtain ⟨_, -, hrest⟩ := hrest
      exact serializeItems_error rest hrest

theorem serializeMembers_error {path m : String} :
    (members : List (String × Json)) → ∀ part ∈ serializeMembers path members,
      part.2 = .error m → IsCanonicalError m
  | [], _, hmem, _ => nomatch hmem
  | (name, value) :: rest, part, hmem, h => by
    simp only [serializeMembers, List.mem_cons] at hmem
    cases hmem with
    | inl hhead =>
      rw [hhead] at h
      simp only [bind_eq_error, pure_ne_error, and_false, exists_false, or_false] at h
      cases h with
      | inl hname => exact checkName_error hname
      | inr hvalue =>
        obtain ⟨_, -, hvalue⟩ := hvalue
        exact serialize_error value hvalue
    | inr hrest => exact serializeMembers_error rest part hrest h

end

theorem canonicalize_error {v : Json} {m : String} (h : canonicalize v = .error m) :
    IsCanonicalError m := serialize_error v h

end DirectTrade.Flow
