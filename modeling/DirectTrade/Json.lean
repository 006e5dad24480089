import Mathlib.Algebra.GroupWithZero.Nat
import Mathlib.Data.Int.Notation
import Mathlib.Data.List.Basic
import Mathlib.Tactic.Basic

/-!
JSON values as the kernel reads them from signed commands: integers only, and
objects taken up to member order, as canonicalization compares them. Identifiers
are the numbers their hexadecimal text spells.
-/

namespace DirectTrade

inductive Json where
  | null
  | bool (value : Bool)
  | num (value : Int)
  | str (value : String)
  | arr (items : List Json)
  | obj (members : List (String × Json))
  deriving Inhabited

namespace Json

mutual

def decEq : (a b : Json) → Decidable (a = b)
  | .null, .null => isTrue rfl
  | .bool a, .bool b => decidable_of_iff (a = b) (by simp)
  | .num a, .num b => decidable_of_iff (a = b) (by simp)
  | .str a, .str b => decidable_of_iff (a = b) (by simp)
  | .arr a, .arr b =>
    match decEqItems a b with
    | isTrue h => isTrue (by rw [h])
    | isFalse h => isFalse (by simpa using h)
  | .obj a, .obj b =>
    match decEqMembers a b with
    | isTrue h => isTrue (by rw [h])
    | isFalse h => isFalse (by simpa using h)
  | .null, .bool _ | .null, .num _ | .null, .str _ | .null, .arr _ | .null, .obj _
  | .bool _, .null | .bool _, .num _ | .bool _, .str _ | .bool _, .arr _ | .bool _, .obj _
  | .num _, .null | .num _, .bool _ | .num _, .str _ | .num _, .arr _ | .num _, .obj _
  | .str _, .null | .str _, .bool _ | .str _, .num _ | .str _, .arr _ | .str _, .obj _
  | .arr _, .null | .arr _, .bool _ | .arr _, .num _ | .arr _, .str _ | .arr _, .obj _
  | .obj _, .null | .obj _, .bool _ | .obj _, .num _ | .obj _, .str _ | .obj _, .arr _ =>
    isFalse nofun

def decEqItems : (a b : List Json) → Decidable (a = b)
  | [], [] => isTrue rfl
  | [], _ :: _ | _ :: _, [] => isFalse nofun
  | a :: as, b :: bs =>
    match decEq a b, decEqItems as bs with
    | isTrue h, isTrue hs => isTrue (by rw [h, hs])
    | isFalse h, _ => isFalse (by simp [h])
    | _, isFalse hs => isFalse (by simp [hs])

def decEqMembers : (a b : List (String × Json)) → Decidable (a = b)
  | [], [] => isTrue rfl
  | [], _ :: _ | _ :: _, [] => isFalse nofun
  | (k, a) :: as, (l, b) :: bs =>
    if hk : k = l then
      match decEq a b, decEqMembers as bs with
      | isTrue h, isTrue hs => isTrue (by rw [hk, h, hs])
      | isFalse h, _ => isFalse (by simp [h])
      | _, isFalse hs => isFalse (by simp [hs])
    else isFalse (by simp [hk])

end

instance : DecidableEq Json := decEq

/-- The member of an object under a name; `none` is the source's `undefined`. -/
def member? : Json → String → Option Json
  | .obj members, name => (members.find? fun m => m.1 == name).map Prod.snd
  | _, _ => none

def isObject : Json → Bool
  | .obj _ => true
  | _ => false

def items : Json → List Json
  | .arr items => items
  | _ => []

end Json

abbrev Uuid := ℕ

abbrev Digest := ℕ

abbrev KeyId := ℕ

abbrev Signature := ℕ

/-- Milliseconds since the epoch, as `instant` reads them. -/
abbrev Instant := ℤ

def hexDigit (n : ℕ) : Char :=
  "0123456789abcdef".toList.getD n '0'

/-- The last `width` lower-case hexadecimal digits of a number. -/
def hexText : (width n : ℕ) → List Char
  | 0, _ => []
  | width + 1, n => hexText width (n / 16) ++ [hexDigit (n % 16)]

/-- The text of an identifier, grouped 8-4-4-4-12. -/
def uuidText (id : Uuid) : String :=
  let digits := hexText 32 id
  String.ofList (digits.take 8 ++ '-' :: (digits.drop 8).take 4 ++ '-' ::
    (digits.drop 12).take 4 ++ '-' :: (digits.drop 16).take 4 ++ '-' :: digits.drop 20)

def isHexDigit (c : Char) : Bool := "0123456789abcdef".toList.contains c

/-- `uuid`: 36 characters, hyphens after 8, 12, 16 and 20 lower-case hex digits. -/
def isUuidText (s : String) : Bool :=
  let chars := s.toList
  chars.length == 36 &&
    (chars.zipIdx).all fun ci =>
      if [8, 13, 18, 23].contains ci.2 then ci.1 == '-' else isHexDigit ci.1

def Json.isUuid : Json → Bool
  | .str s => isUuidText s
  | _ => false

end DirectTrade
