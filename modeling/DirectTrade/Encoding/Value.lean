import DirectTrade.Encoding.Text
import Mathlib.Data.Rat.Defs

/-!
The values of the language that its JSON functions are given: what JSON can write, and what it
cannot. An object lists its members in the order in which they were set.
-/

namespace DirectTrade.Encoding

/-- A number. Zero has two signs, so the negative one stands apart. -/
inductive Number where
  | finite (value : ℚ)
  | negativeZero
  | infinite (negative : Bool)
  | notANumber
  deriving DecidableEq

/-- The number that is compared and computed with. -/
def Number.value? : Number → Option ℚ
  | .finite q => some q
  | .negativeZero => some 0
  | .infinite _ | .notANumber => none

/-- `===` on numbers. -/
def Number.equals : Number → Number → Bool
  | .infinite a, .infinite b => a == b
  | a, b => a.value?.isSome && a.value? == b.value?

inductive Value where
  | undefined
  | null
  | bool (value : Bool)
  | num (value : Number)
  | bigint (value : ℤ)
  | str (value : Text)
  | arr (items : List Value)
  | obj (members : List (Text × Value))
  /-- A function or a symbol. -/
  | other (type : String)
  deriving Inhabited

namespace Value

/-- The member of an object under a name. -/
def get : Value → Text → Value
  | .obj members, name => ((members.find? fun m => m.1 == name).map Prod.snd).getD .undefined
  | _, _ => .undefined

def isObject : Value → Bool
  | .obj _ => true
  | _ => false

/-- `value != null`. -/
def present : Value → Bool
  | .undefined | .null => false
  | _ => true

/-- Whether a value counts as true. -/
def truthy : Value → Bool
  | .undefined | .null => false
  | .bool b => b
  | .num n => n.value? ≠ some 0 && n ≠ .notANumber
  | .bigint n => n ≠ 0
  | .str t => t ≠ []
  | .arr _ | .obj _ | .other _ => true

/-- `===`. Arrays and objects are equal where they are one, which `same` says of the places
that the two were read from. -/
def equals (same : Bool) : Value → Value → Bool
  | .undefined, .undefined | .null, .null => true
  | .bool a, .bool b => a == b
  | .num a, .num b => a.equals b
  | .bigint a, .bigint b => a == b
  | .str a, .str b => a == b
  | .arr _, .arr _ | .obj _, .obj _ | .other _, .other _ => same
  | _, _ => false

/-- The comparison that a set of values makes: `===`, and a number that is none is one value. -/
def sameValueZero (a b : Value) : Bool :=
  a.equals false b ||
    match a, b with
    | .num .notANumber, .num .notANumber => true
    | _, _ => false

mutual

/-- Whether a value of JSON can be written as a text. An object refuses when a member of its own
hides the method that writes it. -/
def hasText : Value → Bool
  | .arr items => itemsHaveText items
  | .obj members => (members.find? fun m => m.1 == units "toString").isNone
  | _ => true

def itemsHaveText : List Value → Bool
  | [] => true
  | item :: rest => hasText item && itemsHaveText rest

end

end Value

end DirectTrade.Encoding
