import Mathlib.Data.BitVec
import Mathlib.Tactic.Ring

/-!
The bit operators of a language whose only numbers are wider than a word. Each takes its operands
modulo `2 ^ 32` and gives a signed result, except for the unsigned shift. Modulo `2 ^ 32` they are
the operators on words, so that a computation may mix signed and unsigned numbers.
-/

namespace DirectTrade.Library.Signed32

/-- The thirty-two bits that an operator sees of a number. -/
def word (x : ℤ) : BitVec 32 := BitVec.ofInt 32 x

def bitOr (x y : ℤ) : ℤ := (word x ||| word y).toInt

def bitXor (x y : ℤ) : ℤ := (word x ^^^ word y).toInt

def bitAnd (x y : ℤ) : ℤ := (word x &&& word y).toInt

def bitNot (x : ℤ) : ℤ := (~~~word x).toInt

def shiftLeft (x : ℤ) (n : ℕ) : ℤ := (word x <<< (n % 32)).toInt

def shiftRight (x : ℤ) (n : ℕ) : ℤ := ((word x).sshiftRight (n % 32)).toInt

/-- The unsigned shift. -/
def shiftRightZero (x : ℤ) (n : ℕ) : ℤ := (word x >>> (n % 32)).toNat

@[simp] theorem word_toInt (x : BitVec 32) : word x.toInt = x := BitVec.ofInt_toInt

@[simp] theorem word_toNat (x : BitVec 32) : word (x.toNat : ℤ) = x := by
  rw [word, BitVec.ofInt_natCast, BitVec.ofNat_toNat, BitVec.setWidth_eq]

@[simp] theorem word_add (x y : ℤ) : word (x + y) = word x + word y := BitVec.ofInt_add x y

@[simp] theorem word_bitOr (x y : ℤ) : word (bitOr x y) = word x ||| word y := word_toInt _

@[simp] theorem word_bitXor (x y : ℤ) : word (bitXor x y) = word x ^^^ word y := word_toInt _

@[simp] theorem word_bitAnd (x y : ℤ) : word (bitAnd x y) = word x &&& word y := word_toInt _

@[simp] theorem word_bitNot (x : ℤ) : word (bitNot x) = ~~~word x := word_toInt _

@[simp] theorem word_shiftLeft (x : ℤ) (n : ℕ) : word (shiftLeft x n) = word x <<< (n % 32) :=
  word_toInt _

@[simp] theorem word_shiftRightZero (x : ℤ) (n : ℕ) :
    word (shiftRightZero x n) = word x >>> (n % 32) := word_toNat _

/-- `x | 0` keeps the word and makes the number signed. -/
theorem word_signed (x : ℤ) : word (bitOr x 0) = word x := by
  rw [word_bitOr]
  exact BitVec.or_zero

/-- A signed or an unsigned number of thirty-two bits. -/
def Fits (x : ℤ) : Prop := -2 ^ 31 ≤ x ∧ x < 2 ^ 32

theorem fits_toInt (x : BitVec 32) : Fits x.toInt := by
  have hlow := BitVec.le_toInt x
  have hhigh := BitVec.toInt_lt (x := x)
  constructor <;> omega

theorem fits_toNat (x : BitVec 32) : Fits (x.toNat : ℤ) := by
  have hhigh := x.isLt
  constructor <;> omega

theorem word_small {n : ℕ} (h : n < 2 ^ 31) : (word n).toInt = n := by
  rw [word, BitVec.toInt_ofInt]
  apply Int.bmod_eq_of_le <;> omega

theorem shiftRight_small {n : ℕ} (h : n < 2 ^ 31) {k : ℕ} (hk : k < 32) :
    shiftRight n k = ((n / 2 ^ k : ℕ) : ℤ) := by
  rw [shiftRight, BitVec.toInt_sshiftRight, word_small h, Nat.mod_eq_of_lt hk,
    Int.shiftRight_eq_div_pow]
  rfl

theorem shiftLeft_small {n k : ℕ} (h : n * 2 ^ k < 2 ^ 31) (hk : k < 32) :
    shiftLeft n k = ((n * 2 ^ k : ℕ) : ℤ) := by
  have hn : n < 2 ^ 32 := by
    have hle := Nat.le_mul_of_pos_right n (Nat.two_pow_pos k)
    omega
  have hword : (word n).toNat = n := by
    rw [word, BitVec.ofInt_natCast, BitVec.toNat_ofNat, Nat.mod_eq_of_lt hn]
  rw [shiftLeft, BitVec.toInt_shiftLeft, Nat.mod_eq_of_lt hk, hword, Nat.shiftLeft_eq]
  apply Int.bmod_eq_of_le <;> omega

end DirectTrade.Library.Signed32
