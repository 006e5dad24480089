import Mathlib.Data.List.Induction
import Mathlib.Tactic.Ring

/-!
Byte strings as bit strings, the most significant bit first, and the numbers that both spell.
-/

namespace DirectTrade.Library.Octets

/-- The lowest bits of a number. -/
def bits : ℕ → ℕ → List Bool
  | 0, _ => []
  | w + 1, n => bits w (n / 2) ++ [decide (n % 2 = 1)]

/-- The number that a bit string spells. -/
def value (l : List Bool) : ℕ := l.foldl (fun n b => 2 * n + b.toNat) 0

def octetBits (bytes : List (Fin 256)) : List Bool := bytes.flatMap fun b => bits 8 b.val

@[simp] theorem length_bits (w n : ℕ) : (bits w n).length = w := by
  induction w generalizing n with
  | zero => rfl
  | succ w ih => rw [bits, List.length_append, ih, List.length_singleton]

theorem bits_add (a b n : ℕ) : bits (a + b) n = bits a (n / 2 ^ b) ++ bits b n := by
  induction b generalizing n with
  | zero => rw [Nat.add_zero, pow_zero, Nat.div_one, bits, List.append_nil]
  | succ b ih =>
    have hdiv : n / 2 ^ (b + 1) = n / 2 / 2 ^ b := by
      rw [Nat.div_div_eq_div_mul, pow_succ, Nat.mul_comm]
    rw [← Nat.add_assoc, bits, ih, bits, hdiv, List.append_assoc]

theorem bits_mod (w n : ℕ) : bits w (n % 2 ^ w) = bits w n := by
  induction w generalizing n with
  | zero => rfl
  | succ w ih =>
    have hdiv : n % 2 ^ (w + 1) / 2 = n / 2 % 2 ^ w := by
      rw [pow_succ, Nat.mul_comm, Nat.mod_mul_right_div_self]
    have hlow : n % 2 ^ (w + 1) % 2 = n % 2 :=
      Nat.mod_mod_of_dvd n (dvd_pow_self 2 (Nat.succ_ne_zero w))
    rw [bits, bits, hdiv, hlow, ih]

theorem bits_zero (w : ℕ) : bits w 0 = List.replicate w false := by
  induction w with
  | zero => rfl
  | succ w ih =>
    rw [bits, Nat.zero_div, ih, List.replicate_succ']
    rfl

theorem value_snoc (l : List Bool) (b : Bool) : value (l ++ [b]) = 2 * value l + b.toNat := by
  rw [value, List.foldl_append]
  rfl

theorem value_append (l r : List Bool) : value (l ++ r) = value l * 2 ^ r.length + value r := by
  induction r using List.reverseRecOn with
  | nil => simp [value]
  | append_singleton r b ih =>
    rw [← List.append_assoc, value_snoc, value_snoc, ih, List.length_append, List.length_singleton,
      pow_succ]
    ring

theorem value_bits (w n : ℕ) : value (bits w n) = n % 2 ^ w := by
  induction w generalizing n with
  | zero => rw [pow_zero, Nat.mod_one]; rfl
  | succ w ih =>
    have hsplit : n % 2 ^ (w + 1) = 2 * (n / 2 % 2 ^ w) + n % 2 := by
      rw [pow_succ, Nat.mul_comm, Nat.mod_mul, Nat.add_comm]
    rw [bits, value_snoc, ih, hsplit]
    rcases Nat.mod_two_eq_zero_or_one n with hlow | hlow <;> rw [hlow] <;> rfl

theorem octetBits_cons (b : Fin 256) (bytes : List (Fin 256)) :
    octetBits (b :: bytes) = bits 8 b.val ++ octetBits bytes := List.flatMap_cons

theorem octetBits_append (l r : List (Fin 256)) :
    octetBits (l ++ r) = octetBits l ++ octetBits r := List.flatMap_append

@[simp] theorem length_octetBits (bytes : List (Fin 256)) :
    (octetBits bytes).length = 8 * bytes.length := by
  induction bytes with
  | nil => rfl
  | cons b rest ih =>
    rw [octetBits_cons, List.length_append, length_bits, ih, List.length_cons]
    omega

/-- Bits split where bytes do. -/
theorem octetBits_split (bytes : List (Fin 256)) (n : ℕ) :
    octetBits (bytes.take n) = (octetBits bytes).take (8 * n) ∧
      octetBits (bytes.drop n) = (octetBits bytes).drop (8 * n) := by
  by_cases hn : n ≤ bytes.length
  · have hfront : (octetBits (bytes.take n)).length = 8 * n := by
      rw [length_octetBits, List.length_take, Nat.min_eq_left hn]
    have hsplit : octetBits bytes = octetBits (bytes.take n) ++ octetBits (bytes.drop n) := by
      rw [← octetBits_append, List.take_append_drop]
    rw [hsplit, ← hfront, List.take_left, List.drop_left]
    exact ⟨rfl, rfl⟩
  · have hlength : (octetBits bytes).length ≤ 8 * n := by
      rw [length_octetBits]
      omega
    rw [List.take_of_length_le (by omega), List.take_of_length_le hlength,
      List.drop_eq_nil_of_le (by omega), List.drop_eq_nil_of_le hlength]
    exact ⟨rfl, rfl⟩

theorem octetBits_replicate (n : ℕ) :
    octetBits (List.replicate n 0) = List.replicate (8 * n) false := by
  induction n with
  | zero => rfl
  | succ n ih =>
    rw [List.replicate_succ, octetBits_cons, ih, Fin.val_zero, bits_zero,
      List.replicate_append_replicate]
    congr 1
    omega

/-- The number that four bytes spell. -/
theorem value_octetBits_four (a b c d : Fin 256) :
    value (octetBits [a, b, c, d]) = a.val * 2 ^ 24 + b.val * 2 ^ 16 + c.val * 2 ^ 8 + d.val := by
  have hsmall : ∀ x : Fin 256, value (bits 8 x.val) = x.val := by
    intro x
    rw [value_bits]
    exact Nat.mod_eq_of_lt x.isLt
  have hnil : octetBits [] = [] := rfl
  simp only [octetBits_cons, hnil, List.append_nil, value_append, List.length_append, length_bits,
    hsmall]
  ring

/-- The four bytes of a number of 32 bits. -/
def bigEndian (n : ℕ) : List (Fin 256) :=
  [Fin.ofNat 256 (n / 2 ^ 24), Fin.ofNat 256 (n / 2 ^ 16), Fin.ofNat 256 (n / 2 ^ 8),
    Fin.ofNat 256 n]

theorem octetBits_bigEndian (n : ℕ) : octetBits (bigEndian n) = bits 32 n := by
  have hbyte : ∀ k, bits 8 (Fin.ofNat 256 k).val = bits 8 k := bits_mod 8
  have hnil : octetBits [] = [] := rfl
  have hhalf : bits 32 n = bits 8 (n / 2 ^ 24) ++ bits 24 n := bits_add 8 24 n
  have hquarter : bits 24 n = bits 8 (n / 2 ^ 16) ++ bits 16 n := bits_add 8 16 n
  have hlow : bits 16 n = bits 8 (n / 2 ^ 8) ++ bits 8 n := bits_add 8 8 n
  rw [bigEndian, octetBits_cons, octetBits_cons, octetBits_cons, octetBits_cons, hnil, hbyte,
    hbyte, hbyte, hbyte, hhalf, hquarter, hlow, List.append_nil]

end DirectTrade.Library.Octets
