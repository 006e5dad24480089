import Mathlib.Data.List.Induction
import Mathlib.Data.Nat.Digits.Lemmas
import Mathlib.Tactic.Ring

/-!
Numerals with the most significant digit first, leading zeros included, and their rewriting
from one base to another. A leading zero becomes a leading zero, so that rewriting loses
nothing: there and back again is the same numeral.
-/

namespace DirectTrade.Library.Positional

/-- The number that a numeral denotes. -/
def value (b : ℕ) (l : List ℕ) : ℕ := l.foldl (fun n d => n * b + d) 0

/-- How many zeros a numeral starts with. -/
def zeros (l : List ℕ) : ℕ := (l.takeWhile (· = 0)).length

/-- The numeral of a number without leading zeros. -/
def numeral (b n : ℕ) : List ℕ := (Nat.digits b n).reverse

/-- A numeral in base `a` rewritten in base `b`. -/
def recode (a b : ℕ) (l : List ℕ) : List ℕ :=
  List.replicate (zeros l) 0 ++ numeral b (value a l)

theorem value_eq_ofDigits (b : ℕ) (l : List ℕ) : value b l = Nat.ofDigits b l.reverse := by
  unfold value
  induction l using List.reverseRecOn with
  | nil => rfl
  | append_singleton l d ih =>
    rw [List.foldl_append, ih, List.reverse_append]
    simp only [List.foldl_cons, List.foldl_nil, List.reverse_cons, List.reverse_nil,
      List.nil_append, List.singleton_append, Nat.ofDigits_cons]
    ring

theorem value_numeral (b n : ℕ) : value b (numeral b n) = n := by
  rw [value_eq_ofDigits, numeral, List.reverse_reverse, Nat.ofDigits_digits]

theorem value_replicate_append (b k : ℕ) (l : List ℕ) :
    value b (List.replicate k 0 ++ l) = value b l := by
  rw [value_eq_ofDigits, value_eq_ofDigits, List.reverse_append, List.reverse_replicate,
    Nat.ofDigits_append_replicate_zero]

theorem numeral_lt {b n d : ℕ} (hb : 1 < b) (hd : d ∈ numeral b n) : d < b :=
  Nat.digits_lt_base hb (List.mem_reverse.mp hd)

/-- A numeral written without leading zeros starts with none. -/
theorem zeros_numeral (b n : ℕ) : zeros (numeral b n) = 0 := by
  unfold zeros
  cases hnumeral : numeral b n with
  | nil => rfl
  | cons d l =>
    have hdigits : Nat.digits b n = (d :: l).reverse := by
      rw [← hnumeral, numeral, List.reverse_reverse]
    have hlast : Nat.digits b n ≠ [] := by
      rw [hdigits]
      simp
    have hn : n ≠ 0 := Nat.digits_ne_nil_iff_ne_zero.mp hlast
    have hd : d ≠ 0 := by
      have hnonzero := Nat.getLast_digit_ne_zero b hn
      simpa [hdigits] using hnonzero
    simp [hd]

theorem zeros_replicate_append (k : ℕ) {l : List ℕ} (h : zeros l = 0) :
    zeros (List.replicate k 0 ++ l) = k := by
  unfold zeros at h ⊢
  induction k with
  | zero => exact h
  | succ k ih =>
    rw [List.replicate_succ, List.cons_append, List.takeWhile_cons]
    simpa using ih

/-- What remains of a numeral without its leading zeros is the numeral of its number. -/
theorem replicate_zeros_append {b : ℕ} (hb : 1 < b) {l : List ℕ} (h : ∀ d ∈ l, d < b) :
    List.replicate (zeros l) 0 ++ numeral b (value b l) = l := by
  induction l with
  | nil => simp [zeros, numeral, value]
  | cons d l ih =>
    by_cases hd : d = 0
    · subst hd
      have hzeros : zeros (0 :: l) = zeros l + 1 := by simp [zeros]
      have hvalue : value b (0 :: l) = value b l := by simp [value]
      rw [hzeros, hvalue, List.replicate_succ, List.cons_append,
        ih fun x hx => h x (List.mem_cons_of_mem _ hx)]
    · have hzeros : zeros (d :: l) = 0 := by simp [zeros, hd]
      have hdigits : Nat.digits b (Nat.ofDigits b (d :: l).reverse) = (d :: l).reverse := by
        apply Nat.digits_ofDigits b hb
        · intro x hx
          exact h x (List.mem_reverse.mp hx)
        · intro hne
          simpa using hd
      rw [hzeros, value_eq_ofDigits, numeral, hdigits, List.reverse_reverse]
      rfl

theorem recode_lt {a b : ℕ} (hb : 1 < b) {l : List ℕ} {d : ℕ} (hd : d ∈ recode a b l) : d < b := by
  rcases List.mem_append.mp hd with hzero | hnumeral
  · rw [(List.mem_replicate.mp hzero).2]
    omega
  · exact numeral_lt hb hnumeral

/-- Rewriting a numeral in another base and back is the identity. -/
theorem recode_recode {a : ℕ} (b : ℕ) (ha : 1 < a) {l : List ℕ} (h : ∀ d ∈ l, d < a) :
    recode b a (recode a b l) = l := by
  have hzeros : zeros (recode a b l) = zeros l :=
    zeros_replicate_append (zeros l) (zeros_numeral b (value a l))
  have hvalue : value b (recode a b l) = value a l := by
    rw [recode, value_replicate_append, value_numeral]
  rw [recode, hzeros, hvalue, replicate_zeros_append ha h]

end DirectTrade.Library.Positional
