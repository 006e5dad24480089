import Mathlib.Data.List.Induction
import Mathlib.Tactic.Positivity
import Mathlib.Tactic.Ring

/-!
Texts of decimal digits and the numbers that they spell. Of digit texts of one length each spells
its own number, and a text without leading zeros is the one that its number is written as.
-/

namespace DirectTrade.Library.Digits

theorem digit_bounds {c : Char} (h : c.isDigit = true) : 48 ≤ c.toNat ∧ c.toNat ≤ 57 :=
  Char.isDigit_iff_toNat.mp h

theorem digit_zero {c : Char} (h : c.toNat = 48) : c = '0' := Char.toNat_inj.mp h

theorem ofDigitChars_snoc (l : List Char) (c : Char) :
    Nat.ofDigitChars 10 (l ++ [c]) 0 = 10 * Nat.ofDigitChars 10 l 0 + (c.toNat - 48) := by
  rw [Nat.ofDigitChars_append, Nat.ofDigitChars_cons, Nat.ofDigitChars_nil]
  rfl

theorem ofDigitChars_lt {l : List Char} (h : ∀ c ∈ l, c.isDigit = true) :
    Nat.ofDigitChars 10 l 0 < 10 ^ l.length := by
  induction l using List.reverseRecOn with
  | nil => simp
  | append_singleton l c ih =>
    have hc := digit_bounds (h c (by simp))
    have hl := ih fun d hd => h d (List.mem_append_left _ hd)
    rw [ofDigitChars_snoc, List.length_append, List.length_singleton, pow_succ]
    omega

/-- Of texts of one length, each spells its own number. -/
theorem ofDigitChars_inj {l l' : List Char} (hl : ∀ c ∈ l, c.isDigit = true)
    (hl' : ∀ c ∈ l', c.isDigit = true) (hlength : l.length = l'.length)
    (h : Nat.ofDigitChars 10 l 0 = Nat.ofDigitChars 10 l' 0) : l = l' := by
  induction l using List.reverseRecOn generalizing l' with
  | nil => exact (List.length_eq_zero_iff.mp hlength.symm).symm
  | append_singleton l c ih =>
    cases l' using List.reverseRecOn with
    | nil => simp at hlength
    | append_singleton l' c' =>
      have hc := digit_bounds (hl c (by simp))
      have hc' := digit_bounds (hl' c' (by simp))
      rw [ofDigitChars_snoc, ofDigitChars_snoc] at h
      have hlast : c = c' := Char.toNat_inj.mp (by omega)
      have hfront : l = l' := ih (fun d hd => hl d (List.mem_append_left _ hd))
        (fun d hd => hl' d (List.mem_append_left _ hd)) (by simpa using hlength) (by omega)
      rw [hlast, hfront]

/-- A leading digit that is not zero gives the number its full length. -/
theorem pow_le_ofDigitChars {c : Char} {rest : List Char} (hc : c.isDigit = true) (hne : c ≠ '0') :
    10 ^ rest.length ≤ Nat.ofDigitChars 10 (c :: rest) 0 := by
  have hbounds := digit_bounds hc
  have hpositive : c.toNat ≠ 48 := fun h => hne (digit_zero h)
  rw [Nat.ofDigitChars_cons, Nat.ofDigitChars_eq_ofDigitChars_zero]
  have hone : 10 ^ rest.length * 1 ≤ 10 ^ rest.length * (10 * 0 + (c.toNat - '0'.toNat)) := by
    apply Nat.mul_le_mul_left
    show 1 ≤ 10 * 0 + (c.toNat - 48)
    omega
  omega

/-- No zero leads the digits of a number, unless it is all of them. -/
def Leads (l : List Char) : Prop := l = ['0'] ∨ l.head? ≠ some '0'

theorem toDigits_ofDigitChars {l : List Char} (hl : ∀ c ∈ l, c.isDigit = true) (hne : l ≠ [])
    (hleads : Leads l) : Nat.toDigits 10 (Nat.ofDigitChars 10 l 0) = l := by
  rcases hleads with hzero | hhead
  · rw [hzero]
    decide
  · obtain ⟨c, rest, rfl⟩ := List.exists_cons_of_ne_nil hne
    have hc : c ≠ '0' := by simpa using hhead
    have hlow : 10 ^ rest.length ≤ Nat.ofDigitChars 10 (c :: rest) 0 :=
      pow_le_ofDigitChars (hl c List.mem_cons_self) hc
    have hhigh := ofDigitChars_lt hl
    apply ofDigitChars_inj
    · exact fun d hd => Nat.isDigit_of_mem_toDigits (by omega) (by omega) hd
    · exact hl
    · apply Nat.le_antisymm
      · exact (Nat.length_toDigits_le_iff (by decide) (by simp)).mpr hhigh
      · by_contra hshort
        have hpositive : 0 < rest.length := by
          by_contra hnone
          have hlen := Nat.length_toDigits_pos (b := 10)
            (n := Nat.ofDigitChars 10 (c :: rest) 0)
          simp only [List.length_cons] at hshort
          omega
        have hsmall := (Nat.length_toDigits_le_iff (b := 10) (k := rest.length)
          (n := Nat.ofDigitChars 10 (c :: rest) 0) (by decide) hpositive).mp
          (by simp only [List.length_cons] at hshort; omega)
        omega
    · exact Nat.ofDigitChars_ten_toDigits

/-- The digits that a number is written as lead it without a zero. -/
theorem leads_toDigits (n : ℕ) : Leads (Nat.toDigits 10 n) := by
  induction n using Nat.strongRecOn with
  | ind n ih =>
    by_cases hsmall : n < 10
    · rw [Nat.toDigits_of_lt_base hsmall]
      by_cases hzero : n = 0
      · rw [hzero]
        exact Or.inl rfl
      · right
        intro hhead
        have hvalue := Nat.toNat_digitChar_of_lt_ten hsmall
        rw [List.head?_cons, Option.some.injEq] at hhead
        rw [hhead] at hvalue
        have hnumber : '0'.toNat = 48 := rfl
        omega
    · have hrest := ih (n / 10) (by omega)
      rw [Nat.toDigits_of_base_le (by decide) (by omega)]
      right
      rcases hrest with hone | hhead
      · have hvalue := Nat.ofDigitChars_ten_toDigits (n := n / 10)
        rw [hone] at hvalue
        have hnone : Nat.ofDigitChars 10 ['0'] 0 = 0 := rfl
        omega
      · obtain ⟨c, rest, hcons⟩ := List.exists_cons_of_ne_nil
          (Nat.toDigits_ne_nil (b := 10) (n := n / 10))
        rw [hcons] at hhead ⊢
        simpa using hhead

end DirectTrade.Library.Digits
