import DirectTrade.Library.Outcome
import Mathlib.Algebra.Order.Group.Unbundled.Int
import Mathlib.Data.List.DropRight
import Mathlib.Tactic.Positivity
import Mathlib.Tactic.Ring

/-!
Bounded, exact fixed-point amounts: their texts, what they parse to and how a value is
written. What is written parses to the value it was written from.
-/

namespace DirectTrade.Flow

open Library Outcome

def maxIntegerDigits : ℕ := 18

def checkScale (scale : ℕ) : Except String Unit := demand "unsupported decimal scale" (scale ≤ 12)

def padEnd (n : ℕ) (l : List Char) : List Char := l ++ List.replicate (n - l.length) '0'

def padStart (n : ℕ) (l : List Char) : List Char := List.replicate (n - l.length) '0' ++ l

/-- The sign, the whole part and the fraction of `-?\d+(?:\.\d+)?`. -/
def decimalParts (chars : List Char) : Option (Bool × List Char × List Char) :=
  let negative := chars.head? = some '-'
  let body := if negative then chars.tail else chars
  let whole := body.takeWhile Char.isDigit
  match body.dropWhile Char.isDigit with
  | [] => if whole = [] then none else some (negative, whole, [])
  | point :: fraction =>
    if whole ≠ [] ∧ point = '.' ∧ fraction ≠ [] ∧ fraction.all Char.isDigit = true then
      some (negative, whole, fraction)
    else none

def parseDecimal (value : String) (scale : ℕ) (allowNegative : Bool) : Except String ℤ := do
  checkScale scale
  demand "expected bounded decimal string" (value.toList.length ≤ maxIntegerDigits + scale + 2)
  let (negative, whole, fraction) ←
    require "expected bounded decimal string" (decimalParts value.toList)
  demand "negative amount is not permitted" (negative = true → allowNegative = true)
  demand "decimal precision exceeds profile limit"
    (whole.length ≤ maxIntegerDigits ∧ fraction.length ≤ scale)
  let magnitude : ℤ := Nat.ofDigitChars 10 whole 0 * 10 ^ scale +
    Nat.ofDigitChars 10 (padEnd scale fraction) 0
  pure (if negative then -magnitude else magnitude)

def formatDecimal (value : ℤ) (scale : ℕ) : Except String String := do
  checkScale scale
  let negative := value < 0
  let magnitude := value.natAbs
  let divisor := 10 ^ scale
  let whole := Nat.toDigits 10 (magnitude / divisor)
  demand "result exceeds profile magnitude limit" (whole.length ≤ maxIntegerDigits)
  let fraction := (padStart scale (Nat.toDigits 10 (magnitude % divisor))).rdropWhile (· = '0')
  pure (String.ofList ((if negative then ['-'] else []) ++ whole ++
    if fraction = [] then [] else '.' :: fraction))

theorem checkScale_eq_ok {scale : ℕ} {u : Unit} : checkScale scale = .ok u ↔ scale ≤ 12 := by
  simp [checkScale]

/-- The whole part and the fraction of a written magnitude. -/
def wholeDigits (m scale : ℕ) : List Char := Nat.toDigits 10 (m / 10 ^ scale)

def fractionDigits (m scale : ℕ) : List Char :=
  (padStart scale (Nat.toDigits 10 (m % 10 ^ scale))).rdropWhile (· = '0')

theorem formatDecimal_eq_ok {v : ℤ} {scale : ℕ} {t : String} :
    formatDecimal v scale = .ok t ↔ scale ≤ 12 ∧ v.natAbs < 10 ^ (maxIntegerDigits + scale) ∧
      t = String.ofList ((if v < 0 then ['-'] else []) ++ wholeDigits v.natAbs scale ++
        if fractionDigits v.natAbs scale = [] then []
        else '.' :: fractionDigits v.natAbs scale) := by
  have hbound : (Nat.toDigits 10 (v.natAbs / 10 ^ scale)).length ≤ maxIntegerDigits ↔
      v.natAbs < 10 ^ (maxIntegerDigits + scale) := by
    rw [Nat.length_toDigits_le_iff (by omega) (by decide), Nat.div_lt_iff_lt_mul (by positivity),
      pow_add]
  unfold formatDecimal
  simp only [bind_eq_ok, checkScale_eq_ok, demand_eq_ok, pure_eq_ok, hbound, exists_and_left,
    exists_const]
  unfold wholeDigits fractionDigits
  constructor
  · intro h
    exact ⟨h.1, h.2.1, h.2.2.symm⟩
  · intro h
    exact ⟨h.1, h.2.1, h.2.2.symm⟩

theorem isDigit_of_mem_padStart {n m : ℕ} {c : Char} (h : c ∈ padStart n (Nat.toDigits 10 m)) :
    c.isDigit = true := by
  unfold padStart at h
  cases List.mem_append.mp h with
  | inl hzero =>
    rw [(List.mem_replicate.mp hzero).2]
    decide
  | inr hdigit => exact Nat.isDigit_of_mem_toDigits (by omega) (by omega) hdigit

theorem wholeDigits_all {m scale : ℕ} : ∀ c ∈ wholeDigits m scale, c.isDigit = true :=
  fun _ h => Nat.isDigit_of_mem_toDigits (by omega) (by omega) h

theorem fractionDigits_all {m scale : ℕ} : ∀ c ∈ fractionDigits m scale, c.isDigit = true :=
  fun _ h => isDigit_of_mem_padStart ((List.rdropWhile_prefix _ _).subset h)

theorem length_padStart {m scale : ℕ} (hscale : 0 < scale) :
    (padStart scale (Nat.toDigits 10 (m % 10 ^ scale))).length = scale := by
  have hpos : 0 < 10 ^ scale := by positivity
  have hdigits : (Nat.toDigits 10 (m % 10 ^ scale)).length ≤ scale :=
    (Nat.length_toDigits_le_iff (by omega) hscale).mpr (Nat.mod_lt m hpos)
  simp only [padStart, List.length_append, List.length_replicate]
  omega

/-- Putting back the zeros that were stripped gives all places of the fraction. -/
theorem padEnd_fractionDigits {m scale : ℕ} (hscale : 0 < scale) :
    padEnd scale (fractionDigits m scale) = padStart scale (Nat.toDigits 10 (m % 10 ^ scale)) := by
  have hlength := length_padStart (m := m) hscale
  unfold padEnd fractionDigits
  generalize padStart scale (Nat.toDigits 10 (m % 10 ^ scale)) = l at hlength ⊢
  have hsplit : l.rdropWhile (· = '0') ++ l.rtakeWhile (· = '0') = l :=
    List.rdropWhile_append_rtakeWhile
  have hzeros : l.rtakeWhile (· = '0') =
      List.replicate (scale - (l.rdropWhile (· = '0')).length) '0' := by
    rw [List.eq_replicate_iff]
    constructor
    · have := congrArg List.length hsplit
      rw [List.length_append] at this
      omega
    · intro c hc
      simpa using List.mem_rtakeWhile_imp hc
  rw [← hzeros]
  exact hsplit

theorem ofDigitChars_padStart (n m : ℕ) :
    Nat.ofDigitChars 10 (padStart n (Nat.toDigits 10 m)) 0 = m := by
  unfold padStart
  rw [Nat.ofDigitChars_append, Nat.ofDigitChars_replicate_zero, Nat.mul_zero,
    Nat.ofDigitChars_ten_toDigits]

theorem ofDigitChars_fractionDigits (m scale : ℕ) :
    Nat.ofDigitChars 10 (padEnd scale (fractionDigits m scale)) 0 = m % 10 ^ scale := by
  by_cases hscale : 0 < scale
  · rw [padEnd_fractionDigits hscale, ofDigitChars_padStart]
  · have hzero : scale = 0 := by omega
    subst hzero
    have hnone : fractionDigits m 0 = [] := by
      have hlast : Nat.toDigits 10 (m % 10 ^ 0) = ['0'] := by
        rw [pow_zero, Nat.mod_one]
        rfl
      unfold fractionDigits padStart
      rw [hlast]
      decide
    rw [hnone, pow_zero, Nat.mod_one]
    rfl

theorem length_fractionDigits_le (m scale : ℕ) : (fractionDigits m scale).length ≤ scale := by
  by_cases hscale : 0 < scale
  · have hpad := congrArg List.length (padEnd_fractionDigits (m := m) hscale)
    have hle : (padEnd scale (fractionDigits m scale)).length =
        max scale (fractionDigits m scale).length := by
      simp only [padEnd, List.length_append, List.length_replicate]
      omega
    have hstart := length_padStart (m := m) hscale
    omega
  · have hzero : scale = 0 := by omega
    subst hzero
    have hlast : Nat.toDigits 10 (m % 10 ^ 0) = ['0'] := by
      rw [pow_zero, Nat.mod_one]
      rfl
    unfold fractionDigits padStart
    rw [hlast]
    decide

/-- The parts of a text that is written as a sign, digits and a fraction. -/
theorem decimalParts_written {negative : Bool} {whole fraction : List Char} (hne : whole ≠ [])
    (hwhole : ∀ c ∈ whole, c.isDigit = true) (hfraction : ∀ c ∈ fraction, c.isDigit = true) :
    decimalParts ((if negative then ['-'] else []) ++ whole ++
      if fraction = [] then [] else '.' :: fraction) = some (negative, whole, fraction) := by
  obtain ⟨c, rest, rfl⟩ := List.exists_cons_of_ne_nil hne
  have hc : c ≠ '-' := by
    intro heq
    have := hwhole c List.mem_cons_self
    rw [heq] at this
    exact absurd this (by decide)
  have hbody : decimalParts ((if negative then ['-'] else []) ++ (c :: rest) ++
      if fraction = [] then [] else '.' :: fraction) =
      match ((c :: rest) ++ if fraction = [] then [] else '.' :: fraction).dropWhile
          Char.isDigit with
      | [] => some (negative, (c :: rest), [])
      | point :: tail =>
        if point = '.' ∧ tail ≠ [] ∧ tail.all Char.isDigit = true then
          some (negative, (c :: rest), tail)
        else none := by
    have htake : ((c :: rest) ++ if fraction = [] then [] else '.' :: fraction).takeWhile
        Char.isDigit = c :: rest := by
      rw [List.takeWhile_append_of_pos hwhole]
      split <;> simp
    unfold decimalParts
    cases negative
    · simp only [List.nil_append, Bool.false_eq_true, if_false, List.cons_append,
        List.head?_cons, Option.some.injEq, hc, decide_false]
      rw [← List.cons_append, htake]
      simp
    · simp only [if_true, List.cons_append, List.nil_append, List.head?_cons, decide_true,
        List.tail_cons]
      rw [← List.cons_append, htake]
      simp
  rw [hbody, List.dropWhile_append_of_pos hwhole]
  by_cases hnone : fraction = []
  · simp [hnone]
  · simp only [if_neg hnone]
    have hpoint : ('.' :: fraction).dropWhile Char.isDigit = '.' :: fraction := by
      simp
    have hall : fraction.all Char.isDigit = true := List.all_eq_true.mpr hfraction
    rw [hpoint]
    simp only [ne_eq, hnone, not_false_iff, hall, and_self, if_true]

theorem parseDecimal_formatDecimal {v : ℤ} {scale : ℕ} {t : String} {allowNegative : Bool}
    (h : formatDecimal v scale = .ok t) (hsign : v < 0 → allowNegative = true) :
    parseDecimal t scale allowNegative = .ok v := by
  obtain ⟨hscale, hbound, rfl⟩ := formatDecimal_eq_ok.mp h
  have hwhole : (wholeDigits v.natAbs scale).length ≤ maxIntegerDigits := by
    unfold wholeDigits
    rw [Nat.length_toDigits_le_iff (by omega) (by decide), Nat.div_lt_iff_lt_mul (by positivity),
      ← pow_add]
    exact hbound
  have hfraction := length_fractionDigits_le v.natAbs scale
  have hparts := @decimalParts_written (decide (v < 0)) (wholeDigits v.natAbs scale)
    (fractionDigits v.natAbs scale) Nat.toDigits_ne_nil wholeDigits_all fractionDigits_all
  simp only [decide_eq_true_eq] at hparts
  have hlength : ((if v < 0 then ['-'] else []) ++ wholeDigits v.natAbs scale ++
      if fractionDigits v.natAbs scale = [] then []
        else '.' :: fractionDigits v.natAbs scale).length ≤ maxIntegerDigits + scale + 2 := by
    rw [List.length_append, List.length_append]
    split <;> split <;> simp <;> omega
  have hvalue : (Nat.ofDigitChars 10 (wholeDigits v.natAbs scale) 0 * 10 ^ scale +
      Nat.ofDigitChars 10 (padEnd scale (fractionDigits v.natAbs scale)) 0 : ℤ) = v.natAbs := by
    rw [ofDigitChars_fractionDigits]
    unfold wholeDigits
    rw [Nat.ofDigitChars_ten_toDigits]
    exact_mod_cast Nat.div_add_mod' v.natAbs (10 ^ scale)
  unfold parseDecimal
  simp only [bind_eq_ok, checkScale_eq_ok, demand_eq_ok, require_eq_ok, String.toList_ofList,
    hparts,
    pure_eq_ok]
  refine ⟨(), hscale, (), hlength, _, rfl, (), ?_, (), ⟨hwhole, hfraction⟩, ?_⟩
  · intro hneg
    exact hsign (by simpa using hneg)
  · simp only [hvalue, decide_eq_true_eq]
    split <;> omega

/-- Whoever may not read a sign reads the same value, which is not negative. -/
theorem parseDecimal_unsigned {t : String} {scale : ℕ} {v : ℤ}
    (h : parseDecimal t scale false = .ok v) : parseDecimal t scale true = .ok v ∧ 0 ≤ v := by
  unfold parseDecimal at h ⊢
  simp only [bind_eq_ok, demand_eq_ok, require_eq_ok, pure_eq_ok] at h ⊢
  obtain ⟨u₁, hscale, u₂, hlength, ⟨negative, whole, fraction⟩, hparts, u₃, hsign, u₄, hdigits,
    hv⟩ := h
  refine ⟨⟨u₁, hscale, u₂, hlength, _, hparts, u₃, by simp, u₄, hdigits, hv⟩, ?_⟩
  have hpositive : negative = false := by
    cases negative with
    | false => rfl
    | true => exact absurd (hsign rfl) (by decide)
  rw [hpositive] at hv
  rw [← hv]
  simp only [Bool.false_eq_true, if_false]
  positivity

example : parseDecimal "12.5" 3 false = .ok 12500 := by decide

example : formatDecimal (-12500) 3 = .ok "-12.5" := by decide

end DirectTrade.Flow
