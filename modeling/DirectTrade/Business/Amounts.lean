import DirectTrade.Encoding.Value
import DirectTrade.Flow.Decimal
import Mathlib.Algebra.Order.Floor.Ring
import Mathlib.Data.Rat.Floor
import Mathlib.Tactic.FieldSimp

/-!
The amounts of a commercial document: decimal texts read as integers of a scale, products of
two of them rounded to a third scale, and the rational numbers that the texts and the integers
stand for.
-/

namespace DirectTrade.Business

open Encoding Library Outcome Flow

/-- The characters of a text; a unit that is none of them is no digit, sign or point either. -/
def written (t : Text) : String := String.ofList (t.map Char.ofNat)

/-- `parseDecimal` of a value of any type. -/
def parseDecimal (value : Value) (scale : ℕ) (allowNegative : Bool) : Except String ℤ :=
  match value with
  | .str t => Flow.parseDecimal (written t) scale allowNegative
  | _ => do
    checkScale scale
    .error "expected bounded decimal string"

/-- Half away from zero at ties. -/
def multiplyRounded (a : ℤ) (aScale : ℕ) (b : ℤ) (bScale resultScale : ℕ) : Except String ℤ := do
  checkScale aScale
  checkScale bScale
  checkScale resultScale
  let product := a * b
  if aScale + bScale ≤ resultScale then pure (product * 10 ^ (resultScale - (aScale + bScale)))
  else
    let divisor := 10 ^ (aScale + bScale - resultScale)
    let rounded : ℤ := ↑((product.natAbs + divisor / 2) / divisor)
    pure (if product < 0 then -rounded else rounded)

/-- The number that a decimal text denotes. -/
def denoted (value : Value) : Option ℚ :=
  match value with
  | .str t => (decimalParts (written t).toList).map fun (negative, whole, fraction) =>
    (if negative then -1 else 1) *
      ((Nat.ofDigitChars 10 (whole ++ fraction) 0 : ℕ) / 10 ^ fraction.length)
  | _ => none

/-- A number to so many places, halves rounded up. -/
def roundHalfUp (places : ℕ) (x : ℚ) : ℚ := ⌊x * 10 ^ places + 1 / 2⌋ / 10 ^ places

/-- The digits of a whole part and a fraction, in units of a scale that has all its places. -/
theorem denoted_digits (whole : List Char) {fraction : List Char} {scale : ℕ}
    (h : fraction.length ≤ scale) :
    ((Nat.ofDigitChars 10 (whole ++ fraction) 0 : ℕ) : ℚ) / 10 ^ fraction.length =
      ((Nat.ofDigitChars 10 whole 0 * 10 ^ scale +
        Nat.ofDigitChars 10 (padEnd scale fraction) 0 : ℕ) : ℚ) / 10 ^ scale := by
  have hfraction : Nat.ofDigitChars 10 (padEnd scale fraction) 0 =
      10 ^ (scale - fraction.length) * Nat.ofDigitChars 10 fraction 0 := by
    rw [padEnd, Nat.ofDigitChars_append, Nat.ofDigitChars_replicate_zero]
  have hjoined : Nat.ofDigitChars 10 (whole ++ fraction) 0 =
      10 ^ fraction.length * Nat.ofDigitChars 10 whole 0 + Nat.ofDigitChars 10 fraction 0 := by
    rw [Nat.ofDigitChars_append, Nat.ofDigitChars_eq_ofDigitChars_zero]
  have hscale : (10 : ℚ) ^ scale = 10 ^ (scale - fraction.length) * 10 ^ fraction.length := by
    rw [← pow_add, Nat.sub_add_cancel h]
  rw [hfraction, hjoined]
  push_cast
  rw [hscale]
  field_simp

/-- What is read, a sign included, is what the text denotes in units of the scale. -/
theorem denoted_of_parse {value : Value} {scale : ℕ} {allowNegative : Bool} {n : ℤ}
    (h : parseDecimal value scale allowNegative = .ok n) :
    denoted value = some ((n : ℚ) / 10 ^ scale) := by
  cases value with
  | str t =>
    unfold parseDecimal Flow.parseDecimal at h
    simp only [bind_eq_ok, demand_eq_ok, require_eq_ok, pure_eq_ok] at h
    obtain ⟨_, _, _, _, ⟨negative, whole, fraction⟩, hparts, _, _, _, hdigits, hn⟩ := h
    simp only [denoted, hparts, Option.map_some, denoted_digits whole hdigits.2, ← hn]
    cases negative
    · simp
    · simp only [if_true]
      push_cast
      rw [neg_one_mul, neg_div]
  | undefined | null | bool | num | bigint | arr | obj | other =>
    simp only [parseDecimal, bind_eq_ok] at h
    obtain ⟨_, _, h⟩ := h
    cases h

/-- What is read is what the text denotes, in units of the scale. -/
theorem denoted_of_parseDecimal {value : Value} {scale : ℕ} {n : ℤ}
    (h : parseDecimal value scale false = .ok n) :
    denoted value = some ((n : ℚ) / 10 ^ scale) ∧ 0 ≤ n := by
  refine ⟨denoted_of_parse h, ?_⟩
  cases value with
  | str t => exact (parseDecimal_unsigned h).2
  | undefined | null | bool | num | bigint | arr | obj | other =>
    simp only [parseDecimal, bind_eq_ok] at h
    obtain ⟨_, _, h⟩ := h
    cases h

/-- A magnitude with more places than the result is divided, halves up. -/
theorem roundHalfUp_div (m : ℕ) {total places : ℕ} (h : places < total) :
    roundHalfUp places ((m : ℚ) / 10 ^ total) =
      ((m + 10 ^ (total - places) / 2) / 10 ^ (total - places) : ℕ) / 10 ^ places := by
  obtain ⟨k, hk⟩ := Nat.exists_eq_add_of_lt h
  have hdifference : total - places = k + 1 := by omega
  have hscaled : ((m : ℚ) / 10 ^ total * 10 ^ places + 1 / 2 : ℚ) =
      ((m + 10 ^ (k + 1) / 2 : ℕ) : ℚ) / ((10 ^ (k + 1) : ℕ) : ℚ) := by
    have hhalf : ((10 ^ (k + 1) / 2 : ℕ) : ℚ) = 10 ^ (k + 1) / 2 := by
      have hfive : 10 ^ (k + 1) / 2 = 5 * 10 ^ k := by
        rw [pow_succ]
        omega
      rw [hfive, pow_succ]
      push_cast
      ring
    have hpower : (10 : ℚ) ^ total = 10 ^ places * 10 ^ (k + 1) := by
      rw [← pow_add, hk, Nat.add_assoc]
    push_cast
    rw [hhalf, hpower]
    field_simp
  unfold roundHalfUp
  rw [hdifference, hscaled, Rat.floor_natCast_div_natCast, ← Int.natCast_div, Int.cast_natCast]

/-- A magnitude with no more places than the result stays as it is. -/
theorem roundHalfUp_mul (m : ℕ) {total places : ℕ} (h : total ≤ places) :
    roundHalfUp places ((m : ℚ) / 10 ^ total) = (m * 10 ^ (places - total) : ℕ) / 10 ^ places := by
  have hscaled : (m : ℚ) / 10 ^ total * 10 ^ places = ((m * 10 ^ (places - total) : ℕ) : ℤ) := by
    have hpower : (10 : ℚ) ^ places = 10 ^ (places - total) * 10 ^ total := by
      rw [← pow_add, Nat.sub_add_cancel h]
    push_cast
    rw [hpower]
    field_simp
  have hfloor : ⌊(((m * 10 ^ (places - total) : ℕ) : ℤ) : ℚ) + 1 / 2⌋ =
      ((m * 10 ^ (places - total) : ℕ) : ℤ) := by
    rw [Int.floor_intCast_add]
    norm_num
  unfold roundHalfUp
  rw [hscaled, hfloor, Int.cast_natCast]

/-- A number to so many places, halves rounded away from zero. -/
def roundHalfAway (places : ℕ) (x : ℚ) : ℚ :=
  if x < 0 then -roundHalfUp places (-x) else roundHalfUp places x

/-- The product is taken exactly and rounded half away from zero, whatever the signs. -/
theorem multiplyRounded_exact (a b : ℤ) {aScale bScale resultScale : ℕ}
    (hscales : aScale ≤ 12 ∧ bScale ≤ 12 ∧ resultScale ≤ 12) :
    ∃ n : ℤ, multiplyRounded a aScale b bScale resultScale = .ok n ∧
      (n / 10 ^ resultScale : ℚ) =
        roundHalfAway resultScale (a / 10 ^ aScale * (b / 10 ^ bScale)) := by
  have hvalue : (a / 10 ^ aScale * (b / 10 ^ bScale) : ℚ) =
      ((a * b : ℤ) : ℚ) / 10 ^ (aScale + bScale) := by
    push_cast
    rw [pow_add]
    field_simp
  have hpower : (0 : ℚ) < 10 ^ (aScale + bScale) := by positivity
  rw [hvalue]
  unfold multiplyRounded roundHalfAway
  simp only [checkScale, demand, hscales, if_true, ok_bind]
  generalize a * b = p
  have hsign : ((p : ℚ) / 10 ^ (aScale + bScale) < 0) ↔ p < 0 := by
    rw [div_lt_iff₀ hpower, zero_mul]
    exact_mod_cast Iff.rfl
  obtain ⟨m, hm⟩ : ∃ m, p.natAbs = m := ⟨_, rfl⟩
  rw [hm]
  have hnegative : p < 0 → (p : ℚ) = -m ∧ p = -m := by
    intro hp
    have habs : p = -m := by omega
    refine ⟨?_, habs⟩
    rw [habs]
    push_cast
    rfl
  have hpositive : ¬ p < 0 → (p : ℚ) = m ∧ p = m := by
    intro hp
    have habs : p = m := by omega
    refine ⟨?_, habs⟩
    rw [habs]
    push_cast
    rfl
  by_cases hshift : aScale + bScale ≤ resultScale
  · have hround := roundHalfUp_mul m hshift
    rw [if_pos hshift]
    refine ⟨_, rfl, ?_⟩
    by_cases hp : p < 0
    · obtain ⟨hcast, habs⟩ := hnegative hp
      rw [if_pos (hsign.mpr hp), hcast, neg_div, neg_neg, hround, habs]
      push_cast
      ring
    · obtain ⟨hcast, habs⟩ := hpositive hp
      rw [if_neg (hsign.not.mpr hp), hcast, hround, habs]
      push_cast
      rfl
  · have hround := roundHalfUp_div m (Nat.lt_of_not_le hshift)
    rw [if_neg hshift]
    refine ⟨_, rfl, ?_⟩
    by_cases hp : p < 0
    · obtain ⟨hcast, habs⟩ := hnegative hp
      rw [if_pos (hsign.mpr hp), hcast, neg_div, neg_neg, hround, if_pos hp, Int.cast_neg,
        Int.cast_natCast, neg_div]
    · obtain ⟨hcast, habs⟩ := hpositive hp
      rw [if_neg (hsign.not.mpr hp), hcast, hround, if_neg hp, Int.cast_natCast]

/-- A product of amounts that are not negative is rounded half up. -/
theorem multiplyRounded_eq {a b : ℤ} {aScale bScale resultScale : ℕ} (ha : 0 ≤ a) (hb : 0 ≤ b)
    (hscales : aScale ≤ 12 ∧ bScale ≤ 12 ∧ resultScale ≤ 12) :
    ∃ n : ℤ, multiplyRounded a aScale b bScale resultScale = .ok n ∧
      (n / 10 ^ resultScale : ℚ) =
        roundHalfUp resultScale (a / 10 ^ aScale * (b / 10 ^ bScale)) := by
  obtain ⟨n, hn, hround⟩ := multiplyRounded_exact a b hscales
  have hpositive : ¬ (a / 10 ^ aScale * (b / 10 ^ bScale) : ℚ) < 0 := by
    rw [not_lt]
    have ha' : (0 : ℚ) ≤ a := by exact_mod_cast ha
    have hb' : (0 : ℚ) ≤ b := by exact_mod_cast hb
    positivity
  rw [roundHalfAway, if_neg hpositive] at hround
  exact ⟨n, hn, hround⟩

/-- A scale that no amount has is refused. -/
theorem multiplyRounded_refused (a b : ℤ) {aScale bScale resultScale : ℕ}
    (hscales : ¬ (aScale ≤ 12 ∧ bScale ≤ 12 ∧ resultScale ≤ 12)) :
    multiplyRounded a aScale b bScale resultScale = .error "unsupported decimal scale" := by
  unfold multiplyRounded
  simp only [checkScale, demand]
  by_cases ha : aScale ≤ 12
  · by_cases hb : bScale ≤ 12
    · have hresult : ¬ resultScale ≤ 12 := fun h => hscales ⟨ha, hb, h⟩
      rw [if_pos ha, if_pos hb, if_neg hresult]
      rfl
    · rw [if_pos ha, if_neg hb]
      rfl
  · rw [if_neg ha]
    rfl

example : multiplyRounded 12345 3 1000050 6 6 = .ok 12345617 := by decide

end DirectTrade.Business
