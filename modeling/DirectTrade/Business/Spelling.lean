import DirectTrade.Business.Amounts
import DirectTrade.Library.Digits

/-!
The spelling of an amount. Every text that is accepted denotes a number, every number has one
canonical spelling, and writing what was read gives that spelling.
-/

namespace DirectTrade.Business

open Encoding Library Outcome Flow Digits

theorem decimalParts_eq_some {chars : List Char} {negative : Bool} {whole fraction : List Char}
    (h : decimalParts chars = some (negative, whole, fraction)) :
    whole ≠ [] ∧ (∀ c ∈ whole, c.isDigit = true) ∧ (∀ c ∈ fraction, c.isDigit = true) ∧
      chars = (if negative then ['-'] else []) ++ whole ++
        if fraction = [] then [] else '.' :: fraction := by
  unfold decimalParts at h
  dsimp only at h
  have hsign : chars = (if decide (chars.head? = some '-') = true then ['-'] else []) ++
      (if chars.head? = some '-' then chars.tail else chars) := by
    cases chars with
    | nil => rfl
    | cons c rest =>
      by_cases hc : c = '-'
      · subst hc
        rfl
      · have hother : ¬ some c = some '-' := by simpa using hc
        simp [hother]
  generalize decide (chars.head? = some '-') = sign at h hsign
  generalize (if chars.head? = some '-' then chars.tail else chars) = body at h hsign
  have hbody : body.takeWhile Char.isDigit ++ body.dropWhile Char.isDigit = body :=
    List.takeWhile_append_dropWhile
  have hdigits : ∀ c ∈ body.takeWhile Char.isDigit, c.isDigit = true :=
    fun _ hc => List.mem_takeWhile_imp hc
  split at h
  next hnil =>
    split at h
    · exact nomatch h
    next hne =>
      simp only [Option.some.injEq, Prod.mk.injEq] at h
      obtain ⟨rfl, rfl, rfl⟩ := h
      rw [hnil, List.append_nil] at hbody
      refine ⟨hne, hdigits, (fun _ hc => nomatch hc), ?_⟩
      rw [if_pos rfl, List.append_nil, hbody]
      exact hsign
  next point tail hcons =>
    split at h
    next hshape =>
      simp only [Option.some.injEq, Prod.mk.injEq] at h
      obtain ⟨rfl, rfl, rfl⟩ := h
      obtain ⟨hne, rfl, hsome, hall⟩ := hshape
      refine ⟨hne, hdigits, List.all_eq_true.mp hall, ?_⟩
      rw [if_neg hsome, List.append_assoc, ← hcons, hbody]
      exact hsign
    · exact nomatch h

/-- The units of a text are those of its characters, when none of them is missing. -/
theorem units_written {t : Text} (h : ∀ c ∈ (written t).toList, c ≠ Char.ofNat 0) :
    units (written t) = t := by
  unfold units written
  rw [String.toList_ofList, List.map_map]
  conv_rhs => rw [← List.map_id t]
  apply List.map_congr_left
  intro u hu
  have hpresent : Char.ofNat u ≠ Char.ofNat 0 := by
    apply h
    unfold written
    rw [String.toList_ofList]
    exact List.mem_map_of_mem hu
  show (Char.ofNat u).toNat = u
  by_cases hvalid : u.isValidChar
  · unfold Char.ofNat
    rw [dif_pos hvalid]
    rfl
  · exfalso
    apply hpresent
    unfold Char.ofNat
    rw [dif_neg hvalid]
    rfl

theorem written_units (s : String) : written (units s) = s := by
  unfold units written
  rw [List.map_map]
  have hsame : (Char.ofNat ∘ Char.toNat) = id := by
    funext c
    exact Char.ofNat_toNat c
  rw [hsame, List.map_id, String.ofList_toList]

/-- No zero leads the whole part or ends the fraction, and zero has no sign. -/
structure Trimmed (negative : Bool) (whole fraction : List Char) : Prop where
  leads : Leads whole
  ends : fraction.getLast? ≠ some '0'
  signed : negative = true → whole ≠ ['0'] ∨ fraction ≠ []

/-- The one spelling of a number. -/
def Canonical (value : Value) : Prop :=
  ∃ t negative whole fraction, value = .str t ∧
    decimalParts (written t).toList = some (negative, whole, fraction) ∧
    Trimmed negative whole fraction

/-- A magnitude in units of a scale. -/
def unitsAt (scale : ℕ) (whole fraction : List Char) : ℕ :=
  Nat.ofDigitChars 10 whole 0 * 10 ^ scale + Nat.ofDigitChars 10 (padEnd scale fraction) 0

theorem padEnd_all {n : ℕ} {l : List Char} (h : ∀ c ∈ l, c.isDigit = true) :
    ∀ c ∈ padEnd n l, c.isDigit = true := by
  intro c hc
  rcases List.mem_append.mp hc with hc | hc
  · exact h c hc
  · rw [(List.mem_replicate.mp hc).2]
    rfl

theorem length_padEnd {n : ℕ} {l : List Char} (h : l.length ≤ n) : (padEnd n l).length = n := by
  rw [padEnd, List.length_append, List.length_replicate]
  omega

/-- The two parts of a number of units are the whole part and the fraction that it came from. -/
theorem unitsAt_parts (whole : List Char) {scale : ℕ} {fraction : List Char}
    (hfraction : ∀ c ∈ fraction, c.isDigit = true) (hlength : fraction.length ≤ scale) :
    unitsAt scale whole fraction / 10 ^ scale = Nat.ofDigitChars 10 whole 0 ∧
      unitsAt scale whole fraction % 10 ^ scale =
        Nat.ofDigitChars 10 (padEnd scale fraction) 0 := by
  have hsmall := ofDigitChars_lt (padEnd_all (n := scale) hfraction)
  rw [length_padEnd hlength] at hsmall
  have hpositive : 0 < 10 ^ scale := by positivity
  unfold unitsAt
  constructor
  · rw [Nat.add_comm, Nat.add_mul_div_right _ _ hpositive, Nat.div_eq_of_lt hsmall, Nat.zero_add]
  · rw [Nat.add_comm, Nat.add_mul_mod_self_right, Nat.mod_eq_of_lt hsmall]

/-- Zeros at the end are what is stripped of a fraction. -/
theorem strip_padEnd {n : ℕ} {fraction : List Char} (hends : fraction.getLast? ≠ some '0') :
    (padEnd n fraction).rdropWhile (· = '0') = fraction := by
  unfold padEnd
  generalize n - fraction.length = k
  induction k with
  | zero =>
    rw [List.replicate_zero, List.append_nil, List.rdropWhile_eq_self_iff]
    intro hne hlast
    apply hends
    rw [List.getLast?_eq_some_getLast hne]
    simpa using hlast
  | succ k ih =>
    rw [List.replicate_succ', ← List.append_assoc, List.rdropWhile_concat_pos _ _ _ (by simp)]
    exact ih

/-- A trimmed magnitude is written as it was. -/
theorem digits_unitsAt {whole fraction : List Char} {scale : ℕ} (hne : whole ≠ [])
    (hwhole : ∀ c ∈ whole, c.isDigit = true) (hfraction : ∀ c ∈ fraction, c.isDigit = true)
    (hleads : Leads whole) (hends : fraction.getLast? ≠ some '0')
    (hlength : fraction.length ≤ scale) :
    wholeDigits (unitsAt scale whole fraction) scale = whole ∧
      fractionDigits (unitsAt scale whole fraction) scale = fraction := by
  obtain ⟨hdiv, hmod⟩ := unitsAt_parts whole hfraction hlength
  constructor
  · rw [wholeDigits, hdiv, toDigits_ofDigitChars hwhole hne hleads]
  · by_cases hscale : 0 < scale
    · have hpadded : padStart scale (Nat.toDigits 10 (unitsAt scale whole fraction % 10 ^ scale)) =
          padEnd scale fraction := by
        apply ofDigitChars_inj
        · exact fun _ hc => isDigit_of_mem_padStart hc
        · exact padEnd_all hfraction
        · rw [length_padStart hscale, length_padEnd hlength]
        · rw [ofDigitChars_padStart, hmod]
      rw [fractionDigits, hpadded, strip_padEnd hends]
    · have hzero : scale = 0 := by omega
      subst hzero
      have hnone : fraction = [] := List.length_eq_zero_iff.mp (by omega)
      have hshort := length_fractionDigits_le (unitsAt 0 whole fraction) 0
      rw [hnone] at hshort ⊢
      exact List.length_eq_zero_iff.mp (by omega)

/-- The parts in which an amount is written are trimmed. -/
theorem trimmed_digits (v : ℤ) (scale : ℕ) :
    Trimmed (decide (v < 0)) (wholeDigits v.natAbs scale) (fractionDigits v.natAbs scale) where
  leads := leads_toDigits _
  ends hlast := by
    have hne : fractionDigits v.natAbs scale ≠ [] := by
      intro hnone
      rw [hnone] at hlast
      exact nomatch hlast
    have hkept := List.rdropWhile_last_not (p := (· = '0'))
      (padStart scale (Nat.toDigits 10 (v.natAbs % 10 ^ scale))) hne
    apply hkept
    rw [List.getLast?_eq_some_getLast hne, Option.some.injEq] at hlast
    rw [decide_eq_true_eq]
    exact hlast
  signed hnegative := by
    rw [decide_eq_true_eq] at hnegative
    by_contra hzero
    push Not at hzero
    obtain ⟨hwhole, hfraction⟩ := hzero
    have hdiv := Nat.ofDigitChars_ten_toDigits (n := v.natAbs / 10 ^ scale)
    have hmod := ofDigitChars_fractionDigits v.natAbs scale
    have hnone : Nat.ofDigitChars 10 ['0'] 0 = 0 := rfl
    rw [← wholeDigits, hwhole, hnone] at hdiv
    rw [hfraction, padEnd, Nat.ofDigitChars_append, Nat.ofDigitChars_replicate_zero,
      Nat.ofDigitChars_nil, Nat.mul_zero] at hmod
    have hsplit := Nat.div_add_mod v.natAbs (10 ^ scale)
    rw [← hdiv, ← hmod, Nat.mul_zero] at hsplit
    omega

/-- A decimal text is the text of its characters. -/
theorem units_of_parts {t : Text} {negative : Bool} {whole fraction : List Char}
    (h : decimalParts (written t).toList = some (negative, whole, fraction)) :
    t = units (String.ofList ((if negative then ['-'] else []) ++ whole ++
      if fraction = [] then [] else '.' :: fraction)) := by
  obtain ⟨-, hwhole, hfraction, hchars⟩ := decimalParts_eq_some h
  have hdigit : ∀ c : Char, c.isDigit = true → c ≠ Char.ofNat 0 := by
    intro c hc hnone
    rw [hnone] at hc
    exact absurd hc (by decide)
  have hpresent : ∀ c ∈ (written t).toList, c ≠ Char.ofNat 0 := by
    intro c hc
    rw [hchars] at hc
    simp only [List.mem_append] at hc
    rcases hc with (hc | hc) | hc
    · split at hc
      · rw [List.mem_singleton.mp hc]
        decide
      · exact nomatch hc
    · exact hdigit c (hwhole c hc)
    · split at hc
      · exact nomatch hc
      · rcases List.mem_cons.mp hc with hpoint | hc
        · rw [hpoint]
          decide
        · exact hdigit c (hfraction c hc)
  rw [← hchars, String.ofList_toList, units_written hpresent]

/-- A decimal text denotes its units at any scale that has all its places. -/
theorem denoted_of_parts {t : Text} {negative : Bool} {whole fraction : List Char} {scale : ℕ}
    (h : decimalParts (written t).toList = some (negative, whole, fraction))
    (hlength : fraction.length ≤ scale) :
    denoted (.str t) = some ((if negative then -1 else 1 : ℚ) *
      ((unitsAt scale whole fraction : ℚ) / 10 ^ scale)) := by
  simp only [denoted, h, Option.map_some, denoted_digits whole hlength]
  rfl

theorem eq_zero_of_unitsAt {whole fraction : List Char} {scale : ℕ} (hne : whole ≠ [])
    (hwhole : ∀ c ∈ whole, c.isDigit = true) (hfraction : ∀ c ∈ fraction, c.isDigit = true)
    (hleads : Leads whole) (hends : fraction.getLast? ≠ some '0')
    (hlength : fraction.length ≤ scale) (hzero : unitsAt scale whole fraction = 0) :
    whole = ['0'] ∧ fraction = [] := by
  have hnone : unitsAt scale ['0'] [] = 0 := by
    unfold unitsAt padEnd
    rw [List.nil_append, Nat.ofDigitChars_replicate_zero, Nat.mul_zero]
    exact Nat.zero_mul _
  have hzeroDigit : ∀ c ∈ ['0'], c.isDigit = true := by
    intro c hc
    rw [List.mem_singleton.mp hc]
    rfl
  have hdigits := digits_unitsAt hne hwhole hfraction hleads hends hlength
  have hdigits' := @digits_unitsAt ['0'] [] scale
    (List.cons_ne_nil _ _) hzeroDigit (fun _ hc => nomatch hc) (Or.inl rfl) (by decide)
    (Nat.zero_le _)
  rw [hzero] at hdigits
  rw [hnone] at hdigits'
  exact ⟨hdigits.1.symm.trans hdigits'.1, hdigits.2.symm.trans hdigits'.2⟩

theorem canonical_unique {v w : Value} (hv : Canonical v) (hw : Canonical w)
    (h : denoted v = denoted w) : v = w := by
  obtain ⟨t, negative, whole, fraction, rfl, hparts, htrimmed⟩ := hv
  obtain ⟨t', negative', whole', fraction', rfl, hparts', htrimmed'⟩ := hw
  obtain ⟨hne, hwhole, hfraction, -⟩ := decimalParts_eq_some hparts
  obtain ⟨hne', hwhole', hfraction', -⟩ := decimalParts_eq_some hparts'
  have hscale : fraction.length ≤ max fraction.length fraction'.length := Nat.le_max_left _ _
  have hscale' : fraction'.length ≤ max fraction.length fraction'.length := Nat.le_max_right _ _
  rw [denoted_of_parts hparts hscale, denoted_of_parts hparts' hscale'] at h
  generalize max fraction.length fraction'.length = scale at hscale hscale' h
  have hzero := eq_zero_of_unitsAt hne hwhole hfraction htrimmed.leads htrimmed.ends hscale
  have hzero' := eq_zero_of_unitsAt hne' hwhole' hfraction' htrimmed'.leads htrimmed'.ends hscale'
  have hdigits := digits_unitsAt hne hwhole hfraction htrimmed.leads htrimmed.ends hscale
  have hdigits' := digits_unitsAt hne' hwhole' hfraction' htrimmed'.leads htrimmed'.ends hscale'
  have hpower : (10 : ℚ) ^ scale ≠ 0 := by positivity
  have hsigned : (if negative then -1 else 1 : ℤ) * unitsAt scale whole fraction =
      (if negative' then -1 else 1) * unitsAt scale whole' fraction' := by
    rw [Option.some.injEq, ← mul_div_assoc, ← mul_div_assoc, div_left_inj' hpower] at h
    exact_mod_cast h
  have hparts_eq : negative = negative' ∧ whole = whole' ∧ fraction = fraction' := by
    by_cases hsame : negative = negative'
    · have hunits : unitsAt scale whole fraction = unitsAt scale whole' fraction' := by
        rw [hsame] at hsigned
        split at hsigned <;> omega
      rw [hunits] at hdigits
      exact ⟨hsame, hdigits.1.symm.trans hdigits'.1, hdigits.2.symm.trans hdigits'.2⟩
    · -- only zero would be of both signs, and zero has none
      have hnone : unitsAt scale whole fraction = 0 ∧ unitsAt scale whole' fraction' = 0 := by
        cases negative <;> cases negative' <;> simp at hsame hsigned <;> omega
      have hboth := hzero hnone.1
      have hboth' := hzero' hnone.2
      have hpositive : negative = false := by
        cases negative with
        | false => rfl
        | true => exact ((htrimmed.signed rfl).elim (· hboth.1) (· hboth.2)).elim
      have hpositive' : negative' = false := by
        cases negative' with
        | false => rfl
        | true => exact ((htrimmed'.signed rfl).elim (· hboth'.1) (· hboth'.2)).elim
      exact absurd (hpositive.trans hpositive'.symm) hsame
  obtain ⟨rfl, rfl, rfl⟩ := hparts_eq
  rw [units_of_parts hparts, units_of_parts hparts']

theorem parse_units {u : String} {scale : ℕ} {allowNegative : Bool} :
    parseDecimal (.str (units u)) scale allowNegative =
      Flow.parseDecimal u scale allowNegative := by
  rw [parseDecimal, written_units]

theorem formatDecimal_total {v : ℤ} {scale : ℕ} :
    (∃ u, formatDecimal v scale = .ok u) ↔
      scale ≤ 12 ∧ v.natAbs < 10 ^ (maxIntegerDigits + scale) := by
  constructor
  · intro ⟨u, hu⟩
    exact ⟨(formatDecimal_eq_ok.mp hu).1, (formatDecimal_eq_ok.mp hu).2.1⟩
  · intro ⟨hscale, hbound⟩
    exact ⟨_, formatDecimal_eq_ok.mpr ⟨hscale, hbound, rfl⟩⟩

theorem canonical_formatDecimal {v : ℤ} {scale : ℕ} {u : String}
    (h : formatDecimal v scale = .ok u) : Canonical (.str (units u)) := by
  obtain ⟨-, -, rfl⟩ := formatDecimal_eq_ok.mp h
  refine ⟨_, _, _, _, rfl, ?_, trimmed_digits v scale⟩
  have hparts := @decimalParts_written (decide (v < 0)) (wholeDigits v.natAbs scale)
    (fractionDigits v.natAbs scale) Nat.toDigits_ne_nil wholeDigits_all fractionDigits_all
  simp only [decide_eq_true_eq] at hparts
  rw [written_units, String.toList_ofList, hparts]

/-- A sign that may not be read is refused as such. -/
theorem parse_negative {value : Value} {scale : ℕ} {v : ℤ}
    (h : parseDecimal value scale true = .ok v) (hv : v < 0) :
    parseDecimal value scale false = .error "negative amount is not permitted" := by
  cases value with
  | str t =>
    unfold parseDecimal Flow.parseDecimal at h ⊢
    simp only [bind_eq_ok, demand_eq_ok, require_eq_ok, pure_eq_ok] at h
    obtain ⟨_, hscale, _, hlength, ⟨negative, whole, fraction⟩, hparts, _, -, _, -, hvalue⟩ := h
    have hnegative : negative = true := by
      cases negative with
      | true => rfl
      | false =>
        simp only [Bool.false_eq_true, if_false] at hvalue
        have : 0 ≤ v := by
          rw [← hvalue]
          positivity
        omega
    subst hnegative
    simp only [checkScale_eq_ok] at hscale
    simp only [checkScale, demand, hscale, hlength, hparts, Outcome.require, if_true, ok_bind]
    rfl
  | undefined | null | bool | num | bigint | arr | obj | other =>
    simp only [parseDecimal, bind_eq_ok] at h
    obtain ⟨_, _, h⟩ := h
    cases h

/-- What is read can be written. -/
theorem formatDecimal_of_parse {value : Value} {scale : ℕ} {allowNegative : Bool} {v : ℤ}
    (h : parseDecimal value scale allowNegative = .ok v) :
    ∃ u, formatDecimal v scale = .ok u := by
  cases value with
  | str t =>
    unfold parseDecimal Flow.parseDecimal at h
    simp only [bind_eq_ok, demand_eq_ok, require_eq_ok, pure_eq_ok, checkScale_eq_ok] at h
    obtain ⟨_, hscale, _, -, ⟨negative, whole, fraction⟩, hparts, _, -, _, hdigits, hvalue⟩ := h
    obtain ⟨-, hwhole, hfraction, -⟩ := decimalParts_eq_some hparts
    rw [formatDecimal_total]
    refine ⟨hscale, ?_⟩
    have habs : v.natAbs = unitsAt scale whole fraction := by
      unfold unitsAt
      rw [← hvalue]
      split
      · rw [Int.natAbs_neg]
        exact_mod_cast Int.natAbs_natCast _
      · exact_mod_cast Int.natAbs_natCast _
    have hlow := ofDigitChars_lt (padEnd_all (n := scale) hfraction)
    rw [length_padEnd hdigits.2] at hlow
    have hhigh : Nat.ofDigitChars 10 whole 0 + 1 ≤ 10 ^ maxIntegerDigits :=
      (ofDigitChars_lt hwhole).trans_le (Nat.pow_le_pow_right (by decide) hdigits.1)
    have hscaled := Nat.mul_le_mul_right (10 ^ scale) hhigh
    rw [Nat.add_mul, Nat.one_mul] at hscaled
    rw [habs, pow_add]
    unfold unitsAt
    omega
  | undefined | null | bool | num | bigint | arr | obj | other =>
    simp only [parseDecimal, bind_eq_ok] at h
    obtain ⟨_, _, h⟩ := h
    exact nomatch h

theorem denoted_formatDecimal {v : ℤ} {scale : ℕ} {u : String}
    (h : formatDecimal v scale = .ok u) :
    denoted (.str (units u)) = some ((v : ℚ) / 10 ^ scale) := by
  apply @denoted_of_parse _ _ true
  rw [parse_units]
  exact parseDecimal_formatDecimal h fun _ => rfl

/-- Amounts are exact: an amount within the bound is written and read back, what is accepted has
one canonical spelling, which is the one it is written in, texts are equal amounts when they
denote the same number, and a product is rounded half away from zero. -/
theorem amounts_exact (scale : ℕ) :
    (∀ v : ℤ, (∃ u, formatDecimal v scale = .ok u) ↔
      scale ≤ 12 ∧ v.natAbs < 10 ^ (maxIntegerDigits + scale)) ∧
    (∀ (v : ℤ) (u : String), formatDecimal v scale = .ok u →
      parseDecimal (.str (units u)) scale true = .ok v ∧
        parseDecimal (.str (units u)) scale false =
          if v < 0 then .error "negative amount is not permitted" else .ok v) ∧
    (∀ (value : Value) (allowNegative : Bool) (v : ℤ),
      parseDecimal value scale allowNegative = .ok v →
        ∃ u, formatDecimal v scale = .ok u ∧ Canonical (.str (units u)) ∧
          denoted (.str (units u)) = denoted value ∧
          ∀ w, Canonical w → denoted w = denoted value → w = .str (units u)) ∧
    (∀ (value value' : Value) (allowNegative allowNegative' : Bool) (v v' : ℤ),
      parseDecimal value scale allowNegative = .ok v →
      parseDecimal value' scale allowNegative' = .ok v' →
        (v = v' ↔ denoted value = denoted value')) ∧
    ∀ (a b : ℤ) (aScale bScale : ℕ),
      if aScale ≤ 12 ∧ bScale ≤ 12 ∧ scale ≤ 12 then
        ∃ n : ℤ, multiplyRounded a aScale b bScale scale = .ok n ∧
          (n / 10 ^ scale : ℚ) = roundHalfAway scale (a / 10 ^ aScale * (b / 10 ^ bScale))
      else multiplyRounded a aScale b bScale scale = .error "unsupported decimal scale" := by
  refine ⟨fun _ => formatDecimal_total, ?_, ?_, ?_, ?_⟩
  · intro v u hu
    have hsigned : parseDecimal (.str (units u)) scale true = .ok v := by
      rw [parse_units]
      exact parseDecimal_formatDecimal hu fun _ => rfl
    refine ⟨hsigned, ?_⟩
    by_cases hv : v < 0
    · rw [if_pos hv]
      exact parse_negative hsigned hv
    · rw [if_neg hv, parse_units]
      exact parseDecimal_formatDecimal hu fun h => absurd h hv
  · intro value allowNegative v hv
    obtain ⟨u, hu⟩ := formatDecimal_of_parse hv
    have hsame : denoted (.str (units u)) = denoted value := by
      rw [denoted_formatDecimal hu, denoted_of_parse hv]
    refine ⟨u, hu, canonical_formatDecimal hu, hsame, ?_⟩
    intro w hw hdenoted
    exact canonical_unique hw (canonical_formatDecimal hu) (hdenoted.trans hsame.symm)
  · intro value value' allowNegative allowNegative' v v' hv hv'
    have hpower : (10 : ℚ) ^ scale ≠ 0 := by positivity
    rw [denoted_of_parse hv, denoted_of_parse hv', Option.some.injEq, div_left_inj' hpower]
    exact_mod_cast Iff.rfl
  · intro a b aScale bScale
    by_cases hscales : aScale ≤ 12 ∧ bScale ≤ 12 ∧ scale ≤ 12
    · rw [if_pos hscales]
      exact multiplyRounded_exact a b hscales
    · rw [if_neg hscales]
      exact multiplyRounded_refused a b hscales

/-- "12.5" and "0012.50" are one amount, and "12.5" is its spelling. -/
theorem amounts_exact_sample :
    (12500 = (12500 : ℤ) ↔
      denoted (.str (units "12.5")) = denoted (.str (units "0012.50"))) ∧
    parseDecimal (.str (units "-12.5")) 3 true = .ok (-12500) := by
  have hall := amounts_exact 3
  exact ⟨hall.2.2.2.1 _ _ false true _ _ (by decide) (by decide),
    (hall.2.1 (-12500) "-12.5" (by decide)).1⟩

end DirectTrade.Business
