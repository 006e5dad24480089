import DirectTrade.Encoding.Guard
import DirectTrade.Encoding.Parse
import Mathlib.Data.List.Lex
import Mathlib.Data.List.Sort

/-!
Canonical JSON: members in the order of their names, integers as the only numbers, no escape that
is not needed. The canonical text of a value is the text of a tree of the grammar, so what the
grammar is known to do, it does for canonical texts.
-/

namespace DirectTrade.Encoding

open Library Outcome

/-- A number that is no safe integer, or anything else that cannot be written, and its path. -/
inductive CanonicalizationError where
  | floatNotAllowed (path : Text)
  | refused (path : Text) (message : String)
  deriving DecidableEq

def maxSafe : ℤ := 9007199254740991

/-- The digits of a number. -/
def decimal (n : ℕ) : Text :=
  if n < 10 then [0x30 + n] else decimal (n / 10) ++ [0x30 + n % 10]
  termination_by n

def integerText (n : ℤ) : Text := (if n < 0 then [0x2d] else []) ++ decimal n.natAbs

/-- The integer that a number is, when it is a safe one. -/
def safeInteger (n : Number) : Option ℤ :=
  match n.value? with
  | none => none
  | some q => if q.den = 1 ∧ |q.num| ≤ maxSafe then some q.num else none

def checkNumber (n : Number) (path : Text) : Except CanonicalizationError ℤ :=
  require (.floatNotAllowed path) (safeInteger n)

/-- A high surrogate that no low one follows, or a low one that no high one precedes. -/
def hasLoneSurrogate : (previous : ℕ) → Text → Bool
  | _, [] => false
  | previous, u :: rest =>
    (isHighSurrogate u && !(rest.head?.any isLowSurrogate)) ||
      (isLowSurrogate u && !isHighSurrogate previous) || hasLoneSurrogate u rest

def checkString (s path : Text) : Except CanonicalizationError Unit :=
  demand (.refused path "lone surrogate in string (RFC 8785 requires well-formed Unicode)")
    (hasLoneSurrogate 0 s = false)

/-- A unit that a name may hold. -/
def isNameUnit (u : ℕ) : Bool := u ≠ quote && u ≠ reverseSolidus && 0x20 ≤ u

def checkName (name path : Text) : Except CanonicalizationError Unit :=
  demand (.refused path ("member name contains a quotation mark, a reverse solidus or a control " ++
    "character, which DTP refuses")) (name.all isNameUnit = true)

def hexUnit (n : ℕ) : ℕ := if n < 10 then 0x30 + n else 0x61 + (n - 10)

def hexEscape (u : ℕ) : Text :=
  [reverseSolidus, 0x75, hexUnit (u / 4096), hexUnit (u / 256 % 16), hexUnit (u / 16 % 16),
    hexUnit (u % 16)]

def escapeUnit (u : ℕ) : Text :=
  if u = 0x08 then [reverseSolidus, 0x62]
  else if u = 0x09 then [reverseSolidus, 0x74]
  else if u = 0x0a then [reverseSolidus, 0x6e]
  else if u = 0x0c then [reverseSolidus, 0x66]
  else if u = 0x0d then [reverseSolidus, 0x72]
  else if u = quote || u = reverseSolidus then [reverseSolidus, u]
  else if u < 0x20 then hexEscape u
  else [u]

/-- What `JSON.stringify` writes between the quotes: surrogates that form no pair are escaped. -/
def escapeText : Text → Text
  | [] => []
  | [u] => if isHighSurrogate u || isLowSurrogate u then hexEscape u else escapeUnit u
  | u :: v :: rest =>
    if isHighSurrogate u && isLowSurrogate v then u :: v :: escapeText rest
    else (if isHighSurrogate u || isLowSurrogate u then hexEscape u else escapeUnit u) ++
      escapeText (v :: rest)

def stringify (s : Text) : Text := quote :: escapeText s ++ [quote]

def memberPath (path name : Text) : Text := path ++ 0x2e :: name

def itemPath (path : Text) (i : ℕ) : Text := path ++ openArray :: decimal i ++ [closeArray]

/-- Names are ordered by their units. -/
def compareKeys {α : Type} (a b : Text × α) : Prop := a.1 ≤ b.1

instance {α : Type} : DecidableRel (compareKeys (α := α)) :=
  fun a b => inferInstanceAs (Decidable (a.1 ≤ b.1))

def sortByName {α : Type} (members : List (Text × α)) : List (Text × α) :=
  members.insertionSort compareKeys

/-- A member, once its value has been written. -/
def writeMember (path : Text) (part : Text × Except CanonicalizationError Text) :
    Except CanonicalizationError Text := do
  checkString part.1 (memberPath path part.1)
  checkName part.1 (memberPath path part.1)
  let text ← part.2
  pure (stringify part.1 ++ colon :: text)

mutual

def serialize : Value → Text → Except CanonicalizationError Text
  | .undefined, _ | .null, _ => .ok Literal.null.text
  | .bool b, _ => .ok (if b then Literal.true.text else Literal.false.text)
  | .num n, path => do
    let i ← checkNumber n path
    pure (integerText i)
  | .str s, path => do
    checkString s path
    pure (stringify s)
  | .bigint _, path => .error (.refused path "bigint not allowed")
  | .arr items, path => do
    let parts ← serializeItems items path 0
    pure (openArray :: joined parts ++ [closeArray])
  | .obj members, path => do
    let parts ← (sortByName (serializeMembers members path)).mapM (writeMember path)
    pure (openObject :: joined parts ++ [closeObject])
  | .other type, path => .error (.refused path ("unsupported value type " ++ type))

def serializeItems : List Value → Text → ℕ → Except CanonicalizationError (List Text)
  | [], _, _ => .ok []
  | value :: rest, path, i => do
    let part ← serialize value (itemPath path i)
    let parts ← serializeItems rest path (i + 1)
    pure (part :: parts)

/-- What each member is written as; a member that is undefined is left out. -/
def serializeMembers : List (Text × Value) → Text →
    List (Text × Except CanonicalizationError Text)
  | [], _ => []
  | (_, .undefined) :: rest, path => serializeMembers rest path
  | (name, value) :: rest, path =>
    (name, serialize value (memberPath path name)) :: serializeMembers rest path

end

def canonicalize (value : Value) : Except CanonicalizationError Text := serialize value (units "$")

inductive UntrustedJsonError where
  | unsafeJson (e : UnsafeJsonError)
  | syntaxError (message : String)

/-- The guard, then the parser. -/
def parseUntrustedJson (text : Text) (integerNumbers : Bool) : Except UntrustedJsonError Value :=
  match assertSafeJsonText text integerNumbers with
  | .error e => .error (.unsafeJson e)
  | .ok _ =>
    match parse text with
    | .error message => .error (.syntaxError message)
    | .ok value => .ok value

/-- What JSON can write: no value is missing, and an object has one member of each name. -/
inductive Value.Plain : Value → Prop
  | null : Plain .null
  | bool (b : Bool) : Plain (.bool b)
  | num {n : Number} (h : n.value?.isSome = true) : Plain (.num n)
  | str (s : Text) : Plain (.str s)
  | arr {items : List Value} (h : ∀ x ∈ items, Plain x) : Plain (.arr items)
  | obj {members : List (Text × Value)} (hdistinct : (members.map Prod.fst).Nodup)
      (h : ∀ m ∈ members, Plain m.2) : Plain (.obj members)

mutual

/-- Equal up to the order of members, numbers being compared as numbers. -/
def Same : Value → Value → Prop
  | .null, .null => True
  | .bool a, .bool b => a = b
  | .num a, .num b => a.equals b = true
  | .str a, .str b => a = b
  | .arr a, .arr b => SameItems a b
  | .obj a, .obj b => a.length = b.length ∧ SameMembers a b
  | _, _ => False

def SameItems : List Value → List Value → Prop
  | [], [] => True
  | x :: a, y :: b => Same x y ∧ SameItems a b
  | _, _ => False

/-- Each member of the first has its equal of the same name in the second. -/
def SameMembers : List (Text × Value) → List (Text × Value) → Prop
  | [], _ => True
  | (name, x) :: a, b => (∃ y, (name, y) ∈ b ∧ Same x y) ∧ SameMembers a b

end

mutual

/-- The names of the members of a value, at any depth. -/
def Value.names : Value → List Text
  | .arr items => itemsNames items
  | .obj members => membersNames members
  | _ => []

def itemsNames : List Value → List Text
  | [] => []
  | value :: rest => value.names ++ itemsNames rest

def membersNames : List (Text × Value) → List Text
  | [] => []
  | (name, value) :: rest => name :: value.names ++ membersNames rest

end

def Number.normal : Number → Number
  | .negativeZero => .finite 0
  | n => n

mutual

/-- The value with its members in order and no negative zero. -/
def normal : Value → Value
  | .num n => .num n.normal
  | .arr items => .arr (normalItems items)
  | .obj members => .obj (sortByName (normalMembers members))
  | value => value

def normalItems : List Value → List Value
  | [] => []
  | value :: rest => normal value :: normalItems rest

def normalMembers : List (Text × Value) → List (Text × Value)
  | [] => []
  | (name, value) :: rest => (name, normal value) :: normalMembers rest

end

theorem decimal_digits (n : ℕ) : ∀ u ∈ decimal n, isDigit u = true := by
  induction n using decimal.induct with
  | case1 n h =>
    rw [decimal, if_pos h]
    intro u hu
    rw [List.mem_singleton.mp hu, isDigit_iff]
    omega
  | case2 n h ih =>
    rw [decimal, if_neg h]
    intro u hu
    rcases List.mem_append.mp hu with hu | hu
    · exact ih u hu
    · rw [List.mem_singleton.mp hu, isDigit_iff]
      omega

theorem digitsValue_append (t : Text) (u : ℕ) :
    digitsValue (t ++ [u]) = digitsValue t * 10 + (u - 0x30) := by
  simp [digitsValue]

theorem digitsValue_decimal (n : ℕ) : digitsValue (decimal n) = n := by
  induction n using decimal.induct with
  | case1 n h =>
    rw [decimal, if_pos h]
    simp [digitsValue]
  | case2 n h ih =>
    rw [decimal, if_neg h, digitsValue_append, ih]
    omega

/-- No digit zero is written before others. -/
theorem decimal_head (n : ℕ) :
    ∃ c rest, decimal n = c :: rest ∧ (c = 0x30 → rest = []) := by
  have hpositive : ∀ m, 0 < m → ∃ c rest, decimal m = c :: rest ∧ c ≠ 0x30 := by
    intro m
    induction m using decimal.induct with
    | case1 m h =>
      intro hpos
      refine ⟨0x30 + m, [], by rw [decimal, if_pos h], ?_⟩
      omega
    | case2 m h ih =>
      intro hpos
      obtain ⟨c, rest, heq, hc⟩ := ih (by omega)
      exact ⟨c, rest ++ [0x30 + m % 10], by rw [decimal, if_neg h, heq, List.cons_append], hc⟩
  by_cases hzero : n = 0
  · subst hzero
    exact ⟨0x30, [], by rw [decimal, if_pos (by decide)], fun _ => rfl⟩
  · obtain ⟨c, rest, heq, hc⟩ := hpositive n (Nat.pos_of_ne_zero hzero)
    exact ⟨c, rest, heq, fun h => absurd h hc⟩

/-- An integer is written as a sign and a whole part. -/
theorem numberParts_integerText (n : ℤ) : numberParts (integerText n) =
    some { negative := n < 0, whole := decimal n.natAbs, fraction := [],
           negativeExponent := false, exponent := [] } := by
  obtain ⟨c, rest, hdecimal, hzero⟩ := decimal_head n.natAbs
  have hdigits := decimal_digits n.natAbs
  have hc : isDigit c = true := hdigits c (by rw [hdecimal]; exact List.mem_cons_self ..)
  have hminus : c ≠ 0x2d := by
    rw [isDigit_iff] at hc
    omega
  have hunsigned : unsigned (integerText n) = decimal n.natAbs := by
    unfold unsigned integerText
    by_cases hneg : n < 0
    · simp [hneg]
    · simp [hneg, hdecimal, hminus]
  have hsign : ((integerText n).head? = some 0x2d) = (n < 0) := by
    unfold integerText
    by_cases hneg : n < 0
    · simp [hneg]
    · simp [hneg, hdecimal, hminus]
  have hwhole : wholeParts (decimal n.natAbs) = some (decimal n.natAbs, []) := by
    have htake : (decimal n.natAbs).takeWhile isDigit = decimal n.natAbs :=
      List.takeWhile_eq_self_iff.mpr hdigits
    have hdrop : (decimal n.natAbs).dropWhile isDigit = [] := List.dropWhile_eq_nil_iff.mpr hdigits
    unfold wholeParts
    simp only [htake, hdrop]
    rw [if_neg]
    rw [hdecimal]
    simp only [List.cons_ne_nil, false_or, List.head?_cons, Option.some.injEq, not_and, ne_eq,
      not_not]
    intro hc0
    rw [hzero hc0, hc0]
  unfold numberParts
  rw [hunsigned, hwhole]
  simp only [Option.bind_eq_bind, Option.bind_some, fractionParts, exponentParts, hsign]

theorem integerText_marks (n : ℤ) : ∀ u ∈ integerText n, isMark u = false := by
  intro u hu
  unfold integerText at hu
  rcases List.mem_append.mp hu with hu | hu
  · split at hu
    · rw [List.mem_singleton.mp hu]
      decide
    · exact nomatch hu
  · have hdigit := decimal_digits _ u hu
    rw [isDigit_iff] at hdigit
    simp only [isMark, Bool.or_eq_false_iff, decide_eq_false_iff_not]
    omega

theorem roundHalfEven_intCast (n : ℤ) : roundHalfEven n = n := by
  unfold roundHalfEven
  rw [Int.floor_intCast, sub_self, if_pos (by norm_num)]

/-- A safe integer is a number of 64 bits. -/
theorem nearest_intCast {n : ℤ} (h : |n| ≤ maxSafe) : nearest n = .finite n := by
  have habs : |(n : ℚ)| = (n.natAbs : ℕ) := by
    rw [← Int.cast_abs, Int.abs_eq_natAbs]
    rfl
  have hsmall : n.natAbs < 2 ^ 53 := by
    unfold maxSafe at h
    rw [Int.abs_eq_natAbs] at h
    omega
  have hlog : Int.log 2 |(n : ℚ)| ≤ 52 := by
    rw [habs, Int.log_natCast]
    by_cases hzero : n.natAbs = 0
    · rw [hzero]
      simp
    · have hlt := Nat.log_lt_of_lt_pow hzero hsmall
      omega
  have hexponent : ∃ k : ℕ, max (Int.log 2 |(n : ℚ)| - 52) (-1074) = -(k : ℤ) :=
    ⟨(-(max (Int.log 2 |(n : ℚ)| - 52) (-1074))).toNat, by omega⟩
  obtain ⟨k, hk⟩ := hexponent
  have hscaled : (n : ℚ) / 2 ^ (-(k : ℤ)) = ((n * 2 ^ k : ℤ) : ℚ) := by
    rw [zpow_neg, div_inv_eq_mul, zpow_natCast]
    push_cast
    rfl
  have hrounded : (roundHalfEven ((n : ℚ) / 2 ^ (-(k : ℤ))) : ℚ) * 2 ^ (-(k : ℤ)) = n := by
    rw [hscaled, roundHalfEven_intCast, zpow_neg, zpow_natCast]
    push_cast
    rw [mul_assoc, mul_inv_cancel₀ (by positivity), mul_one]
  have hbound : ¬ (2 : ℚ) ^ 1024 ≤ |(n : ℚ)| := by
    have hle : |(n : ℚ)| ≤ maxSafe := by
      rw [← Int.cast_abs]
      exact_mod_cast h
    have hlt : (maxSafe : ℚ) < 2 ^ 1024 := by
      have hword : (maxSafe : ℚ) < 2 ^ 53 := by
        unfold maxSafe
        norm_num
      exact hword.trans_le (pow_le_pow_right₀ (by norm_num) (by norm_num))
    exact not_le.mpr (hle.trans_lt hlt)
  unfold nearest
  simp only [hk, hrounded]
  rw [if_neg hbound, if_neg]
  intro ⟨hzero, hneg⟩
  rw [hzero] at hneg
  exact absurd hneg (lt_irrefl _)

theorem numberValue_integerText {n : ℤ} (h : |n| ≤ maxSafe) :
    numberValue (integerText n) = .finite n := by
  have hvalue : ((digitsValue (decimal n.natAbs ++ []) : ℕ) : ℚ) *
      10 ^ ((1 : ℤ) * ((digitsValue [] : ℕ) : ℤ) - (([] : Text).length : ℕ)) = n.natAbs := by
    rw [List.append_nil, digitsValue_decimal]
    simp [digitsValue]
  unfold numberValue
  rw [numberParts_integerText]
  simp only [Bool.false_eq_true, if_false, hvalue, decide_eq_true_eq]
  by_cases hneg : n < 0
  · have hne : ¬ ((n.natAbs : ℕ) : ℚ) = 0 := by
      rw [Nat.cast_eq_zero]
      omega
    have hminus : -((n.natAbs : ℕ) : ℚ) = (n : ℚ) := by
      have hint : ((n.natAbs : ℕ) : ℤ) = -n := by omega
      rw [← Int.cast_natCast, hint, Int.cast_neg, neg_neg]
    rw [if_pos hneg, if_neg hne, hminus, nearest_intCast h]
  · have hplus : ((n.natAbs : ℕ) : ℚ) = (n : ℚ) := by
      have hint : ((n.natAbs : ℕ) : ℤ) = n := by omega
      rw [← Int.cast_natCast, hint]
    rw [if_neg hneg, hplus, nearest_intCast h]

theorem hexUnit_spec {n : ℕ} (h : n < 16) :
    isHex (hexUnit n) = true ∧ hexValue (hexUnit n) = n := by
  unfold hexUnit
  by_cases hdigit : n < 10
  · have hd : isDigit (0x30 + n) = true := isDigit_iff.mpr (by omega)
    rw [if_pos hdigit]
    refine ⟨by simp [isHex, hd], ?_⟩
    rw [hexValue, if_pos hd]
    omega
  · have hd : ¬ isDigit (0x61 + (n - 10)) = true := by
      rw [isDigit_iff]
      omega
    rw [if_neg hdigit]
    constructor
    · simp only [isHex, Bool.or_eq_true, Bool.and_eq_true, decide_eq_true_eq]
      omega
    · rw [hexValue, if_neg hd, if_pos (by omega)]
      omega

theorem unescape_escape {e : ℕ} (rest : Text) (he : e ≠ 0x75) :
    unescape (reverseSolidus :: e :: rest) = escaped e :: unescape rest := by
  rw [unescape.eq_def]
  simp only [if_true, if_neg he]

theorem isStringBody_escape {e : ℕ} {rest : Text} (he : e ≠ 0x75) (hmem : e ∈ escapes)
    (hrest : isStringBody rest = true) : isStringBody (reverseSolidus :: e :: rest) = true := by
  rw [isStringBody.eq_def]
  simp [he, hmem, hrest]

/-- A unit that is written between quotes, as it is or escaped, is read as itself. -/
theorem escapeUnit_spec (u : ℕ) (rest : Text) :
    (isStringBody rest = true → isStringBody (escapeUnit u ++ rest) = true) ∧
      unescape (escapeUnit u ++ rest) = u :: unescape rest := by
  have hletter : ∀ e, e ≠ 0x75 → e ∈ escapes → escaped e = u →
      escapeUnit u = [reverseSolidus, e] → (isStringBody rest = true →
        isStringBody (escapeUnit u ++ rest) = true) ∧
          unescape (escapeUnit u ++ rest) = u :: unescape rest := by
    intro e he hmem hescaped hunit
    rw [hunit]
    refine ⟨isStringBody_escape he hmem, ?_⟩
    rw [← hescaped]
    exact unescape_escape rest he
  by_cases h8 : u = 0x08
  · subst h8
    exact hletter 0x62 (by decide) (by decide) rfl rfl
  by_cases h9 : u = 0x09
  · subst h9
    exact hletter 0x74 (by decide) (by decide) rfl rfl
  by_cases ha : u = 0x0a
  · subst ha
    exact hletter 0x6e (by decide) (by decide) rfl rfl
  by_cases hc : u = 0x0c
  · subst hc
    exact hletter 0x66 (by decide) (by decide) rfl rfl
  by_cases hd : u = 0x0d
  · subst hd
    exact hletter 0x72 (by decide) (by decide) rfl rfl
  by_cases hquote : u = quote
  · subst hquote
    exact hletter quote (by decide) (by decide) rfl rfl
  by_cases hsolidus : u = reverseSolidus
  · subst hsolidus
    exact hletter reverseSolidus (by decide) (by decide) rfl rfl
  have hunit : escapeUnit u = if u < 0x20 then hexEscape u else [u] := by
    unfold escapeUnit
    simp only [if_neg h8, if_neg h9, if_neg ha, if_neg hc, if_neg hd, hquote, hsolidus,
      decide_false, Bool.or_self, Bool.false_eq_true, if_false]
  rw [hunit]
  by_cases hcontrol : u < 0x20
  · rw [if_pos hcontrol]
    have hhigh := hexUnit_spec (show u / 4096 < 16 by omega)
    have hsecond := hexUnit_spec (show u / 256 % 16 < 16 by omega)
    have hthird := hexUnit_spec (show u / 16 % 16 < 16 by omega)
    have hlow := hexUnit_spec (show u % 16 < 16 by omega)
    constructor
    · intro hrest
      unfold hexEscape
      rw [List.cons_append, isStringBody.eq_def]
      simp [hhigh.1, hsecond.1, hthird.1, hlow.1, hrest]
    · unfold hexEscape
      rw [List.cons_append, unescape.eq_def]
      simp only [List.cons_append, List.nil_append, if_true, hhigh.2, hsecond.2, hthird.2, hlow.2]
      have hvalue : ((u / 4096 * 16 + u / 256 % 16) * 16 + u / 16 % 16) * 16 + u % 16 = u := by
        omega
      rw [hvalue]
  · rw [if_neg hcontrol]
    constructor
    · intro hrest
      rw [List.singleton_append, isStringBody.eq_def]
      have hlow : 0x20 ≤ u := Nat.le_of_not_lt hcontrol
      simp [hsolidus, hquote, hlow, hrest]
    · exact unescape_cons hsolidus

theorem escapeUnit_large {u : ℕ} (h : 0x5c < u) : escapeUnit u = [u] := by
  have hne : ∀ v ∈ [0x08, 0x09, 0x0a, 0x0c, 0x0d, quote, reverseSolidus], u ≠ v := by
    intro v hv heq
    subst heq
    simp only [List.mem_cons, List.not_mem_nil, quote, reverseSolidus, or_false] at hv
    omega
  simp only [List.mem_cons, List.not_mem_nil, or_false, forall_eq_or_imp, forall_eq] at hne
  have hcontrol : ¬ u < 0x20 := by omega
  unfold escapeUnit
  simp only [hne, if_false, decide_false, Bool.or_self, Bool.false_eq_true, if_neg hcontrol]

/-- Without lone surrogates every unit is written for itself. -/
theorem escapeText_eq {s : Text} {previous : ℕ} (h : hasLoneSurrogate previous s = false)
    (hprevious : isHighSurrogate previous = false) : escapeText s = s.flatMap escapeUnit := by
  have hlarge : ∀ u, isHighSurrogate u = true ∨ isLowSurrogate u = true → 0x5c < u := by
    intro u hu
    simp only [isHighSurrogate, isLowSurrogate, Bool.and_eq_true, decide_eq_true_eq] at hu
    omega
  induction s using escapeText.induct generalizing previous with
  | case1 => rfl
  | case2 u hsurrogate =>
    simp only [hasLoneSurrogate, List.head?_nil, Option.any_none, Bool.not_false, Bool.and_true,
      hprevious, Bool.or_eq_false_iff] at h
    rw [h.1.1, h.1.2] at hsurrogate
    exact absurd hsurrogate (by decide)
  | case3 u hsurrogate =>
    rw [escapeText, if_neg hsurrogate]
    simp
  | case4 u v rest hpair ih =>
    rw [Bool.and_eq_true] at hpair
    have hlow : isHighSurrogate v = false := by
      simp only [isHighSurrogate, isLowSurrogate, Bool.and_eq_true, decide_eq_true_eq] at hpair ⊢
      simp only [Bool.and_eq_false_iff, decide_eq_false_iff_not]
      omega
    simp only [hasLoneSurrogate, Bool.or_eq_false_iff] at h
    rw [escapeText, if_pos (by simp [hpair]), ih h.2.2 hlow, List.flatMap_cons, List.flatMap_cons,
      escapeUnit_large (hlarge u (.inl hpair.1)), escapeUnit_large (hlarge v (.inr hpair.2))]
    rfl
  | case5 u v rest hpair ih =>
    rw [hasLoneSurrogate, Bool.or_eq_false_iff, Bool.or_eq_false_iff] at h
    have hlowu : isLowSurrogate u = false := by
      have hboth := h.1.2
      rw [hprevious] at hboth
      simpa using hboth
    have hhigh : isHighSurrogate u = false := by
      have hnext := h.1.1
      simp only [List.head?_cons, Option.any_some] at hnext
      by_contra hu
      rw [Bool.not_eq_false] at hu
      rw [hu] at hnext hpair
      simp_all
    rw [escapeText, if_neg hpair, ih h.2 hhigh, hhigh, hlowu, List.flatMap_cons]
    rfl

/-- A text that may be written is written so that it is read back. -/
theorem escapeText_spec {s : Text} (h : hasLoneSurrogate 0 s = false) :
    isStringBody (escapeText s) = true ∧ unescape (escapeText s) = s := by
  rw [escapeText_eq h (by decide)]
  clear h
  induction s with
  | nil => exact ⟨rfl, rfl⟩
  | cons u rest ih =>
    have hunit := escapeUnit_spec u (rest.flatMap escapeUnit)
    rw [List.flatMap_cons]
    exact ⟨hunit.1 ih.1, by rw [hunit.2, ih.2]⟩

/-- The names that may be written are written as they are. -/
theorem escapeText_name {name : Text} (h : hasLoneSurrogate 0 name = false)
    (hname : name.all isNameUnit = true) :
    escapeText name = name ∧ reverseSolidus ∉ name := by
  rw [List.all_eq_true] at hname
  have hunits : ∀ u ∈ name, escapeUnit u = [u] ∧ u ≠ reverseSolidus := by
    intro u hu
    have hplain := hname u hu
    simp only [isNameUnit, Bool.and_eq_true, decide_eq_true_eq] at hplain
    refine ⟨?_, hplain.1.2⟩
    have hcontrol : ¬ u < 0x20 := by omega
    have hne : u ≠ 0x08 ∧ u ≠ 0x09 ∧ u ≠ 0x0a ∧ u ≠ 0x0c ∧ u ≠ 0x0d := by omega
    unfold escapeUnit
    simp only [hne, if_false, hplain.1.1, hplain.1.2, decide_false, Bool.or_self,
      Bool.false_eq_true, if_neg hcontrol]
  constructor
  · rw [escapeText_eq h (by decide)]
    clear h hname
    induction name with
    | nil => rfl
    | cons u rest ih =>
      rw [List.flatMap_cons, (hunits u (List.mem_cons_self ..)).1,
        ih fun v hv => hunits v (List.mem_cons_of_mem _ hv)]
      rfl
  · intro hsolidus
    exact (hunits _ hsolidus).2 rfl

mutual

def treeOf : Value → Tree
  | .bool b => .literal (if b then .true else .false)
  | .num n => .number (integerText ((safeInteger n).getD 0))
  | .str s => .string (escapeText s)
  | .arr items => .array [] (itemsOf items)
  | .obj members => .object [] (membersOf members)
  | _ => .literal .null

def itemsOf : List Value → List (Text × Tree × Text)
  | [] => []
  | value :: rest => ([], treeOf value, []) :: itemsOf rest

def membersOf : List (Text × Value) → List (Name × Text × Tree × Text)
  | [] => []
  | (name, value) :: rest => (⟨[], escapeText name, []⟩, [], treeOf value, []) :: membersOf rest

end

/-- What canonicalization accepts. -/
inductive Value.Writable : Value → Prop
  | null : Writable .null
  | bool (b : Bool) : Writable (.bool b)
  | num {n : Number} (h : (safeInteger n).isSome = true) : Writable (.num n)
  | str {s : Text} (h : hasLoneSurrogate 0 s = false) : Writable (.str s)
  | arr {items : List Value} (h : ∀ x ∈ items, Writable x) : Writable (.arr items)
  | obj {members : List (Text × Value)}
      (hname : ∀ m ∈ members, hasLoneSurrogate 0 m.1 = false ∧ m.1.all isNameUnit = true)
      (h : ∀ m ∈ members, Writable m.2) : Writable (.obj members)

theorem itemsOf_eq (items : List Value) :
    itemsOf items = items.map fun x => ([], treeOf x, []) := by
  induction items with
  | nil => rfl
  | cons x rest ih => rw [itemsOf, ih, List.map_cons]

theorem membersOf_eq (members : List (Text × Value)) :
    membersOf members =
      members.map fun m => (⟨[], escapeText m.1, []⟩, [], treeOf m.2, []) := by
  induction members with
  | nil => rfl
  | cons m rest ih =>
    obtain ⟨name, value⟩ := m
    rw [membersOf, ih, List.map_cons]

theorem normalItems_eq (items : List Value) : normalItems items = items.map normal := by
  induction items with
  | nil => rfl
  | cons x rest ih => rw [normalItems, ih, List.map_cons]

theorem normalMembers_eq (members : List (Text × Value)) :
    normalMembers members = members.map fun m => (m.1, normal m.2) := by
  induction members with
  | nil => rfl
  | cons m rest ih =>
    obtain ⟨name, value⟩ := m
    rw [normalMembers, ih, List.map_cons]

theorem mem_sortByName {α : Type} {members : List (Text × α)} {m : Text × α} :
    m ∈ sortByName members ↔ m ∈ members := List.mem_insertionSort compareKeys

theorem sortByName_perm {α : Type} (members : List (Text × α)) :
    (sortByName members).Perm members := List.perm_insertionSort compareKeys members

/-- Sorting looks at the names only. -/
theorem sortByName_map {α β : Type} (f : Text × α → β) (members : List (Text × α)) :
    sortByName (members.map fun m => (m.1, f m)) =
      (sortByName members).map fun m => (m.1, f m) :=
  (List.map_insertionSort compareKeys compareKeys (fun m => (m.1, f m)) members
    fun _ _ _ _ => Iff.rfl).symm

theorem joinedMembers (members : List (Text × Value)) :
    memberTexts (membersOf members) =
      members.map fun m => stringify m.1 ++ colon :: (treeOf m.2).text := by
  rw [memberTexts_eq, membersOf_eq, List.map_map]
  apply List.map_congr_left
  intro m _
  simp [Name.text, Name.opening, stringify]

theorem joinedItems (items : List Value) :
    itemTexts (itemsOf items) = items.map fun x => (treeOf x).text := by
  rw [itemTexts_eq, itemsOf_eq, List.map_map]
  apply List.map_congr_left
  intro x _
  simp

/-- A value is written, at whatever path, exactly when it is writable. -/
def Writes (v : Value) : Prop :=
  ∀ path t, serialize v path = .ok t ↔ v.Writable ∧ t = (treeOf (normal v)).text

theorem serializeItems_eq_ok {items : List Value} (h : ∀ x ∈ items, Writes x) (path : Text)
    (i : ℕ) (parts : List Text) : serializeItems items path i = .ok parts ↔
      (∀ x ∈ items, x.Writable) ∧ parts = items.map fun x => (treeOf (normal x)).text := by
  induction items generalizing i parts with
  | nil => simp [serializeItems, eq_comm]
  | cons x rest ih =>
    have hrest := ih fun y hy => h y (List.mem_cons_of_mem _ hy)
    simp only [serializeItems, bind_eq_ok, pure_eq_ok, h x (List.mem_cons_self ..) _ _, hrest,
      List.forall_mem_cons, List.map_cons]
    constructor
    · rintro ⟨t, ⟨hx, ht⟩, ts, ⟨hxs, hts⟩, hparts⟩
      exact ⟨⟨hx, hxs⟩, by rw [← hparts, ht, hts]⟩
    · rintro ⟨⟨hx, hxs⟩, hparts⟩
      exact ⟨_, ⟨hx, rfl⟩, _, ⟨hxs, rfl⟩, hparts.symm⟩

theorem serializeMembers_eq {members : List (Text × Value)} (h : ∀ m ∈ members, m.2 ≠ .undefined)
    (path : Text) : serializeMembers members path =
      members.map fun m => (m.1, serialize m.2 (memberPath path m.1)) := by
  induction members with
  | nil => rfl
  | cons m rest ih =>
    obtain ⟨name, value⟩ := m
    rw [serializeMembers, ih fun x hx => h x (List.mem_cons_of_mem _ hx), List.map_cons]
    intro hundefined
    exact h _ (List.mem_cons_self ..) hundefined

theorem writeMember_eq_ok {m : Text × Value} (h : Writes m.2) (path t : Text) :
    writeMember path (m.1, serialize m.2 (memberPath path m.1)) = .ok t ↔
      (hasLoneSurrogate 0 m.1 = false ∧ m.1.all isNameUnit = true ∧ m.2.Writable) ∧
        t = stringify m.1 ++ colon :: (treeOf (normal m.2)).text := by
  simp only [writeMember, checkString, checkName, bind_eq_ok, demand_eq_ok, pure_eq_ok, h _ _]
  constructor
  · rintro ⟨_, hlone, _, hname, u, ⟨hvalue, hu⟩, ht⟩
    exact ⟨⟨hlone, hname, hvalue⟩, by rw [← ht, hu]⟩
  · rintro ⟨⟨hlone, hname, hvalue⟩, ht⟩
    exact ⟨(), hlone, (), hname, _, ⟨hvalue, rfl⟩, ht.symm⟩

theorem treeOf_number (n : Number) :
    treeOf (normal (.num n)) = .number (integerText ((safeInteger n).getD 0)) := by
  cases n <;> rfl

theorem Value.Plain.writes {v : Value} (h : v.Plain) : Writes v := by
  induction h with
  | null =>
    intro path t
    simp only [serialize, Except.ok.injEq]
    constructor
    · intro ht
      exact ⟨.null, ht.symm⟩
    · intro ht
      exact ht.2.symm
  | bool b =>
    intro path t
    have htext : (treeOf (normal (.bool b))).text =
        if b then Literal.true.text else Literal.false.text := by
      cases b <;> rfl
    rw [htext]
    simp only [serialize, Except.ok.injEq]
    constructor
    · intro ht
      exact ⟨.bool b, ht.symm⟩
    · intro ht
      exact ht.2.symm
  | @num n hn =>
    intro path t
    rw [treeOf_number]
    simp only [serialize, checkNumber, bind_eq_ok, require_eq_ok, pure_eq_ok]
    constructor
    · rintro ⟨i, hi, ht⟩
      refine ⟨.num (by rw [hi]; rfl), ?_⟩
      rw [hi]
      exact ht.symm
    · rintro ⟨hwritable, ht⟩
      cases hwritable with
      | num hsafe =>
        obtain ⟨i, hi⟩ := Option.isSome_iff_exists.mp hsafe
        rw [hi] at ht
        exact ⟨i, hi, ht.symm⟩
  | str s =>
    intro path t
    simp only [serialize, checkString, bind_eq_ok, demand_eq_ok, pure_eq_ok]
    constructor
    · rintro ⟨_, hlone, ht⟩
      exact ⟨.str hlone, ht.symm⟩
    · rintro ⟨hwritable, ht⟩
      cases hwritable with
      | str hlone => exact ⟨(), hlone, ht.symm⟩
  | @arr items _ ih =>
    intro path t
    have htext : (treeOf (normal (.arr items))).text =
        openArray :: joined (items.map fun x => (treeOf (normal x)).text) ++ [closeArray] := by
      rw [normal, treeOf, Tree.text, joinedItems, normalItems_eq, List.map_map]
      rfl
    simp only [serialize, bind_eq_ok, pure_eq_ok, serializeItems_eq_ok ih]
    rw [htext]
    constructor
    · rintro ⟨parts, ⟨hitems, hparts⟩, ht⟩
      exact ⟨.arr hitems, by rw [← ht, hparts]⟩
    · rintro ⟨hwritable, ht⟩
      cases hwritable with
      | arr hitems => exact ⟨_, ⟨hitems, rfl⟩, ht.symm⟩
  | @obj members _ hmembers ih =>
    intro path t
    have hpresent : ∀ m ∈ members, m.2 ≠ .undefined := by
      intro m hm hundefined
      have hplain := hmembers m hm
      rw [hundefined] at hplain
      cases hplain
    have hsorted : sortByName (serializeMembers members path) =
        (sortByName members).map fun m => (m.1, serialize m.2 (memberPath path m.1)) := by
      rw [serializeMembers_eq hpresent]
      exact sortByName_map (fun m => serialize m.2 (memberPath path m.1)) members
    have htext : (treeOf (normal (.obj members))).text = openObject :: joined
        ((sortByName members).map fun m =>
          stringify m.1 ++ colon :: (treeOf (normal m.2)).text) ++ [closeObject] := by
      rw [normal, treeOf, Tree.text, normalMembers_eq, sortByName_map (fun m => normal m.2),
        joinedMembers, List.map_map]
      rfl
    have hparts : ∀ parts, (sortByName (serializeMembers members path)).mapM (writeMember path) =
        .ok parts ↔ (∀ m ∈ sortByName members, hasLoneSurrogate 0 m.1 = false ∧
          m.1.all isNameUnit = true ∧ m.2.Writable) ∧
          parts = (sortByName members).map fun m =>
            stringify m.1 ++ colon :: (treeOf (normal m.2)).text := by
      intro parts
      rw [hsorted, List.mapM_map]
      exact mapM_eq_ok_iff (fun m hm t' => writeMember_eq_ok (ih m (mem_sortByName.mp hm)) path t')
        parts
    simp only [serialize, bind_eq_ok, pure_eq_ok, hparts]
    rw [htext]
    constructor
    · rintro ⟨parts, ⟨hall, hparts⟩, ht⟩
      refine ⟨.obj (fun m hm => ?_) (fun m hm => (hall m (mem_sortByName.mpr hm)).2.2),
        by rw [← ht, hparts]⟩
      have hm' := hall m (mem_sortByName.mpr hm)
      exact ⟨hm'.1, hm'.2.1⟩
    · rintro ⟨hwritable, ht⟩
      cases hwritable with
      | obj hname hvalues =>
        refine ⟨_, ⟨fun m hm => ?_, rfl⟩, ht.symm⟩
        have hm' := mem_sortByName.mp hm
        exact ⟨(hname m hm').1, (hname m hm').2, hvalues m hm'⟩

/-- The tree is one of the grammar that the guard accepts, and it is read as the value. -/
structure Faithful (v : Value) : Prop where
  valid : (treeOf (normal v)).Valid
  safe : (treeOf (normal v)).Safe true
  value : (treeOf (normal v)).value = normal v
  plain : (normal v).Plain

/-- Members of different names are added in their order. -/
theorem memberValues_eq {members : List (Name × Text × Tree × Text)}
    {before : List (Text × Value)}
    (h : (before.map Prod.fst ++ members.map fun m => m.1.name).Nodup) :
    memberValues members before =
      before ++ members.map fun m => (m.1.name, m.2.2.1.value) := by
  induction members generalizing before with
  | nil => simp [memberValues]
  | cons m rest ih =>
    obtain ⟨n, b, t, a⟩ := m
    have hnew : (before.any fun m => m.1 == n.name) = false := by
      rw [List.any_eq_false]
      intro m hm heq
      rw [List.nodup_append] at h
      exact h.2.2 m.1 (List.mem_map_of_mem hm) n.name (by simp) (by simpa using heq)
    have hset : setMember before n.name t.value = before ++ [(n.name, t.value)] := by
      unfold setMember
      rw [hnew]
      rfl
    rw [memberValues, hset, ih (by simpa using h)]
    simp

theorem itemValues_eq (items : List (Text × Tree × Text)) :
    itemValues items = items.map fun e => e.2.1.value := by
  induction items with
  | nil => rfl
  | cons e rest ih =>
    obtain ⟨b, t, a⟩ := e
    rw [itemValues, ih, List.map_cons]

/-- A safe number is the integer that is written for it. -/
theorem normal_number {n : Number} {i : ℤ} (h : safeInteger n = some i) :
    normal (.num n) = .num (.finite i) ∧ |i| ≤ maxSafe := by
  cases n with
  | finite q =>
    simp only [safeInteger, Number.value?] at h
    split at h
    next hint =>
      obtain rfl : q.num = i := Option.some.inj h
      have hq : ((q.num : ℤ) : ℚ) = q := Rat.coe_int_num_of_den_eq_one hint.1
      exact ⟨by rw [hq]; rfl, hint.2⟩
    next => exact nomatch h
  | negativeZero =>
    obtain rfl : (0 : ℤ) = i := Option.some.inj h
    exact ⟨rfl, by decide⟩
  | infinite => exact nomatch h
  | notANumber => exact nomatch h

theorem Value.Plain.faithful {v : Value} (h : v.Plain) (hv : v.Writable) : Faithful v := by
  have hblank : Blank [] := fun _ h => nomatch h
  induction h with
  | null => exact ⟨.literal _, .literal _, rfl, .null⟩
  | bool b => cases b <;> exact ⟨.literal _, .literal _, rfl, .bool _⟩
  | @num n _ =>
    cases hv with
    | num hsafe =>
      obtain ⟨i, hi⟩ := Option.isSome_iff_exists.mp hsafe
      have hnormal := normal_number hi
      have htree : treeOf (normal (.num n)) = .number (integerText i) := by
        rw [treeOf_number, hi]
        rfl
      refine ⟨?_, ?_, ?_, ?_⟩
      · rw [htree]
        exact .number (by rw [numberParts_integerText]; rfl)
      · rw [htree]
        exact .number fun _ => integerText_marks i
      · rw [htree, Tree.value, numberValue_integerText hnormal.2, hnormal.1]
      · rw [hnormal.1]
        exact .num rfl
  | str s =>
    cases hv with
    | str hlone =>
      have hspec := escapeText_spec hlone
      exact ⟨.string hspec.1, .string _, congrArg Value.str hspec.2, .str s⟩
  | @arr items hitems ih =>
    cases hv with
    | arr hwritable =>
      have hall : ∀ x ∈ items, Faithful x := fun x hx => ih x hx (hwritable x hx)
      have htree : treeOf (normal (.arr items)) =
          .array [] (items.map fun x => ([], treeOf (normal x), [])) := by
        rw [normal, treeOf, normalItems_eq, itemsOf_eq, List.map_map]
        rfl
      refine ⟨?_, ?_, ?_, ?_⟩
      · rw [htree]
        refine .array hblank (fun _ => rfl) ?_ ?_ ?_ <;> simp only [List.forall_mem_map]
        · exact fun _ _ => hblank
        · exact fun x hx => (hall x hx).valid
        · exact fun _ _ => hblank
      · rw [htree]
        refine .array ?_
        simp only [List.forall_mem_map]
        exact fun x hx => (hall x hx).safe
      · rw [htree, Tree.value, itemValues_eq, normal, normalItems_eq, List.map_map]
        congr 1
        exact List.map_congr_left fun x hx => (hall x hx).value
      · rw [normal, normalItems_eq]
        refine .arr ?_
        simp only [List.forall_mem_map]
        exact fun x hx => (hall x hx).plain
  | @obj members hdistinct hmembers ih =>
    cases hv with
    | obj hname hwritable =>
      have hall : ∀ m ∈ sortByName members, Faithful m.2 := by
        intro m hm
        have hm' := mem_sortByName.mp hm
        exact ih m hm' (hwritable m hm')
      have hnames : ∀ m ∈ sortByName members, isStringBody (escapeText m.1) = true ∧
          reverseSolidus ∉ escapeText m.1 ∧ unescape (escapeText m.1) = m.1 := by
        intro m hm
        obtain ⟨hlone, hplain⟩ := hname m (mem_sortByName.mp hm)
        have hspec := escapeText_spec hlone
        have hsame := escapeText_name hlone hplain
        refine ⟨hspec.1, ?_, hspec.2⟩
        rw [hsame.1]
        exact hsame.2
      have hnodup : ((sortByName members).map Prod.fst).Nodup :=
        ((sortByName_perm members).map Prod.fst).nodup_iff.mpr hdistinct
      have htree : treeOf (normal (.obj members)) = .object [] ((sortByName members).map fun m =>
          (⟨[], escapeText m.1, []⟩, [], treeOf (normal m.2), [])) := by
        rw [normal, treeOf, normalMembers_eq, sortByName_map (fun m => normal m.2), membersOf_eq,
          List.map_map]
        rfl
      have hkeys : ((sortByName members).map fun m => unescape (escapeText m.1)).Nodup := by
        have hsame : ((sortByName members).map fun m => unescape (escapeText m.1)) =
            (sortByName members).map Prod.fst :=
          List.map_congr_left fun m hm => (hnames m hm).2.2
        rw [hsame]
        exact hnodup
      refine ⟨?_, ?_, ?_, ?_⟩
      · rw [htree]
        refine .object hblank (fun _ => rfl) ?_ ?_ ?_ ?_ ?_ <;> simp only [List.forall_mem_map]
        · exact fun m hm => (hnames m hm).1
        · exact fun _ _ => ⟨hblank, hblank⟩
        · exact fun _ _ => hblank
        · exact fun m hm => (hall m hm).valid
        · exact fun _ _ => hblank
      · rw [htree]
        refine .object ?_ ?_ ?_
        · simp only [List.forall_mem_map]
          exact fun m hm => (hnames m hm).2.1
        · rw [List.map_map]
          exact hkeys
        · simp only [List.forall_mem_map]
          exact fun m hm => (hall m hm).safe
      · rw [htree, Tree.value, memberValues_eq (by rw [List.map_map]; exact hkeys), normal,
          normalMembers_eq, sortByName_map (fun m => normal m.2), List.map_map, List.nil_append]
        congr 1
        apply List.map_congr_left
        intro m hm
        exact Prod.ext (hnames m hm).2.2 (hall m hm).value
      · rw [normal, normalMembers_eq, sortByName_map (fun m => normal m.2)]
        refine .obj ?_ ?_
        · rw [List.map_map]
          exact hnodup
        · simp only [List.forall_mem_map]
          exact fun m hm => (hall m hm).plain

theorem sameItems_iff (a b : List Value) : SameItems a b ↔ List.Forall₂ Same a b := by
  induction a generalizing b with
  | nil => cases b <;> simp [SameItems]
  | cons x a ih => cases b <;> simp [SameItems, ih]

theorem sameMembers_iff (a b : List (Text × Value)) :
    SameMembers a b ↔ ∀ m ∈ a, ∃ y, (m.1, y) ∈ b ∧ Same m.2 y := by
  induction a with
  | nil => simp [SameMembers]
  | cons m a ih =>
    obtain ⟨name, x⟩ := m
    rw [SameMembers, ih, List.forall_mem_cons]

theorem equals_iff {a b : Number} (ha : a.value?.isSome = true) (hb : b.value?.isSome = true) :
    a.equals b = true ↔ a.normal = b.normal := by
  cases a with
  | finite q => cases b <;> simp_all [Number.equals, Number.value?, Number.normal]
  | negativeZero => cases b <;> simp_all [Number.equals, Number.value?, Number.normal]
  | infinite => exact nomatch ha
  | notANumber => exact nomatch ha

/-- In a list of members of different names, a name has one value. -/
theorem value_unique {members : List (Text × Value)} (h : (members.map Prod.fst).Nodup)
    {m m' : Text × Value} (hm : m ∈ members) (hm' : m' ∈ members) (hname : m.1 = m'.1) :
    m = m' :=
  List.inj_on_of_nodup_map h hm hm' hname

instance {α : Type} : Std.Total (compareKeys (α := α)) :=
  ⟨fun a b => le_total a.1 b.1⟩

instance {α : Type} : IsTrans (Text × α) compareKeys :=
  ⟨fun _ _ _ hab hbc => le_trans (α := Text) hab hbc⟩

/-- Lists with the same members are sorted alike. -/
theorem sortByName_eq {a b : List (Text × Value)} (ha : (a.map Prod.fst).Nodup) (h : a.Perm b) :
    sortByName a = sortByName b := by
  have hperm : (sortByName a).Perm (sortByName b) :=
    (sortByName_perm a).trans (h.trans (sortByName_perm b).symm)
  refine hperm.eq_of_pairwise ?_ (List.pairwise_insertionSort compareKeys a)
    (List.pairwise_insertionSort compareKeys b)
  intro m m' hm hm' hle hle'
  have hmem : m' ∈ a := h.mem_iff.mpr (mem_sortByName.mp hm')
  exact value_unique ha (mem_sortByName.mp hm) hmem (le_antisymm hle hle')

theorem same_iff {v w : Value} (hv : v.Plain) (hw : w.Plain) :
    Same v w ↔ normal v = normal w := by
  induction hv generalizing w with
  | null => cases hw <;> simp [Same, normal]
  | bool b => cases hw <;> simp [Same, normal]
  | num hn =>
    cases hw with
    | num hm => simp [Same, normal, equals_iff hn hm]
    | null | bool | str | arr | obj => simp [Same, normal]
  | str s => cases hw <;> simp [Same, normal]
  | @arr items hitems ih =>
    cases hw with
    | @arr items' hitems' =>
      rw [Same, sameItems_iff, normal, normal, normalItems_eq, normalItems_eq, Value.arr.injEq]
      clear hitems
      induction items generalizing items' with
      | nil => cases items' <;> simp
      | cons x rest ihrest =>
        cases items' with
        | nil => simp
        | cons y rest' =>
          have hy := hitems' y (List.mem_cons_self ..)
          have hrest := ihrest (fun z hz => ih z (List.mem_cons_of_mem _ hz))
            (fun z hz => hitems' z (List.mem_cons_of_mem _ hz))
          rw [List.forall₂_cons, hrest, ih x (List.mem_cons_self ..) hy, List.map_cons,
            List.map_cons, List.cons.injEq]
    | null | bool | num | str | obj => simp [Same, normal]
  | @obj members hdistinct hmembers ih =>
    cases hw with
    | @obj members' hdistinct' hmembers' =>
      have hkeys : ∀ l : List (Text × Value), (l.map fun m => (m.1, normal m.2)).map Prod.fst =
          l.map Prod.fst := fun l => by simp
      rw [Same, sameMembers_iff, normal, normal, normalMembers_eq, normalMembers_eq,
        Value.obj.injEq]
      constructor
      · intro ⟨hlength, hmatch⟩
        have hnodup : ((members.map fun m => (m.1, normal m.2)).map Prod.fst).Nodup := by
          rw [hkeys]
          exact hdistinct
        refine sortByName_eq hnodup ?_
        have hsub : (members.map fun m => (m.1, normal m.2)) ⊆
            members'.map fun m => (m.1, normal m.2) := by
          intro x hx
          obtain ⟨m, hm, rfl⟩ := List.mem_map.mp hx
          obtain ⟨y, hy, hsame⟩ := hmatch m hm
          have heq := (ih m hm (hmembers' _ hy)).mp hsame
          exact List.mem_map.mpr ⟨(m.1, y), hy, by rw [heq]⟩
        refine (List.subperm_of_subset (List.Nodup.of_map _ hnodup) hsub).perm_of_length_le ?_
        simp [hlength]
      · intro heq
        have hperm : (members.map fun m => (m.1, normal m.2)).Perm
            (members'.map fun m => (m.1, normal m.2)) :=
          (sortByName_perm _).symm.trans (heq ▸ sortByName_perm _)
        refine ⟨by simpa using hperm.length_eq, ?_⟩
        intro m hm
        have hmem : (m.1, normal m.2) ∈ members'.map fun m => (m.1, normal m.2) :=
          hperm.mem_iff.mp (List.mem_map_of_mem hm)
        obtain ⟨⟨name, y⟩, hy, hpair⟩ := List.mem_map.mp hmem
        obtain ⟨rfl, hvalue⟩ := Prod.mk.inj hpair
        exact ⟨y, hy, (ih m hm (hmembers' _ hy)).mpr hvalue.symm⟩
    | null | bool | num | str | arr => simp [Same, normal]

theorem sortByName_sortByName {α : Type} (members : List (Text × α)) :
    sortByName (sortByName members) = sortByName members :=
  (List.pairwise_insertionSort compareKeys members).insertionSort_eq

/-- What is in normal form is not changed by it. -/
theorem normal_normal {v : Value} (hv : v.Plain) : normal (normal v) = normal v := by
  induction hv with
  | null => rfl
  | bool b => rfl
  | @num n _ => cases n <;> rfl
  | str s => rfl
  | @arr items _ ih =>
    rw [normal, normal, normalItems_eq, normalItems_eq, List.map_map]
    congr 1
    exact List.map_congr_left ih
  | @obj members _ _ ih =>
    rw [normal, normal, normalMembers_eq, normalMembers_eq, sortByName_map (fun m => normal m.2),
      sortByName_sortByName, sortByName_map (fun m => normal m.2), List.map_map]
    congr 1
    apply List.map_congr_left
    intro m hm
    exact Prod.ext rfl (ih m (mem_sortByName.mp hm))

theorem writable_normal {v : Value} (hv : v.Plain) : (normal v).Writable ↔ v.Writable := by
  induction hv with
  | null => exact Iff.rfl
  | bool b => exact Iff.rfl
  | @num n _ =>
    cases n with
    | negativeZero => exact ⟨fun _ => .num rfl, fun _ => .num rfl⟩
    | finite | infinite | notANumber => exact Iff.rfl
  | str s => exact Iff.rfl
  | @arr items _ ih =>
    rw [normal, normalItems_eq]
    constructor
    · intro h
      cases h with
      | arr hitems =>
        exact .arr fun x hx => (ih x hx).mp (hitems _ (List.mem_map_of_mem hx))
    · intro h
      cases h with
      | arr hitems =>
        refine .arr ?_
        simp only [List.forall_mem_map]
        exact fun x hx => (ih x hx).mpr (hitems x hx)
  | @obj members _ _ ih =>
    rw [normal, normalMembers_eq, sortByName_map (fun m => normal m.2)]
    constructor
    · intro h
      cases h with
      | obj hname hvalues =>
        simp only [List.forall_mem_map, mem_sortByName] at hname hvalues
        exact .obj hname fun m hm => (ih m hm).mp (hvalues m hm)
    · intro h
      cases h with
      | obj hname hvalues =>
        refine .obj ?_ ?_ <;> simp only [List.forall_mem_map, mem_sortByName]
        · exact hname
        · exact fun m hm => (ih m hm).mpr (hvalues m hm)

theorem canonicalize_eq_ok {v : Value} (hv : v.Plain) {t : Text} :
    canonicalize v = .ok t ↔ v.Writable ∧ t = (treeOf (normal v)).text := hv.writes _ _

/-- No name in a writable value needs an escape. -/
theorem Value.Writable.names {v : Value} (h : v.Writable) :
    ∀ name ∈ v.names, name.all isNameUnit = true := by
  induction h with
  | null | bool | num | str => exact fun _ h => nomatch h
  | @arr items hitems ih =>
    rw [Value.names]
    clear hitems
    induction items with
    | nil => exact fun _ h => nomatch h
    | cons x rest ihrest =>
      intro name hname
      rcases List.mem_append.mp hname with hname | hname
      · exact ih x (List.mem_cons_self ..) name hname
      · exact ihrest (fun y hy => ih y (List.mem_cons_of_mem _ hy)) name hname
  | @obj members hnames hvalues ih =>
    rw [Value.names]
    clear hvalues
    induction members with
    | nil => exact fun _ h => nomatch h
    | cons m rest ihrest =>
      obtain ⟨key, x⟩ := m
      intro name hname
      rcases List.mem_cons.mp hname with rfl | hname
      · exact (hnames _ (List.mem_cons_self ..)).2
      · rcases List.mem_append.mp hname with hname | hname
        · exact ih _ (List.mem_cons_self ..) name hname
        · exact ihrest (fun m hm => hnames m (List.mem_cons_of_mem _ hm))
            (fun m hm => ih m (List.mem_cons_of_mem _ hm)) name hname

/-- The canonical text of a value is read as its normal form. -/
theorem parse_canonical {v : Value} (hv : v.Plain) {t : Text} (h : canonicalize v = .ok t) :
    parse t = .ok (normal v) ∧ parseUntrustedJson t true = .ok (normal v) := by
  obtain ⟨hwritable, rfl⟩ := (canonicalize_eq_ok hv).mp h
  have hfaithful := hv.faithful hwritable
  have hdocument : Document.Valid ⟨[], treeOf (normal v), []⟩ :=
    ⟨(fun _ h => nomatch h), hfaithful.valid, (fun _ h => nomatch h)⟩
  have htext : Document.text ⟨[], treeOf (normal v), []⟩ = (treeOf (normal v)).text := by
    simp [Document.text]
  have hparse : parse (treeOf (normal v)).text = .ok (normal v) := by
    unfold parse
    rw [← htext, parseDocument_text hdocument]
    exact congrArg Except.ok hfaithful.value
  have hguard := assertSafeJsonText_of_safe hdocument hfaithful.safe
  rw [htext] at hguard
  refine ⟨hparse, ?_⟩
  unfold parseUntrustedJson
  rw [hguard, hparse]

/-- The canonical text of a value belongs to the values that are equal to it up to the order of
members and to no others, and it is read, guarded or not, as such a value, whose canonical text
it is; no name in the value needs an escape. -/
theorem canonicalize_faithful {v : Value} {t : Text} (hv : v.Plain) (h : canonicalize v = .ok t) :
    (∀ w : Value, w.Plain → (canonicalize w = .ok t ↔ Same v w)) ∧
    (∃ v', parse t = .ok v' ∧ v'.Plain ∧ Same v v' ∧ canonicalize v' = .ok t ∧
      parseUntrustedJson t true = .ok v') ∧
    ∀ name ∈ v.names, name.all isNameUnit = true := by
  obtain ⟨hwritable, htext⟩ := (canonicalize_eq_ok hv).mp h
  have hparse := parse_canonical hv h
  have hplain := (hv.faithful hwritable).plain
  refine ⟨?_, ?_, hwritable.names⟩
  · intro w hw
    rw [same_iff hv hw]
    constructor
    · intro hcanonical
      have hparse' := (parse_canonical hw hcanonical).1
      rw [hparse.1] at hparse'
      exact Except.ok.inj hparse'
    · intro hsame
      refine (canonicalize_eq_ok hw).mpr ⟨?_, by rw [htext, hsame]⟩
      rw [← writable_normal hw, ← hsame, writable_normal hv]
      exact hwritable
  · refine ⟨normal v, hparse.1, hplain, (same_iff hv hplain).mpr (normal_normal hv).symm, ?_,
      hparse.2⟩
    refine (canonicalize_eq_ok hplain).mpr ⟨(writable_normal hv).mpr hwritable, ?_⟩
    rw [normal_normal hv, htext]

def sampleValue : Value :=
  .obj [(units "b", .arr [.num .negativeZero, .str (units "\n\"")]), (units "a", .bool true)]

theorem sampleValue_plain : sampleValue.Plain := by
  refine .obj (by decide) ?_
  simp only [List.mem_cons, List.not_mem_nil, or_false, forall_eq_or_imp, forall_eq]
  refine ⟨.arr ?_, .bool _⟩
  simp only [List.mem_cons, List.not_mem_nil, or_false, forall_eq_or_imp, forall_eq]
  exact ⟨.num rfl, .str _⟩

theorem canonicalize_faithful_sample : ∃ t v', canonicalize sampleValue = .ok t ∧
    parseUntrustedJson t true = .ok v' ∧ Same sampleValue v' := by
  have hcanonical : canonicalize sampleValue =
      .ok (units "\x7b\"a\":true,\"b\":[0,\"\\n\\\"\"]\x7d") := by
    decide +kernel
  obtain ⟨_, ⟨v', _, _, hsame, _, hparse⟩, _⟩ := canonicalize_faithful sampleValue_plain hcanonical
  exact ⟨_, v', hcanonical, hparse, hsame⟩

end DirectTrade.Encoding
