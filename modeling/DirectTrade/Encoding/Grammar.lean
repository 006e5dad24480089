import DirectTrade.Encoding.Text
import Mathlib.Data.List.TakeWhile

/-!
The grammar of JSON texts. A tree keeps every unit of the text that it was read from, blanks and
escapes included, so each text of the grammar is the text of a tree, and what stands where in the
text can be said of the tree.
-/

namespace DirectTrade.Encoding

def quote : ℕ := 0x22

def reverseSolidus : ℕ := 0x5c

def comma : ℕ := 0x2c

def colon : ℕ := 0x3a

def openObject : ℕ := 0x7b

def closeObject : ℕ := 0x7d

def openArray : ℕ := 0x5b

def closeArray : ℕ := 0x5d

/-- Space, tab, line feed or carriage return. -/
def isBlank (u : ℕ) : Bool := u = 0x20 || u = 0x09 || u = 0x0a || u = 0x0d

def Blank (t : Text) : Prop := ∀ u ∈ t, isBlank u = true

def isHex (u : ℕ) : Bool := isDigit u || (0x61 ≤ u && u ≤ 0x66) || (0x41 ≤ u && u ≤ 0x46)

/-- The letters that may follow a reverse solidus, `u` apart. -/
def escapes : Text := units "\"\\/bfnrt"

/-- What may stand between the quotes of a string. -/
def isStringBody : Text → Bool
  | [] => true
  | u :: rest =>
    if u = reverseSolidus then
      match rest with
      | [] => false
      | e :: rest =>
        if e = 0x75 then
          match rest with
          | a :: b :: c :: d :: rest =>
            isHex a && isHex b && isHex c && isHex d && isStringBody rest
          | _ => false
        else escapes.contains e && isStringBody rest
    else 0x20 ≤ u && u ≠ quote && isStringBody rest

/-- Induction over the units and escapes of a string. -/
theorem isStringBody_induction {P : Text → Prop} (nil : P [])
    (unit : ∀ u rest, u ≠ reverseSolidus → u ≠ quote → 0x20 ≤ u → P rest → P (u :: rest))
    (escape : ∀ e rest, e ≠ 0x75 → e ∈ escapes → P rest → P (reverseSolidus :: e :: rest))
    (hex : ∀ a b c d rest, (∀ x ∈ [a, b, c, d], isHex x = true) → P rest →
      P (reverseSolidus :: 0x75 :: a :: b :: c :: d :: rest))
    (raw : Text) (h : isStringBody raw = true) : P raw := by
  induction raw using isStringBody.induct with
  | case1 => exact nil
  | case2 => exact absurd h (by decide)
  | case3 a b c d rest ih =>
    rw [isStringBody.eq_def] at h
    simp only [if_true, Bool.and_eq_true] at h
    refine hex a b c d rest ?_ (ih h.2)
    simp only [List.mem_cons, List.not_mem_nil, or_false, forall_eq_or_imp, forall_eq]
    exact ⟨h.1.1.1.1, h.1.1.1.2, h.1.1.2, h.1.2⟩
  | case4 rest hshort =>
    rw [isStringBody.eq_def] at h
    simp only [if_true] at h
    exact nomatch h
  | case5 e rest he ih =>
    rw [isStringBody.eq_def] at h
    simp only [if_true, if_neg he, Bool.and_eq_true, List.contains_iff_mem] at h
    exact escape e rest he h.1 (ih h.2)
  | case6 u rest hu ih =>
    rw [isStringBody.eq_def] at h
    simp only [if_neg hu, Bool.and_eq_true, decide_eq_true_eq] at h
    exact unit u rest hu h.1.2 h.1.1 (ih h.2)

/-- A point, or the letter of an exponent. -/
def isMark (u : ℕ) : Bool := u = 0x2e || u = 0x65 || u = 0x45

/-- The units that numbers are written with. -/
def isNumberUnit (u : ℕ) : Bool := isDigit u || u = 0x2d || u = 0x2b || isMark u

structure NumberParts where
  negative : Bool
  whole : Text
  /-- Empty where no point is written. -/
  fraction : Text
  negativeExponent : Bool
  /-- Empty where no exponent is written. -/
  exponent : Text

/-- `(\.\d+)?`: the digits, and what follows them. -/
def fractionParts (rest : Text) : Option (Text × Text) :=
  match rest with
  | [] => some ([], [])
  | point :: more =>
    if point = 0x2e then
      if more.takeWhile isDigit = [] then none
      else some (more.takeWhile isDigit, more.dropWhile isDigit)
    else some ([], rest)

/-- `([eE][+-]?\d+)?`: whether the sign is negative, and the digits. -/
def exponentParts : Text → Option (Bool × Text)
  | [] => some (false, [])
  | letter :: rest =>
    let signed := rest.head? = some 0x2b ∨ rest.head? = some 0x2d
    let digits := if signed then rest.tail else rest
    if (letter = 0x65 ∨ letter = 0x45) ∧ digits ≠ [] ∧ digits.all isDigit = true then
      some (rest.head? = some 0x2d, digits)
    else none

/-- What follows the sign. -/
def unsigned (raw : Text) : Text := if raw.head? = some 0x2d then raw.tail else raw

/-- `(0|[1-9]\d*)`: the digits, and what follows them. -/
def wholeParts (body : Text) : Option (Text × Text) :=
  let whole := body.takeWhile isDigit
  if whole = [] ∨ (whole.head? = some 0x30 ∧ whole ≠ [0x30]) then none
  else some (whole, body.dropWhile isDigit)

/-- `-?(0|[1-9]\d*)(\.\d+)?([eE][+-]?\d+)?` -/
def numberParts (raw : Text) : Option NumberParts := do
  let (whole, rest) ← wholeParts (unsigned raw)
  let (fraction, rest) ← fractionParts rest
  let (negativeExponent, exponent) ← exponentParts rest
  some { negative := raw.head? = some 0x2d, whole, fraction, negativeExponent, exponent }

theorem isNumberUnit_of_digit {u : ℕ} (h : isDigit u = true) : isNumberUnit u = true := by
  simp [isNumberUnit, h]

/-- The leading digits of a text do not matter to whether it is made of the units of numbers. -/
theorem units_of_dropWhile {t : Text} (h : ∀ u ∈ t.dropWhile isDigit, isNumberUnit u = true) :
    ∀ u ∈ t, isNumberUnit u = true := by
  intro u hu
  rw [← List.takeWhile_append_dropWhile (p := isDigit) (l := t)] at hu
  rcases List.mem_append.mp hu with hu | hu
  · exact isNumberUnit_of_digit (List.mem_takeWhile_imp hu)
  · exact h u hu

theorem exponentParts_units {rest : Text} (h : (exponentParts rest).isSome = true) :
    ∀ u ∈ rest, isNumberUnit u = true := by
  cases rest with
  | nil => exact fun u hu => nomatch hu
  | cons letter rest =>
    simp only [exponentParts, Option.isSome_ite] at h
    obtain ⟨hletter, _, hdigits⟩ := h
    rw [List.all_eq_true] at hdigits
    intro u hu
    rcases List.mem_cons.mp hu with rfl | hu
    · rcases hletter with rfl | rfl <;> decide
    · by_cases hsigned : rest.head? = some 0x2b ∨ rest.head? = some 0x2d
      · rw [if_pos hsigned] at hdigits
        cases rest with
        | nil => exact nomatch hu
        | cons sign rest =>
          rcases List.mem_cons.mp hu with rfl | hu
          · simp only [List.head?_cons, Option.some.injEq] at hsigned
            rcases hsigned with rfl | rfl <;> decide
          · exact isNumberUnit_of_digit (hdigits u hu)
      · rw [if_neg hsigned] at hdigits
        exact isNumberUnit_of_digit (hdigits u hu)

theorem fractionParts_units {rest fraction rest' : Text}
    (h : fractionParts rest = some (fraction, rest'))
    (hrest : ∀ u ∈ rest', isNumberUnit u = true) : ∀ u ∈ rest, isNumberUnit u = true := by
  cases rest with
  | nil => exact fun u hu => nomatch hu
  | cons point more =>
    simp only [fractionParts] at h
    split at h
    next hpoint =>
      split at h
      · exact nomatch h
      · cases h
        intro u hu
        rcases List.mem_cons.mp hu with rfl | hu
        · rw [hpoint]
          decide
        · exact units_of_dropWhile hrest u hu
    next => cases h; exact hrest

/-- A number is made of the units of numbers, and starts with a sign or a digit. -/
theorem numberParts_units {raw : Text} (h : (numberParts raw).isSome = true) :
    (∀ u ∈ raw, isNumberUnit u = true) ∧
      ∃ c rest, raw = c :: rest ∧ (c = 0x2d ∨ isDigit c = true) := by
  obtain ⟨n, hn⟩ := Option.isSome_iff_exists.mp h
  simp only [numberParts, Option.bind_eq_bind, Option.bind_eq_some_iff] at hn
  obtain ⟨⟨whole, rest⟩, hwhole, ⟨fraction, rest'⟩, hfraction, parts, hexponent, _⟩ := hn
  have hrest := fractionParts_units hfraction (exponentParts_units (by rw [hexponent]; rfl))
  simp only [wholeParts] at hwhole
  split at hwhole
  · exact nomatch hwhole
  next hnone =>
    cases hwhole
    rw [not_or] at hnone
    have hbody := units_of_dropWhile hrest
    have hhead : ∃ c more, unsigned raw = c :: more ∧ isDigit c = true := by
      cases hunsigned : unsigned raw with
      | nil =>
        rw [hunsigned] at hnone
        exact absurd rfl hnone.1
      | cons c more =>
        refine ⟨c, more, rfl, ?_⟩
        by_contra hc
        rw [hunsigned, List.takeWhile_cons_of_neg hc] at hnone
        exact hnone.1 rfl
    obtain ⟨c, more, hunsigned, hc⟩ := hhead
    unfold unsigned at hunsigned hbody
    split at hunsigned
    next hsign =>
      rw [if_pos hsign] at hbody
      cases raw with
      | nil => exact nomatch hsign
      | cons sign tail =>
        rw [List.head?_cons, Option.some.injEq] at hsign
        subst hsign
        refine ⟨?_, 0x2d, tail, rfl, .inl rfl⟩
        intro u hu
        rcases List.mem_cons.mp hu with rfl | hu
        · decide
        · exact hbody u hu
    next hsign =>
      rw [if_neg hsign] at hbody
      exact ⟨hbody, c, more, hunsigned, .inr hc⟩

inductive Literal where
  | null
  | true
  | false
  deriving DecidableEq

def Literal.text : Literal → Text
  | .null => units "null"
  | .true => units "true"
  | .false => units "false"

/-- The name of a member as it is written, with the blanks before it and before its colon. -/
structure Name where
  before : Text
  raw : Text
  after : Text

/-- A name up to its closing quote. -/
def Name.opening (n : Name) : Text := n.before ++ quote :: n.raw ++ [quote]

def Name.text (n : Name) : Text := n.opening ++ n.after ++ [colon]

/-- A value as it is written. Items and the values of members have blanks on both sides; `blank`
is what stands in brackets or braces that hold nothing. -/
inductive Tree where
  | literal (l : Literal)
  | number (raw : Text)
  | string (raw : Text)
  | array (blank : Text) (items : List (Text × Tree × Text))
  | object (blank : Text) (members : List (Name × Text × Tree × Text))

/-- Texts with commas between them. -/
def joined : List Text → Text
  | [] => []
  | t :: [] => t
  | t :: rest => t ++ comma :: joined rest

/-- Texts with a comma after each. -/
def started (ts : List Text) : Text := ts.flatMap (· ++ [comma])

mutual

def Tree.text : Tree → Text
  | .literal l => l.text
  | .number raw => raw
  | .string raw => quote :: raw ++ [quote]
  | .array blank items => openArray :: blank ++ joined (itemTexts items) ++ [closeArray]
  | .object blank members => openObject :: blank ++ joined (memberTexts members) ++ [closeObject]

def itemTexts : List (Text × Tree × Text) → List Text
  | [] => []
  | (before, t, after) :: rest => (before ++ t.text ++ after) :: itemTexts rest

def memberTexts : List (Name × Text × Tree × Text) → List Text
  | [] => []
  | (n, before, t, after) :: rest => (n.text ++ before ++ t.text ++ after) :: memberTexts rest

end

/-- The tree is written as the grammar has it. -/
inductive Tree.Valid : Tree → Prop
  | literal (l : Literal) : Valid (.literal l)
  | number {raw : Text} (h : (numberParts raw).isSome = true) : Valid (.number raw)
  | string {raw : Text} (h : isStringBody raw = true) : Valid (.string raw)
  | array {blank : Text} {items : List (Text × Tree × Text)} (hblank : Blank blank)
      (hnone : items ≠ [] → blank = []) (hbefore : ∀ e ∈ items, Blank e.1)
      (hvalid : ∀ e ∈ items, Valid e.2.1) (hafter : ∀ e ∈ items, Blank e.2.2) :
      Valid (.array blank items)
  | object {blank : Text} {members : List (Name × Text × Tree × Text)} (hblank : Blank blank)
      (hnone : members ≠ [] → blank = []) (hname : ∀ m ∈ members, isStringBody m.1.raw = true)
      (hnames : ∀ m ∈ members, Blank m.1.before ∧ Blank m.1.after)
      (hbefore : ∀ m ∈ members, Blank m.2.1) (hvalid : ∀ m ∈ members, Valid m.2.2.1)
      (hafter : ∀ m ∈ members, Blank m.2.2.2) : Valid (.object blank members)

/-- A whole text: a value with blanks on both sides. -/
structure Document where
  before : Text
  tree : Tree
  after : Text

def Document.text (d : Document) : Text := d.before ++ d.tree.text ++ d.after

structure Document.Valid (d : Document) : Prop where
  before : Blank d.before
  tree : d.tree.Valid
  after : Blank d.after

theorem itemTexts_eq (items : List (Text × Tree × Text)) :
    itemTexts items = items.map fun e => e.1 ++ e.2.1.text ++ e.2.2 := by
  induction items with
  | nil => rfl
  | cons e rest ih =>
    obtain ⟨before, t, after⟩ := e
    rw [itemTexts, ih, List.map_cons]

theorem memberTexts_eq (members : List (Name × Text × Tree × Text)) :
    memberTexts members = members.map fun m => m.1.text ++ m.2.1 ++ m.2.2.1.text ++ m.2.2.2 := by
  induction members with
  | nil => rfl
  | cons m rest ih =>
    obtain ⟨n, before, t, after⟩ := m
    rw [memberTexts, ih, List.map_cons]

theorem joined_cons (t : Text) (rest : List Text) :
    joined (t :: rest) = t ++ rest.flatMap (comma :: ·) := by
  induction rest generalizing t with
  | nil => simp [joined]
  | cons u rest ih =>
    rw [joined, ih, List.flatMap_cons, List.cons_append]
    exact fun h => nomatch h

/-- What stands before a text in a list of texts with commas between them. -/
theorem joined_split (l : List Text) (t : Text) (r : List Text) :
    joined (l ++ t :: r) = started l ++ t ++ r.flatMap (comma :: ·) := by
  induction l with
  | nil => rw [List.nil_append, joined_cons]; rfl
  | cons u l ih =>
    have hstep : joined (u :: (l ++ t :: r)) = u ++ comma :: joined (l ++ t :: r) := by
      rw [joined]
      intro hnil
      exact absurd hnil (by simp)
    rw [List.cons_append, hstep, ih]
    simp [started]

/-- The value of a hexadecimal digit. -/
def hexValue (u : ℕ) : ℕ :=
  if isDigit u then u - 0x30 else if 0x61 ≤ u then u - 0x61 + 10 else u - 0x41 + 10

/-- The unit that a letter after a reverse solidus stands for. -/
def escaped (e : ℕ) : ℕ :=
  if e = 0x62 then 0x08
  else if e = 0x66 then 0x0c
  else if e = 0x6e then 0x0a
  else if e = 0x72 then 0x0d
  else if e = 0x74 then 0x09
  else e

/-- The text that is meant by what stands between the quotes of a string. -/
def unescape : Text → Text
  | [] => []
  | u :: rest =>
    if u = reverseSolidus then
      match rest with
      | [] => []
      | e :: rest =>
        if e = 0x75 then
          match rest with
          | a :: b :: c :: d :: rest =>
            (((hexValue a * 16 + hexValue b) * 16 + hexValue c) * 16 + hexValue d) :: unescape rest
          | _ => []
        else escaped e :: unescape rest
    else u :: unescape rest

def Name.name (n : Name) : Text := unescape n.raw

theorem unescape_cons {u : ℕ} {rest : Text} (h : u ≠ reverseSolidus) :
    unescape (u :: rest) = u :: unescape rest := by
  rw [unescape.eq_def]
  simp only [if_neg h]

/-- What is written without escapes is meant as it is written. -/
theorem unescape_eq {raw : Text} (h : reverseSolidus ∉ raw) : unescape raw = raw := by
  induction raw with
  | nil => rfl
  | cons u rest ih =>
    rw [List.mem_cons, not_or] at h
    rw [unescape_cons (Ne.symm h.1), ih h.2]

/-- `At root before node`: in the tree `root` there is the tree `node`, after the text
`before`. -/
inductive At : Tree → Text → Tree → Prop
  | here (t : Tree) : At t [] t
  | item {blank : Text} {l r : List (Text × Tree × Text)} {b a : Text} {t node : Tree}
      {before : Text} (h : At t before node) :
      At (.array blank (l ++ (b, t, a) :: r))
        (openArray :: blank ++ started (itemTexts l) ++ b ++ before) node
  | member {blank : Text} {l r : List (Name × Text × Tree × Text)} {n : Name} {b a : Text}
      {t node : Tree} {before : Text} (h : At t before node) :
      At (.object blank (l ++ (n, b, t, a) :: r))
        (openObject :: blank ++ started (memberTexts l) ++ n.text ++ b ++ before) node

theorem itemTexts_append (l r : List (Text × Tree × Text)) :
    itemTexts (l ++ r) = itemTexts l ++ itemTexts r := by
  simp [itemTexts_eq]

theorem memberTexts_append (l r : List (Name × Text × Tree × Text)) :
    memberTexts (l ++ r) = memberTexts l ++ memberTexts r := by
  simp [memberTexts_eq]

/-- What is said to stand in a tree does. -/
theorem At.text {root node : Tree} {before : Text} (h : At root before node) :
    ∃ rest, root.text = before ++ node.text ++ rest := by
  induction h with
  | here t => exact ⟨[], by simp⟩
  | @item blank l r b a t node before h ih =>
    obtain ⟨rest, hrest⟩ := ih
    refine ⟨rest ++ a ++ (itemTexts r).flatMap (comma :: ·) ++ [closeArray], ?_⟩
    rw [Tree.text, itemTexts_append, itemTexts, joined_split, hrest]
    simp
  | @member blank l r n b a t node before h ih =>
    obtain ⟨rest, hrest⟩ := ih
    refine ⟨rest ++ a ++ (memberTexts r).flatMap (comma :: ·) ++ [closeObject], ?_⟩
    rw [Tree.text, memberTexts_append, memberTexts, joined_split, hrest]
    simp

end DirectTrade.Encoding
