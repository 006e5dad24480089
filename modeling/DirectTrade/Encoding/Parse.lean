import DirectTrade.Encoding.Grammar
import DirectTrade.Encoding.Value
import DirectTrade.Library.Outcome
import Mathlib.Data.Int.Log
import Mathlib.Data.Rat.Floor

/-!
The parser of the language, as its specification has it: the text is read by the grammar, and a
value is made of what was read. Numbers are the nearest of 64 bits, and of two members of one
name the later one stays.
-/

namespace DirectTrade.Encoding

open Library Outcome

/-- The units up to the closing quote, and what follows it; `skipped` is set after a reverse
solidus. -/
def takeString : (skipped : Bool) → Text → Option (Text × Text)
  | _, [] => none
  | true, d :: rest => (takeString false rest).map fun r => (d :: r.1, r.2)
  | false, d :: rest =>
    if d = quote then some ([], rest)
    else (takeString (d = reverseSolidus) rest).map fun r => (d :: r.1, r.2)

/-- The text after a literal that it starts with. -/
def afterLiteral (l : Literal) (t : Text) : Option Text :=
  if t.take l.text.length = l.text then some (t.drop l.text.length) else none

def parseLiteral (t : Text) : Option (Tree × Text) :=
  [Literal.null, .true, .false].findSome? fun l =>
    (afterLiteral l t).map fun rest => (.literal l, rest)

def parseNumber (t : Text) : Option (Tree × Text) :=
  if (numberParts (t.takeWhile isNumberUnit)).isSome then
    some (.number (t.takeWhile isNumberUnit), t.dropWhile isNumberUnit)
  else none

/-- What stands between quotes, after the first. -/
def parseString (t : Text) : Option (Text × Text) :=
  (takeString false t).filter fun r => isStringBody r.1

mutual

/-- Fuel bounds the depth and the number of items. -/
def parseTree : (fuel : ℕ) → Text → Option (Tree × Text)
  | 0, _ => none
  | _ + 1, [] => none
  | fuel + 1, c :: rest =>
    if c = quote then (parseString rest).map fun r => (.string r.1, r.2)
    else if c = openArray then
      if (rest.dropWhile isBlank).head? = some closeArray then
        some (.array (rest.takeWhile isBlank) [], (rest.dropWhile isBlank).tail)
      else (parseItems fuel rest).map fun r => (.array [] r.1, r.2)
    else if c = openObject then
      if (rest.dropWhile isBlank).head? = some closeObject then
        some (.object (rest.takeWhile isBlank) [], (rest.dropWhile isBlank).tail)
      else (parseMembers fuel rest).map fun r => (.object [] r.1, r.2)
    else if c = 0x2d || isDigit c then parseNumber (c :: rest)
    else parseLiteral (c :: rest)

def parseItems : (fuel : ℕ) → Text → Option (List (Text × Tree × Text) × Text)
  | 0, _ => none
  | fuel + 1, t => do
    let (value, rest) ← parseTree fuel (t.dropWhile isBlank)
    let item := (t.takeWhile isBlank, value, rest.takeWhile isBlank)
    let c ← (rest.dropWhile isBlank).head?
    if c = comma then
      let (items, rest) ← parseItems fuel (rest.dropWhile isBlank).tail
      some (item :: items, rest)
    else if c = closeArray then some ([item], (rest.dropWhile isBlank).tail)
    else none

def parseMembers : (fuel : ℕ) → Text → Option (List (Name × Text × Tree × Text) × Text)
  | 0, _ => none
  | fuel + 1, t => do
    let open' ← (t.dropWhile isBlank).head?
    if open' ≠ quote then none
    else
      let (raw, rest) ← parseString (t.dropWhile isBlank).tail
      let name : Name := ⟨t.takeWhile isBlank, raw, rest.takeWhile isBlank⟩
      let separator ← (rest.dropWhile isBlank).head?
      if separator ≠ colon then none
      else
        let start := (rest.dropWhile isBlank).tail
        let (value, rest) ← parseTree fuel (start.dropWhile isBlank)
        let member := (name, start.takeWhile isBlank, value, rest.takeWhile isBlank)
        let c ← (rest.dropWhile isBlank).head?
        if c = comma then
          let (members, rest) ← parseMembers fuel (rest.dropWhile isBlank).tail
          some (member :: members, rest)
        else if c = closeObject then some ([member], (rest.dropWhile isBlank).tail)
        else none

end

def parseDocument (t : Text) : Option Document := do
  let (tree, rest) ← parseTree (t.length + 1) (t.dropWhile isBlank)
  if rest.all isBlank then some ⟨t.takeWhile isBlank, tree, rest⟩ else none

/-- The number that digits spell. -/
def digitsValue (t : Text) : ℕ := t.foldl (fun n u => n * 10 + (u - 0x30)) 0

/-- The nearest integer, the even one of two. -/
def roundHalfEven (x : ℚ) : ℤ :=
  if x - ⌊x⌋ < 1 / 2 then ⌊x⌋
  else if x - ⌊x⌋ = 1 / 2 ∧ ⌊x⌋ % 2 = 0 then ⌊x⌋
  else ⌊x⌋ + 1

/-- The nearest number of 64 bits: 53 of them for the digits, the exponent not below -1074. -/
def nearest (x : ℚ) : Number :=
  let exponent := max (Int.log 2 |x| - 52) (-1074)
  let rounded : ℚ := roundHalfEven (x / 2 ^ exponent) * 2 ^ exponent
  if 2 ^ 1024 ≤ |rounded| then .infinite (x < 0)
  else if rounded = 0 ∧ x < 0 then .negativeZero
  else .finite rounded

/-- The number that is written. -/
def numberValue (raw : Text) : Number :=
  match numberParts raw with
  | none => .notANumber
  | some n =>
    let exponent : ℤ := (if n.negativeExponent then -1 else 1) * digitsValue n.exponent
    let magnitude : ℚ := digitsValue (n.whole ++ n.fraction) * 10 ^ (exponent - n.fraction.length)
    if n.negative then
      if magnitude = 0 then .negativeZero else nearest (-magnitude)
    else nearest magnitude

/-- Sets a member, which keeps its place if it is there. -/
def setMember (members : List (Text × Value)) (name : Text) (value : Value) :
    List (Text × Value) :=
  if members.any fun m => m.1 == name then
    members.map fun m => if m.1 == name then (name, value) else m
  else members ++ [(name, value)]

def Literal.value : Literal → Value
  | .null => .null
  | .true => .bool Bool.true
  | .false => .bool Bool.false

mutual

def Tree.value : Tree → Value
  | .literal l => l.value
  | .number raw => .num (numberValue raw)
  | .string raw => .str (unescape raw)
  | .array _ items => .arr (itemValues items)
  | .object _ members => .obj (memberValues members [])

def itemValues : List (Text × Tree × Text) → List Value
  | [] => []
  | (_, t, _) :: rest => t.value :: itemValues rest

def memberValues : List (Name × Text × Tree × Text) → List (Text × Value) → List (Text × Value)
  | [], members => members
  | (n, _, t, _) :: rest, members => memberValues rest (setMember members n.name t.value)

end

/-- `JSON.parse` -/
def parse (text : Text) : Except String Value := do
  let d ← require "SyntaxError" (parseDocument text)
  pure d.tree.value

/-- What follows does not start with a unit of some kind. -/
def Clear (p : ℕ → Bool) (t : Text) : Prop := ∀ c ∈ t.head?, p c = false

theorem Clear.cons {p : ℕ → Bool} {c : ℕ} {t : Text} (h : p c = false) : Clear p (c :: t) := by
  intro d hd
  obtain rfl : c = d := by simpa using hd
  exact h

/-- A run of units that nothing of their kind follows is taken whole. -/
theorem span_append {p : ℕ → Bool} {t u : Text} (ht : ∀ c ∈ t, p c = true) (hu : Clear p u) :
    (t ++ u).takeWhile p = t ∧ (t ++ u).dropWhile p = u := by
  rw [List.takeWhile_append_of_pos ht, List.dropWhile_append_of_pos ht]
  cases u with
  | nil => simp
  | cons c u =>
    have hc : p c = false := hu c rfl
    simp [hc]

theorem takeString_append {raw : Text} (hraw : isStringBody raw = true) (rest : Text) :
    takeString false (raw ++ quote :: rest) = some (raw, rest) := by
  have hplain : ∀ (u : ℕ) (t : Text), u ≠ reverseSolidus → u ≠ quote →
      takeString false (u :: t) = (takeString false t).map fun r => (u :: r.1, r.2) := by
    intro u t hsolidus hquote
    rw [takeString, if_neg hquote, decide_eq_false hsolidus]
  have hescape : ∀ (e : ℕ) (t : Text), takeString false (reverseSolidus :: e :: t) =
      (takeString false t).map fun r => (reverseSolidus :: e :: r.1, r.2) := by
    intro e t
    rw [takeString, if_neg (by decide), decide_eq_true rfl, takeString, Option.map_map]
    rfl
  refine isStringBody_induction (P := fun raw =>
    takeString false (raw ++ quote :: rest) = some (raw, rest)) ?nil ?unit ?escape ?hex raw hraw
  case nil => rfl
  case unit =>
    intro u raw hsolidus hquote _ ih
    rw [List.cons_append, hplain u _ hsolidus hquote, ih]
    rfl
  case escape =>
    intro e raw _ _ ih
    rw [List.cons_append, List.cons_append, hescape, ih]
    rfl
  case hex =>
    intro a b c d raw hhex ih
    have hne : ∀ x ∈ [a, b, c, d], x ≠ reverseSolidus ∧ x ≠ quote := by
      intro x hx
      have hx' := hhex x hx
      constructor
      · intro heq
        rw [heq] at hx'
        exact absurd hx' (by decide)
      · intro heq
        rw [heq] at hx'
        exact absurd hx' (by decide)
    simp only [List.cons_append]
    rw [hescape, hplain a _ (hne a (by simp)).1 (hne a (by simp)).2,
      hplain b _ (hne b (by simp)).1 (hne b (by simp)).2,
      hplain c _ (hne c (by simp)).1 (hne c (by simp)).2,
      hplain d _ (hne d (by simp)).1 (hne d (by simp)).2, ih]
    rfl

theorem parseString_append {raw : Text} (hraw : isStringBody raw = true) (rest : Text) :
    parseString (raw ++ quote :: rest) = some (raw, rest) := by
  unfold parseString
  rw [takeString_append hraw rest]
  simp [hraw]

/-- A value is not empty, and what it starts with tells it from blanks and closing brackets. -/
theorem Tree.Valid.head {t : Tree} (h : t.Valid) :
    ∃ c rest, t.text = c :: rest ∧ isBlank c = false ∧ c ≠ closeArray := by
  cases h with
  | literal l => cases l <;> exact ⟨_, _, rfl, by decide, by decide⟩
  | number hraw =>
    obtain ⟨_, c, rest, rfl, hfirst⟩ := numberParts_units hraw
    refine ⟨c, rest, rfl, ?_⟩
    rcases hfirst with rfl | hdigit
    · exact ⟨by decide, by decide⟩
    · rw [isDigit_iff] at hdigit
      constructor
      · simp only [isBlank, Bool.or_eq_false_iff, decide_eq_false_iff_not]
        omega
      · unfold closeArray
        omega
  | string => exact ⟨_, _, rfl, by decide, by decide⟩
  | array => exact ⟨_, _, rfl, by decide, by decide⟩
  | object => exact ⟨_, _, rfl, by decide, by decide⟩

/-- With enough fuel, the text of the tree is read as the tree, whatever follows it. -/
def ReadBack (t : Tree) : Prop :=
  ∀ fuel rest, t.text.length ≤ fuel → Clear isNumberUnit rest →
    parseTree fuel (t.text ++ rest) = some (t, rest)

/-- The fuel for a text that is not empty. -/
theorem exists_fuel {t : Text} {fuel : ℕ} (ht : t ≠ []) (h : t.length ≤ fuel) :
    ∃ n, fuel = n + 1 := by
  have hpos := List.length_pos_iff.mpr ht
  exact ⟨fuel - 1, by omega⟩

theorem readBack_literal (l : Literal) : ReadBack (.literal l) := by
  intro fuel rest hfuel _
  obtain ⟨n, rfl⟩ := exists_fuel (by cases l <;> exact List.cons_ne_nil _ _) hfuel
  cases l <;> rfl

theorem readBack_string {raw : Text} (hraw : isStringBody raw = true) :
    ReadBack (.string raw) := by
  intro fuel rest hfuel _
  obtain ⟨n, rfl⟩ := exists_fuel (by simp [Tree.text]) hfuel
  have htext : (Tree.string raw).text ++ rest = quote :: (raw ++ quote :: rest) := by
    simp [Tree.text]
  rw [htext, parseTree, if_pos rfl, parseString_append hraw]
  rfl

theorem readBack_number {raw : Text} (hraw : (numberParts raw).isSome = true) :
    ReadBack (.number raw) := by
  intro fuel rest hfuel hrest
  obtain ⟨hunits, c, more, rfl, hfirst⟩ := numberParts_units hraw
  obtain ⟨n, rfl⟩ := exists_fuel (by simp [Tree.text]) hfuel
  have hspan := span_append hunits hrest
  have hplain : c ≠ quote ∧ c ≠ openArray ∧ c ≠ openObject ∧
      (decide (c = 0x2d) || isDigit c) = true := by
    rcases hfirst with rfl | hdigit
    · decide
    · refine ⟨?_, ?_, ?_, by simp [hdigit]⟩ <;>
      · intro heq
        rw [heq] at hdigit
        exact absurd hdigit (by decide)
  show parseTree (n + 1) (c :: (more ++ rest)) = _
  rw [parseTree, if_neg hplain.1, if_neg hplain.2.1, if_neg hplain.2.2.1, if_pos hplain.2.2.2,
    ← List.cons_append, parseNumber, hspan.1, hspan.2, if_pos hraw]

/-- A unit that separates or closes ends a number and the blanks before it. -/
theorem clear_after {after : Text} (hafter : Blank after) {c : ℕ} {rest : Text}
    (hc : isNumberUnit c = false) : Clear isNumberUnit (after ++ c :: rest) := by
  cases after with
  | nil => exact Clear.cons hc
  | cons u after =>
    have hu := hafter u (List.mem_cons_self ..)
    refine Clear.cons ?_
    simp only [isBlank, Bool.or_eq_true, decide_eq_true_eq] at hu
    rcases hu with ((rfl | rfl) | rfl) | rfl <;> decide

/-- The blanks before a value are taken whole. -/
theorem span_value {before : Text} (hbefore : Blank before) {t : Tree} (ht : t.Valid)
    (rest : Text) :
    (before ++ (t.text ++ rest)).takeWhile isBlank = before ∧
      (before ++ (t.text ++ rest)).dropWhile isBlank = t.text ++ rest := by
  obtain ⟨c, more, htext, hc, _⟩ := ht.head
  apply span_append hbefore
  rw [htext]
  exact Clear.cons hc

theorem parseItems_append {items : List (Text × Tree × Text)} (hne : items ≠ [])
    (hbefore : ∀ e ∈ items, Blank e.1) (hvalid : ∀ e ∈ items, e.2.1.Valid)
    (hread : ∀ e ∈ items, ReadBack e.2.1) (hafter : ∀ e ∈ items, Blank e.2.2) (fuel : ℕ)
    (rest : Text) (hfuel : (joined (itemTexts items)).length + 1 ≤ fuel) :
    parseItems fuel (joined (itemTexts items) ++ closeArray :: rest) = some (items, rest) := by
  induction items generalizing fuel with
  | nil => exact absurd rfl hne
  | cons e items ih =>
    obtain ⟨before, t, after⟩ := e
    obtain ⟨n, rfl⟩ : ∃ n, fuel = n + 1 := ⟨fuel - 1, by omega⟩
    have hmem : (before, t, after) ∈ (before, t, after) :: items := List.mem_cons_self ..
    have hback := hread _ hmem
    have htree := hvalid _ hmem
    have hblank := hafter _ hmem
    cases items with
    | nil =>
      have htext : joined (itemTexts [(before, t, after)]) ++ closeArray :: rest =
          before ++ (t.text ++ (after ++ closeArray :: rest)) := by
        simp [itemTexts, joined]
      have hlength : t.text.length ≤ n := by
        simp only [itemTexts, joined, List.length_append] at hfuel
        omega
      have hspan := span_value (hbefore _ hmem) htree (after ++ closeArray :: rest)
      have htail := span_append hblank (Clear.cons (by decide) : Clear isBlank (closeArray :: rest))
      rw [htext, parseItems, hspan.1, hspan.2,
        hback n _ hlength (clear_after hblank (by decide))]
      simp only [Option.bind_eq_bind, Option.bind_some, htail.1, htail.2, List.head?_cons,
        List.tail_cons, if_neg (by decide : closeArray ≠ comma), if_true]
    | cons e' items =>
      have htext : joined (itemTexts ((before, t, after) :: e' :: items)) ++ closeArray :: rest =
          before ++ (t.text ++ (after ++
            comma :: (joined (itemTexts (e' :: items)) ++ closeArray :: rest))) := by
        simp [itemTexts, joined]
      have hlengths : t.text.length ≤ n ∧ (joined (itemTexts (e' :: items))).length + 1 ≤ n := by
        have hsize : (joined (itemTexts ((before, t, after) :: e' :: items))).length =
            before.length + t.text.length + after.length + 1 +
              (joined (itemTexts (e' :: items))).length := by
          simp only [itemTexts, joined, List.length_append, List.length_cons]
          omega
        have hpos : 0 < t.text.length := by
          obtain ⟨c, more, hcons, _⟩ := htree.head
          rw [hcons]
          simp
        omega
      have hspan := span_value (hbefore _ hmem) htree
        (after ++ comma :: (joined (itemTexts (e' :: items)) ++ closeArray :: rest))
      have htail := span_append hblank (Clear.cons (by decide) :
        Clear isBlank (comma :: (joined (itemTexts (e' :: items)) ++ closeArray :: rest)))
      have hmore := ih (List.cons_ne_nil _ _) (fun x hx => hbefore x (List.mem_cons_of_mem _ hx))
        (fun x hx => hvalid x (List.mem_cons_of_mem _ hx))
        (fun x hx => hread x (List.mem_cons_of_mem _ hx))
        (fun x hx => hafter x (List.mem_cons_of_mem _ hx)) n hlengths.2
      rw [htext, parseItems, hspan.1, hspan.2,
        hback n _ hlengths.1 (clear_after hblank (by decide))]
      simp only [Option.bind_eq_bind, Option.bind_some, htail.1, htail.2, List.head?_cons,
        List.tail_cons, if_true, hmore]

/-- The name of a member is read up to its colon. -/
theorem parseMembers_name {n : Name} (hraw : isStringBody n.raw = true) (hbefore : Blank n.before)
    (hafter : Blank n.after) (fuel : ℕ) (start : Text) :
    parseMembers (fuel + 1) (n.text ++ start) = (do
      let (value, rest) ← parseTree fuel (start.dropWhile isBlank)
      let member := (n, start.takeWhile isBlank, value, rest.takeWhile isBlank)
      let c ← (rest.dropWhile isBlank).head?
      if c = comma then
        let (members, rest) ← parseMembers fuel (rest.dropWhile isBlank).tail
        some (member :: members, rest)
      else if c = closeObject then some ([member], (rest.dropWhile isBlank).tail)
      else none) := by
  have htext : n.text ++ start =
      n.before ++ (quote :: (n.raw ++ quote :: (n.after ++ colon :: start))) := by
    simp [Name.text, Name.opening]
  have hspan := span_append hbefore (Clear.cons (by decide) :
    Clear isBlank (quote :: (n.raw ++ quote :: (n.after ++ colon :: start))))
  have hspan' := span_append hafter (Clear.cons (by decide) : Clear isBlank (colon :: start))
  rw [htext, parseMembers, hspan.1, hspan.2]
  simp only [Option.bind_eq_bind, Option.bind_some, List.head?_cons, List.tail_cons, ne_eq,
    not_true_eq_false, if_false, parseString_append hraw, hspan'.1, hspan'.2]

theorem parseMembers_append {members : List (Name × Text × Tree × Text)} (hne : members ≠ [])
    (hname : ∀ m ∈ members, isStringBody m.1.raw = true)
    (hnames : ∀ m ∈ members, Blank m.1.before ∧ Blank m.1.after)
    (hbefore : ∀ m ∈ members, Blank m.2.1) (hvalid : ∀ m ∈ members, m.2.2.1.Valid)
    (hread : ∀ m ∈ members, ReadBack m.2.2.1) (hafter : ∀ m ∈ members, Blank m.2.2.2) (fuel : ℕ)
    (rest : Text) (hfuel : (joined (memberTexts members)).length + 1 ≤ fuel) :
    parseMembers fuel (joined (memberTexts members) ++ closeObject :: rest) =
      some (members, rest) := by
  induction members generalizing fuel with
  | nil => exact absurd rfl hne
  | cons m members ih =>
    obtain ⟨name, before, t, after⟩ := m
    obtain ⟨n, rfl⟩ : ∃ n, fuel = n + 1 := ⟨fuel - 1, by omega⟩
    have hmem : (name, before, t, after) ∈ (name, before, t, after) :: members :=
      List.mem_cons_self ..
    have hback := hread _ hmem
    have htree := hvalid _ hmem
    have hblank := hafter _ hmem
    have hstart := parseMembers_name (hname _ hmem) (hnames _ hmem).1 (hnames _ hmem).2 n
    cases members with
    | nil =>
      have htext : joined (memberTexts [(name, before, t, after)]) ++ closeObject :: rest =
          name.text ++ (before ++ (t.text ++ (after ++ closeObject :: rest))) := by
        simp [memberTexts, joined]
      have hlength : t.text.length ≤ n := by
        simp only [memberTexts, joined, List.length_append] at hfuel
        omega
      have hspan := span_value (hbefore _ hmem) htree (after ++ closeObject :: rest)
      have htail := span_append hblank
        (Clear.cons (by decide) : Clear isBlank (closeObject :: rest))
      rw [htext, hstart, hspan.1, hspan.2, hback n _ hlength (clear_after hblank (by decide))]
      simp only [Option.bind_eq_bind, Option.bind_some, htail.1, htail.2, List.head?_cons,
        List.tail_cons, if_neg (by decide : closeObject ≠ comma), if_true]
    | cons m' members =>
      have htext : joined (memberTexts ((name, before, t, after) :: m' :: members)) ++
          closeObject :: rest = name.text ++ (before ++ (t.text ++ (after ++
            comma :: (joined (memberTexts (m' :: members)) ++ closeObject :: rest)))) := by
        simp [memberTexts, joined]
      have hlengths : t.text.length ≤ n ∧
          (joined (memberTexts (m' :: members))).length + 1 ≤ n := by
        have hsize : (joined (memberTexts ((name, before, t, after) :: m' :: members))).length =
            name.text.length + before.length + t.text.length + after.length + 1 +
              (joined (memberTexts (m' :: members))).length := by
          simp only [memberTexts, joined, List.length_append, List.length_cons]
          omega
        have hpos : 0 < t.text.length := by
          obtain ⟨c, more, hcons, _⟩ := htree.head
          rw [hcons]
          simp
        omega
      have hspan := span_value (hbefore _ hmem) htree
        (after ++ comma :: (joined (memberTexts (m' :: members)) ++ closeObject :: rest))
      have htail := span_append hblank (Clear.cons (by decide) :
        Clear isBlank (comma :: (joined (memberTexts (m' :: members)) ++ closeObject :: rest)))
      have hmore := ih (List.cons_ne_nil _ _) (fun x hx => hname x (List.mem_cons_of_mem _ hx))
        (fun x hx => hnames x (List.mem_cons_of_mem _ hx))
        (fun x hx => hbefore x (List.mem_cons_of_mem _ hx))
        (fun x hx => hvalid x (List.mem_cons_of_mem _ hx))
        (fun x hx => hread x (List.mem_cons_of_mem _ hx))
        (fun x hx => hafter x (List.mem_cons_of_mem _ hx)) n hlengths.2
      rw [htext, hstart, hspan.1, hspan.2, hback n _ hlengths.1 (clear_after hblank (by decide))]
      simp only [Option.bind_eq_bind, Option.bind_some, htail.1, htail.2, List.head?_cons,
        List.tail_cons, if_true, hmore]

theorem Tree.Valid.readBack {t : Tree} (h : t.Valid) : ReadBack t := by
  induction h with
  | literal l => exact readBack_literal l
  | number hraw => exact readBack_number hraw
  | string hraw => exact readBack_string hraw
  | @array blank items hblank hnone hbefore hvalid hafter ih =>
    intro fuel rest hfuel _
    obtain ⟨n, rfl⟩ := exists_fuel (by simp [Tree.text]) hfuel
    have htext : (Tree.array blank items).text ++ rest =
        openArray :: (blank ++ (joined (itemTexts items) ++ closeArray :: rest)) := by
      simp [Tree.text]
    rw [htext, parseTree, if_neg (by decide : openArray ≠ quote), if_pos rfl]
    cases items with
    | nil =>
      have hspan := span_append hblank
        (Clear.cons (by decide) : Clear isBlank (closeArray :: rest))
      simp only [itemTexts, joined, List.nil_append, hspan.1, hspan.2, List.head?_cons,
        if_true, List.tail_cons]
    | cons e items =>
      obtain ⟨before, t, after⟩ := e
      have hmem : (before, t, after) ∈ (before, t, after) :: items := List.mem_cons_self ..
      have hempty : blank = [] := hnone (List.cons_ne_nil _ _)
      subst hempty
      obtain ⟨c, more, hcons, _, hopen⟩ := (hvalid _ hmem).head
      have hfirst : ((joined (itemTexts ((before, t, after) :: items)) ++
          closeArray :: rest).dropWhile isBlank).head? ≠ some closeArray := by
        have htext : ∃ u, joined (itemTexts ((before, t, after) :: items)) ++ closeArray :: rest =
            before ++ (t.text ++ u) := by
          rw [itemTexts, joined_cons]
          refine ⟨after ++ (itemTexts items).flatMap (comma :: ·) ++ closeArray :: rest, ?_⟩
          simp only [List.append_assoc]
        obtain ⟨u, hu⟩ := htext
        rw [hu, (span_value (hbefore _ hmem) (hvalid _ hmem) u).2, hcons, List.cons_append,
          List.head?_cons, ne_eq, Option.some.injEq]
        exact hopen
      have hlength : (joined (itemTexts ((before, t, after) :: items))).length + 1 ≤ n := by
        simp only [Tree.text, List.length_append, List.length_cons,
          List.length_nil] at hfuel
        omega
      rw [List.nil_append, if_neg hfirst,
        parseItems_append (List.cons_ne_nil _ _) hbefore hvalid ih hafter n rest hlength]
      rfl
  | @object blank members hblank hnone hname hnames hbefore hvalid hafter ih =>
    intro fuel rest hfuel _
    obtain ⟨n, rfl⟩ := exists_fuel (by simp [Tree.text]) hfuel
    have htext : (Tree.object blank members).text ++ rest =
        openObject :: (blank ++ (joined (memberTexts members) ++ closeObject :: rest)) := by
      simp [Tree.text]
    rw [htext, parseTree, if_neg (by decide : openObject ≠ quote),
      if_neg (by decide : openObject ≠ openArray), if_pos rfl]
    cases members with
    | nil =>
      have hspan := span_append hblank
        (Clear.cons (by decide) : Clear isBlank (closeObject :: rest))
      simp only [memberTexts, joined, List.nil_append, hspan.1, hspan.2, List.head?_cons,
        if_true, List.tail_cons]
    | cons m members =>
      obtain ⟨name, before, t, after⟩ := m
      have hmem : (name, before, t, after) ∈ (name, before, t, after) :: members :=
        List.mem_cons_self ..
      have hempty : blank = [] := hnone (List.cons_ne_nil _ _)
      subst hempty
      have hfirst : ((joined (memberTexts ((name, before, t, after) :: members)) ++
          closeObject :: rest).dropWhile isBlank).head? ≠ some closeObject := by
        have htext : ∃ u, joined (memberTexts ((name, before, t, after) :: members)) ++
            closeObject :: rest = name.before ++ (quote :: u) := by
          rw [memberTexts, joined_cons]
          constructor
          simp only [Name.text, Name.opening, List.append_assoc, List.cons_append]
          rfl
        obtain ⟨u, hu⟩ := htext
        have hspan := span_append (hnames _ hmem).1
          (Clear.cons (by decide) : Clear isBlank (quote :: u))
        rw [hu, hspan.2, List.head?_cons, ne_eq, Option.some.injEq]
        decide
      have hlength : (joined (memberTexts ((name, before, t, after) :: members))).length
          + 1 ≤ n := by
        simp only [Tree.text, List.length_append, List.length_cons,
          List.length_nil] at hfuel
        omega
      rw [List.nil_append, if_neg hfirst, parseMembers_append (List.cons_ne_nil _ _) hname hnames
        hbefore hvalid ih hafter n rest hlength]
      rfl

/-- The parser reads the text of every document of the grammar as that document. -/
theorem parseDocument_text {d : Document} (hd : d.Valid) : parseDocument d.text = some d := by
  obtain ⟨before, t, after⟩ := d
  have hspan := span_value hd.before hd.tree after
  have htext : Document.text ⟨before, t, after⟩ = before ++ (t.text ++ after) := by
    simp [Document.text]
  have hclear : Clear isNumberUnit after := by
    cases after with
    | nil => exact fun c hc => nomatch hc
    | cons u rest =>
      have hu : isBlank u = true := hd.after u (List.mem_cons_self ..)
      refine Clear.cons ?_
      simp only [isBlank, Bool.or_eq_true, decide_eq_true_eq] at hu
      rcases hu with ((rfl | rfl) | rfl) | rfl <;> decide
  have hlength : t.text.length ≤ (before ++ (t.text ++ after)).length + 1 := by
    simp only [List.length_append]
    omega
  have hblank : after.all isBlank = true := List.all_eq_true.mpr hd.after
  rw [htext, parseDocument, hspan.1, hspan.2, hd.tree.readBack _ _ hlength hclear]
  simp only [Option.bind_eq_bind, Option.bind_some, hblank, if_true]

end DirectTrade.Encoding
