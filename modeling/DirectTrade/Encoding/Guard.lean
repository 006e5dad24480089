import DirectTrade.Encoding.Scanner

/-!
What the guard refuses. Reading a tree of the grammar, the machine stands after each value where
it stood before it, with the names of the open objects as they are in the tree; so it refuses a
text at the unit where an escaped name, a repeated name or a fraction or exponent shows.
-/

namespace DirectTrade.Encoding

open Library Scanning

/-- No name is written with an escape, no object has two members of one name, and no number is
written with a fraction or an exponent when only integers are to be. -/
inductive Tree.Safe (integerNumbers : Bool) : Tree → Prop
  | literal (l : Literal) : Safe integerNumbers (.literal l)
  | number {raw : Text} (h : integerNumbers = true → ∀ u ∈ raw, isMark u = false) :
      Safe integerNumbers (.number raw)
  | string (raw : Text) : Safe integerNumbers (.string raw)
  | array {blank : Text} {items : List (Text × Tree × Text)}
      (h : ∀ e ∈ items, Safe integerNumbers e.2.1) : Safe integerNumbers (.array blank items)
  | object {blank : Text} {members : List (Name × Text × Tree × Text)}
      (hescape : ∀ m ∈ members, reverseSolidus ∉ m.1.raw)
      (hdistinct : (members.map fun m => m.1.name).Nodup)
      (h : ∀ m ∈ members, Safe integerNumbers m.2.2.1) : Safe integerNumbers (.object blank members)

/-- `Refused integerNumbers node x`: in the text of `node` itself something is refused, and `x`
is that text up to the end of it: the closing quote of the name, or the mark in the number. -/
inductive Refused (integerNumbers : Bool) : Tree → Text → Prop
  | escape {blank : Text} {l r : List (Name × Text × Tree × Text)} {n : Name}
      {e : Text × Tree × Text} (h : reverseSolidus ∈ n.raw) :
      Refused integerNumbers (.object blank (l ++ (n, e) :: r))
        (openObject :: blank ++ started (memberTexts l) ++ n.opening)
  | duplicate {blank : Text} {l r : List (Name × Text × Tree × Text)} {n : Name}
      {e : Text × Tree × Text} {m : Name × Text × Tree × Text} (hm : m ∈ l)
      (h : m.1.name = n.name) :
      Refused integerNumbers (.object blank (l ++ (n, e) :: r))
        (openObject :: blank ++ started (memberTexts l) ++ n.opening)
  | fraction {a b : Text} {d : ℕ} (hintegers : integerNumbers = true) (h : isMark d = true) :
      Refused integerNumbers (.number (a ++ d :: b)) (a ++ [d])

/-- What a text shows before it ends: it starts a text of the grammar, in which something is
refused that has been completed by then. -/
def Shows (integerNumbers : Bool) (text : Text) : Prop :=
  ∃ d rest, Document.Valid d ∧ d.text = text ++ rest ∧ ∃ before node x,
    At d.tree before node ∧ Refused integerNumbers node x ∧
      (d.before ++ before ++ x).length ≤ text.length

variable {integerNumbers : Bool}

/-- The machine is not in a string, and stands in the objects with these names. -/
structure Stands (integerNumbers : Bool) (names : List (Option (List Text))) (expectName : Bool)
    (m : Machine) : Prop where
  names : m.names = names
  expectName : m.expectName = expectName
  quiet : m.mode = .plain ∨ integerNumbers = true ∧ m.mode = .inNumber

/-- The machine reads a text, refusing it only when it is not safe. -/
abbrev Reads (integerNumbers : Bool) (m : Machine) (t : Text) (safe : Prop)
    (post : Machine → Prop) : Prop :=
  Scans (Machine.step integerNumbers) m t safe post

/-- A unit that ends a number, or stands outside one. -/
theorem Stands.step {names : List (Option (List Text))} {e : Bool} {m : Machine} {c : ℕ}
    (h : Stands integerNumbers names e m) (hc : isNumberUnit c = false) :
    m.step integerNumbers c = some (m.plainStep integerNumbers c) := by
  simp only [isNumberUnit, Bool.or_eq_false_iff] at hc
  unfold Machine.step
  rcases h.quiet with hmode | ⟨_, hmode⟩
  · rw [hmode]
  · rw [hmode]
    simp [hc]

/-- A single unit outside strings. -/
theorem Stands.unit {names names' : List (Option (List Text))} {e e' : Bool} {m : Machine} {c : ℕ}
    {p : Prop} (h : Stands integerNumbers names e m) (hc : isNumberUnit c = false)
    (hnext : Stands integerNumbers names' e' (m.plainStep integerNumbers c)) :
    Reads integerNumbers m [c] p (Stands integerNumbers names' e') := by
  unfold Reads Scans
  rw [run_cons, h.step hc]
  exact hnext

theorem Stands.blank {names : List (Option (List Text))} {e : Bool} {t : Text} (ht : Blank t)
    {m : Machine} {p : Prop} (h : Stands integerNumbers names e m) :
    Reads integerNumbers m t p (Stands integerNumbers names e) := by
  induction t generalizing m with
  | nil => exact Scans.nil h
  | cons u t ih =>
    have hu : isBlank u = true := ht u (List.mem_cons_self ..)
    have hunit : isNumberUnit u = false ∧
        m.plainStep integerNumbers u = { m with mode := .plain } := by
      simp only [isBlank, Bool.or_eq_true, decide_eq_true_eq] at hu
      rcases hu with ((rfl | rfl) | rfl) | rfl <;>
        exact ⟨by decide, by cases integerNumbers <;> rfl⟩
    have hnext : Stands integerNumbers names e (m.plainStep integerNumbers u) := by
      rw [hunit.2]
      exact ⟨h.names, h.expectName, .inl rfl⟩
    exact (h.unit hunit.1 hnext).seq fun m' h' =>
      ih (fun v hv => ht v (List.mem_cons_of_mem _ hv)) h'

theorem Stands.comma {names : List (Option (List Text))} {e : Bool} {m : Machine} {p : Prop}
    (h : Stands integerNumbers names e m) :
    Reads integerNumbers m [comma] p (Stands integerNumbers names (inObject names)) := by
  refine h.unit (by decide) ⟨h.names, ?_, .inl rfl⟩
  show inObject m.names = inObject names
  rw [h.names]

theorem Stands.colon {names : List (Option (List Text))} {e : Bool} {m : Machine} {p : Prop}
    (h : Stands integerNumbers names e m) :
    Reads integerNumbers m [colon] p (Stands integerNumbers names false) :=
  h.unit (by decide) ⟨h.names, rfl, .inl rfl⟩

theorem Stands.openObject {names : List (Option (List Text))} {e : Bool} {m : Machine} {p : Prop}
    (h : Stands integerNumbers names e m) :
    Reads integerNumbers m [openObject] p (Stands integerNumbers (some [] :: names) true) := by
  refine h.unit (by decide) ⟨?_, rfl, .inl rfl⟩
  show some [] :: m.names = some [] :: names
  rw [h.names]

theorem Stands.openArray {names : List (Option (List Text))} {e : Bool} {m : Machine} {p : Prop}
    (h : Stands integerNumbers names e m) :
    Reads integerNumbers m [openArray] p (Stands integerNumbers (none :: names) false) := by
  refine h.unit (by decide) ⟨?_, rfl, .inl rfl⟩
  show none :: m.names = none :: names
  rw [h.names]

theorem Stands.close {names : List (Option (List Text))} {top : Option (List Text)} {e : Bool}
    {m : Machine} {p : Prop} {c : ℕ} (h : Stands integerNumbers (top :: names) e m)
    (hc : c = closeObject ∨ c = closeArray) :
    Reads integerNumbers m [c] p (Stands integerNumbers names false) := by
  have htail : m.names.tail = names := by rw [h.names]; rfl
  rcases hc with rfl | rfl
  · exact h.unit (by decide) ⟨htail, rfl, .inl rfl⟩
  · exact h.unit (by decide) ⟨htail, rfl, .inl rfl⟩

/-- An ordinary unit of a string. -/
theorem run_inString {m : Machine} {isName skipped : Bool} {body t : Text} {u : ℕ}
    (hmode : m.mode = .inString isName skipped body)
    (hu : skipped = true ∨ u ≠ reverseSolidus ∧ u ≠ quote) :
    m.run integerNumbers (u :: t) =
      Machine.run integerNumbers { m with mode := .inString isName false (u :: body) } t := by
  unfold Machine.run
  rw [run_cons, Machine.step, hmode]
  cases skipped with
  | true => rfl
  | false =>
    have hplain := hu.resolve_left (by decide)
    simp only [if_neg hplain.1, if_neg hplain.2]
    rfl

theorem run_solidus {m : Machine} {isName : Bool} {body t : Text}
    (hmode : m.mode = .inString isName false body) :
    m.run integerNumbers (reverseSolidus :: t) = if isName then none else Machine.run integerNumbers
      { m with mode := .inString isName true (reverseSolidus :: body) } t := by
  unfold Machine.run
  rw [run_cons, Machine.step, hmode]
  cases isName <;> rfl

/-- The units between the quotes are kept, and a name refuses the first escape. -/
theorem run_stringBody {isName : Bool} {raw : Text} (hraw : isStringBody raw = true) :
    ∀ {m : Machine} {body : Text}, m.mode = .inString isName false body →
      m.run integerNumbers raw = if isName = true ∧ reverseSolidus ∈ raw then none
        else some { m with mode := .inString isName false (raw.reverse ++ body) } := by
  refine isStringBody_induction (P := fun raw => ∀ {m : Machine} {body : Text},
    m.mode = .inString isName false body →
      m.run integerNumbers raw = if isName = true ∧ reverseSolidus ∈ raw then none
        else some { m with mode := .inString isName false (raw.reverse ++ body) })
    ?nil ?unit ?escape ?hex raw hraw
  case nil =>
    intro m body hmode
    rw [if_neg (by simp)]
    show some m = some { m with mode := .inString isName false body }
    rw [← hmode]
  case unit =>
    intro u rest hsolidus hquote _ ih m body hmode
    rw [run_inString hmode (.inr ⟨hsolidus, hquote⟩), ih rfl, List.reverse_cons,
      List.append_assoc]
    simp [Ne.symm hsolidus]
  case escape =>
    intro e rest _ he ih m body hmode
    rw [run_solidus hmode]
    cases isName with
    | true => simp
    | false =>
      rw [if_neg (by decide), run_inString rfl (.inl rfl), ih rfl]
      simp
  case hex =>
    intro a b c d rest hhex ih m body hmode
    rw [run_solidus hmode]
    cases isName with
    | true => simp
    | false =>
      have hplain : ∀ x ∈ [a, b, c, d], x ≠ reverseSolidus ∧ x ≠ quote := by
        intro x hx
        constructor
        · intro heq
          have hbad := hhex x hx
          rw [heq] at hbad
          exact absurd hbad (by decide)
        · intro heq
          have hbad := hhex x hx
          rw [heq] at hbad
          exact absurd hbad (by decide)
      rw [if_neg (by decide), run_inString rfl (.inl rfl),
        run_inString rfl (.inr (hplain a (by simp))), run_inString rfl (.inr (hplain b (by simp))),
        run_inString rfl (.inr (hplain c (by simp))), run_inString rfl (.inr (hplain d (by simp))),
        ih rfl]
      simp

/-- A name is refused when it is written with an escape or has been seen. -/
theorem Stands.name {seen : List Text} {outer : List (Option (List Text))} {m : Machine}
    (h : Stands integerNumbers (some seen :: outer) true m) {raw : Text}
    (hraw : isStringBody raw = true) :
    m.run integerNumbers (quote :: raw ++ [quote]) =
      if reverseSolidus ∈ raw ∨ raw ∈ seen then none
      else some { names := some (raw :: seen) :: outer, expectName := false, mode := .plain } := by
  have hopen : m.step integerNumbers quote =
      some { m with mode := .inString true false [] } := by
    rw [h.step (by decide), Machine.plainStep, if_pos rfl, h.expectName]
  unfold Machine.run
  rw [List.cons_append, run_cons, hopen, Option.bind_some, run_append]
  have hbody : Machine.run integerNumbers { m with mode := .inString true false [] } raw = _ :=
    run_stringBody hraw rfl
  unfold Machine.run at hbody
  rw [hbody]
  by_cases hescape : reverseSolidus ∈ raw
  · rw [if_pos ⟨rfl, hescape⟩, if_pos (.inl hescape)]
    rfl
  · rw [if_neg (fun hboth => hescape hboth.2)]
    have hnoted : noted m.names raw =
        if raw ∈ seen then none else some (some (raw :: seen) :: outer) := by
      rw [h.names]
      rfl
    simp only [Option.bind_some, run_cons, Machine.step,
      if_neg (by decide : quote ≠ reverseSolidus),
      if_true, Machine.closeString, Machine.named, List.append_nil, List.reverse_reverse, hnoted]
    by_cases hseen : raw ∈ seen
    · rw [if_pos hseen, if_pos (.inr hseen)]
      rfl
    · rw [if_neg hseen, if_neg (not_or.mpr ⟨hescape, hseen⟩)]
      rfl

theorem Stands.string {names : List (Option (List Text))} {m : Machine} {p : Prop}
    (h : Stands integerNumbers names false m) {raw : Text} (hraw : isStringBody raw = true) :
    Reads integerNumbers m (quote :: raw ++ [quote]) p (Stands integerNumbers names false) := by
  have hopen : m.step integerNumbers quote =
      some { m with mode := .inString false false [] } := by
    rw [h.step (by decide), Machine.plainStep, if_pos rfl, h.expectName]
  have hbody : Machine.run integerNumbers { m with mode := .inString false false [] } raw = _ :=
    run_stringBody hraw rfl
  unfold Machine.run at hbody
  unfold Reads Scans
  rw [List.cons_append, run_cons, hopen, Option.bind_some, run_append, hbody,
    if_neg (fun hboth => absurd hboth.1 Bool.false_ne_true)]
  exact ⟨h.names, rfl, .inl rfl⟩

theorem Stands.literal {names : List (Option (List Text))} {m : Machine} {p : Prop}
    (h : Stands integerNumbers names false m) (l : Literal) :
    Reads integerNumbers m l.text p (Stands integerNumbers names false) := by
  obtain ⟨c, rest, htext, hc, hplain, hrest⟩ : ∃ c rest, l.text = c :: rest ∧
      isNumberUnit c = false ∧ m.plainStep integerNumbers c = { m with mode := .plain } ∧
      ({ m with mode := .plain } : Machine).run integerNumbers rest =
        some { m with mode := .plain } := by
    cases l <;> cases integerNumbers <;> exact ⟨_, _, rfl, by decide, rfl, (by rfl)⟩
  have hstands : Stands integerNumbers names false { m with mode := .plain } :=
    ⟨h.names, h.expectName, .inl rfl⟩
  unfold Machine.run at hrest
  unfold Reads Scans
  rw [htext, run_cons, h.step hc, hplain, Option.bind_some, hrest]
  exact hstands

/-- The units of a number that is being read. -/
theorem run_inNumber {m : Machine} {raw : Text} (hraw : ∀ u ∈ raw, isNumberUnit u = true)
    (hmode : m.mode = .inNumber) :
    m.run integerNumbers raw = if ∃ u ∈ raw, isMark u = true then none else some m := by
  unfold Machine.run
  induction raw with
  | nil => rw [if_neg (by simp)]; rfl
  | cons u rest ih =>
    have hu := hraw u (List.mem_cons_self ..)
    have hrest := ih fun v hv => hraw v (List.mem_cons_of_mem _ hv)
    rw [run_cons, Machine.step, hmode]
    by_cases hmark : isMark u = true
    · have hsome : ∃ v ∈ u :: rest, isMark v = true := ⟨u, List.mem_cons_self .., hmark⟩
      rw [if_pos hsome]
      simp only [if_pos hmark]
      rfl
    · have hdigit : (u = 0x2b || u = 0x2d || isDigit u) = true := by
        simp only [isNumberUnit, hmark, Bool.or_false] at hu
        revert hu
        cases isDigit u <;> cases decide (u = 0x2d) <;> cases decide (u = 0x2b) <;> decide
      simp only [if_neg hmark, if_pos hdigit, Option.bind_some, hrest]
      simp [hmark]

theorem isNumberUnit_plain {u : ℕ} (h : isNumberUnit u = true) : u ≠ quote ∧ u ≠ openObject ∧
    u ≠ openArray ∧ u ≠ closeObject ∧ u ≠ closeArray ∧ u ≠ comma ∧ u ≠ colon := by
  refine ⟨?_, ?_, ?_, ?_, ?_, ?_, ?_⟩ <;>
  · intro heq
    rw [heq] at h
    exact absurd h (by decide)

/-- A number where only integers are to be written. -/
theorem run_number {names : List (Option (List Text))} {m : Machine}
    (h : Stands true names false m) {c : ℕ} {rest : Text}
    (hunits : ∀ u ∈ rest, isNumberUnit u = true) (hfirst : c = 0x2d ∨ isDigit c = true) :
    m.run true (c :: rest) = if ∃ u ∈ rest, isMark u = true then none
      else some { m with mode := .inNumber } := by
  have hunit : isNumberUnit c = true := by
    rcases hfirst with rfl | hdigit
    · decide
    · exact isNumberUnit_of_digit hdigit
  have hmark : isMark c = false := by
    rcases hfirst with rfl | hdigit
    · decide
    · rw [isDigit_iff] at hdigit
      simp only [isMark, Bool.or_eq_false_iff, decide_eq_false_iff_not]
      omega
  have hstep : m.step true c = some { m with mode := .inNumber } := by
    have hplain := isNumberUnit_plain hunit
    have hstart : (true && (decide (c = 0x2d) || isDigit c)) = true := by
      rcases hfirst with hsign | hdigit
      · simp [hsign]
      · simp [hdigit]
    unfold Machine.step
    rcases h.quiet with hmode | ⟨_, hmode⟩
    · simp only [hmode, Machine.plainStep, if_neg hplain.1, if_neg hplain.2.1,
        if_neg hplain.2.2.1, hplain.2.2.2.1, hplain.2.2.2.2.1, decide_false, Bool.or_self,
        Bool.false_eq_true, if_false, if_neg hplain.2.2.2.2.2.1, if_neg hplain.2.2.2.2.2.2,
        if_pos hstart]
    · have hstay : (decide (c = 0x2b) || decide (c = 0x2d) || isDigit c) = true := by
        rcases hfirst with hsign | hdigit
        · simp [hsign]
        · simp [hdigit]
      simp only [hmode, hmark, Bool.false_eq_true, if_false, if_pos hstay]
      rw [← hmode]
  have hrest : Machine.run true { m with mode := .inNumber } rest = _ := run_inNumber hunits rfl
  unfold Machine.run at hrest ⊢
  rw [run_cons, hstep, Option.bind_some, hrest]

/-- A number where any may be written. -/
theorem run_anyNumber {names : List (Option (List Text))} {m : Machine}
    (h : Stands false names false m) {raw : Text} (hunits : ∀ u ∈ raw, isNumberUnit u = true) :
    m.run false raw = some m := by
  have hmode : m.mode = .plain := h.quiet.resolve_right (fun hboth => nomatch hboth.1)
  unfold Machine.run
  induction raw with
  | nil => rfl
  | cons u rest ih =>
    have hplain := isNumberUnit_plain (hunits u (List.mem_cons_self ..))
    have hstep : m.step false u = some m := by
      simp only [Machine.step, hmode, Machine.plainStep, if_neg hplain.1, if_neg hplain.2.1,
        if_neg hplain.2.2.1, hplain.2.2.2.1, hplain.2.2.2.2.1, decide_false, Bool.or_self,
        Bool.false_eq_true, if_false, if_neg hplain.2.2.2.2.2.1, if_neg hplain.2.2.2.2.2.2,
        Bool.false_and]
      rw [← hmode]
    rw [run_cons, hstep, Option.bind_some]
    exact ih fun v hv => hunits v (List.mem_cons_of_mem _ hv)

theorem Stands.number {names : List (Option (List Text))} {m : Machine}
    (h : Stands integerNumbers names false m) {raw : Text}
    (hraw : (numberParts raw).isSome = true) :
    Reads integerNumbers m raw (integerNumbers = true → ∀ u ∈ raw, isMark u = false)
      (Stands integerNumbers names false) := by
  obtain ⟨hunits, c, rest, rfl, hfirst⟩ := numberParts_units hraw
  have hrest : ∀ u ∈ rest, isNumberUnit u = true :=
    fun u hu => hunits u (List.mem_cons_of_mem _ hu)
  unfold Reads Scans
  cases integerNumbers with
  | true =>
    have hrun := run_number h hrest hfirst
    unfold Machine.run at hrun
    rw [hrun]
    by_cases hmark : ∃ u ∈ rest, isMark u = true
    · rw [if_pos hmark]
      intro hsafe
      obtain ⟨u, hu, hbad⟩ := hmark
      rw [hsafe rfl u (List.mem_cons_of_mem _ hu)] at hbad
      exact nomatch hbad
    · rw [if_neg hmark]
      exact ⟨h.names, h.expectName, .inr ⟨rfl, rfl⟩⟩
  | false =>
    have hrun := run_anyNumber h hunits
    unfold Machine.run at hrun
    rw [hrun]
    exact h

/-- Reading the tree leads back to where it started. -/
def Returns (integerNumbers : Bool) (t : Tree) : Prop :=
  ∀ names m, Stands integerNumbers names false m →
    Reads integerNumbers m t.text (t.Safe integerNumbers) (Stands integerNumbers names false)

/-- Items, with a comma after each. -/
theorem reads_items {items : List (Text × Tree × Text)} (hbefore : ∀ e ∈ items, Blank e.1)
    (hreturns : ∀ e ∈ items, Returns integerNumbers e.2.1) (hafter : ∀ e ∈ items, Blank e.2.2)
    {names : List (Option (List Text))} {m : Machine}
    (h : Stands integerNumbers (none :: names) false m) :
    Reads integerNumbers m (started (itemTexts items))
      (∀ e ∈ items, e.2.1.Safe integerNumbers) (Stands integerNumbers (none :: names) false) := by
  induction items generalizing m with
  | nil => exact Scans.nil h
  | cons e rest ih =>
    obtain ⟨before, t, after⟩ := e
    have hblank := hbefore (before, t, after) (List.mem_cons_self ..)
    have hvalue := hreturns (before, t, after) (List.mem_cons_self ..)
    have hend := hafter (before, t, after) (List.mem_cons_self ..)
    have hitem := (h.blank hblank).seq fun m' h' => (hvalue _ m' h').seq fun m' h' =>
      (h'.blank hend).seq fun m' h' => h'.comma
    have hmore := hitem.append fun m' h' =>
      ih (fun e he => hbefore e (List.mem_cons_of_mem _ he))
        (fun e he => hreturns e (List.mem_cons_of_mem _ he))
        (fun e he => hafter e (List.mem_cons_of_mem _ he)) h'
    have htext : started (itemTexts ((before, t, after) :: rest)) =
        before ++ (t.text ++ (after ++ [comma])) ++ started (itemTexts rest) := by
      simp [started, itemTexts]
    rw [htext]
    refine hmore.mono ?_ fun _ h' => h'
    intro hsafe
    exact ⟨hsafe (before, t, after) (List.mem_cons_self ..),
      fun e he => hsafe e (List.mem_cons_of_mem _ he)⟩

/-- The name of a member and its colon. -/
theorem Stands.member {seen : List Text} {outer : List (Option (List Text))} {m : Machine}
    {n : Name} (h : Stands integerNumbers (some seen :: outer) true m)
    (hraw : isStringBody n.raw = true) (hbefore : Blank n.before) (hafter : Blank n.after) :
    Reads integerNumbers m n.text (reverseSolidus ∉ n.raw ∧ n.raw ∉ seen)
      (fun m' => Stands integerNumbers (some (n.raw :: seen) :: outer) false m' ∧
        reverseSolidus ∉ n.raw) := by
  have hname : ∀ m', Stands integerNumbers (some seen :: outer) true m' →
      Reads integerNumbers m' (quote :: n.raw ++ [quote])
        (reverseSolidus ∉ n.raw ∧ n.raw ∉ seen)
        (fun m'' => Stands integerNumbers (some (n.raw :: seen) :: outer) false m'' ∧
          reverseSolidus ∉ n.raw) := by
    intro m' h'
    have hrun := h'.name hraw
    unfold Machine.run at hrun
    unfold Reads Scans
    rw [hrun]
    by_cases hbad : reverseSolidus ∈ n.raw ∨ n.raw ∈ seen
    · rw [if_pos hbad]
      intro hsafe
      rcases hbad with hbad | hbad
      · exact hsafe.1 hbad
      · exact hsafe.2 hbad
    · rw [if_neg hbad]
      rw [not_or] at hbad
      exact ⟨⟨rfl, rfl, .inl rfl⟩, hbad.1⟩
  have hwhole := (h.blank hbefore).seq fun m' h' => (hname m' h').seq fun m' h' =>
    ((h'.1.blank hafter).seq fun m'' h'' => h''.colon).mono (fun hp => hp)
      fun m'' h'' => And.intro h'' h'.2
  have htext : n.text =
      n.before ++ ((quote :: n.raw ++ [quote]) ++ (n.after ++ [Encoding.colon])) := by
    simp [Name.text, Name.opening]
  rw [htext]
  exact hwhole

/-- Members, with a comma after each. -/
theorem reads_members {members : List (Name × Text × Tree × Text)}
    (hname : ∀ m ∈ members, isStringBody m.1.raw = true)
    (hnames : ∀ m ∈ members, Blank m.1.before ∧ Blank m.1.after)
    (hbefore : ∀ m ∈ members, Blank m.2.1)
    (hreturns : ∀ m ∈ members, Returns integerNumbers m.2.2.1)
    (hafter : ∀ m ∈ members, Blank m.2.2.2) {seen : List Text}
    {names : List (Option (List Text))} {m : Machine}
    (h : Stands integerNumbers (some seen :: names) true m) :
    Reads integerNumbers m (started (memberTexts members))
      ((∀ m ∈ members, reverseSolidus ∉ m.1.raw ∧ m.1.raw ∉ seen ∧
        m.2.2.1.Safe integerNumbers) ∧ (members.map fun m => m.1.raw).Nodup)
      (fun m' => Stands integerNumbers
        (some ((members.map fun m => m.1.raw).reverse ++ seen) :: names) true m' ∧
          ∀ m ∈ members, reverseSolidus ∉ m.1.raw) := by
  induction members generalizing seen m with
  | nil =>
    refine Scans.nil ⟨?_, fun _ hm => absurd hm List.not_mem_nil⟩
    simpa using h
  | cons member rest ih =>
    obtain ⟨n, before, t, after⟩ := member
    have hmem : (n, before, t, after) ∈ (n, before, t, after) :: rest := List.mem_cons_self ..
    have hvalue := hreturns _ hmem
    have hmember := (h.member (hname _ hmem) (hnames _ hmem).1 (hnames _ hmem).2).append
      fun m' h' => ((h'.1.blank (hbefore _ hmem)).seq fun m'' h'' =>
        (hvalue _ m'' h'').seq fun m'' h'' => (h''.blank (hafter _ hmem)).seq
          fun m'' h'' => h''.comma).mono (fun hp => hp) fun m'' h'' => And.intro h'' h'.2
    have hmore := hmember.append fun m' h' =>
      (ih (fun x hx => hname x (List.mem_cons_of_mem _ hx))
        (fun x hx => hnames x (List.mem_cons_of_mem _ hx))
        (fun x hx => hbefore x (List.mem_cons_of_mem _ hx))
        (fun x hx => hreturns x (List.mem_cons_of_mem _ hx))
        (fun x hx => hafter x (List.mem_cons_of_mem _ hx)) h'.1).mono (fun hp => hp)
          fun m'' h'' => And.intro h'' h'.2
    have htext : started (memberTexts ((n, before, t, after) :: rest)) =
        n.text ++ (before ++ (t.text ++ (after ++ [comma]))) ++ started (memberTexts rest) := by
      simp [started, memberTexts]
    rw [htext]
    refine hmore.mono ?_ ?_
    · rintro ⟨hsafe, hdistinct⟩
      rw [List.map_cons, List.nodup_cons] at hdistinct
      have hfirst := hsafe _ hmem
      refine ⟨⟨⟨hfirst.1, hfirst.2.1⟩, hfirst.2.2⟩, ?_, hdistinct.2⟩
      intro x hx
      have hother := hsafe x (List.mem_cons_of_mem _ hx)
      refine ⟨hother.1, ?_, hother.2.2⟩
      intro hseen
      rcases List.mem_cons.mp hseen with heq | hseen
      · exact hdistinct.1 (heq ▸ List.mem_map_of_mem hx)
      · exact hother.2.1 hseen
    · rintro m' ⟨⟨hstands, hplain⟩, hfirst⟩
      refine ⟨?_, ?_⟩
      · simpa using hstands
      · intro x hx
        rcases List.mem_cons.mp hx with rfl | hx
        · exact hfirst
        · exact hplain x hx

/-- What stands in brackets. -/
theorem reads_array {items : List (Text × Tree × Text)} (hbefore : ∀ e ∈ items, Blank e.1)
    (hreturns : ∀ e ∈ items, Returns integerNumbers e.2.1) (hafter : ∀ e ∈ items, Blank e.2.2)
    {names : List (Option (List Text))} {m : Machine}
    (h : Stands integerNumbers (none :: names) false m) :
    Reads integerNumbers m (joined (itemTexts items))
      (∀ e ∈ items, e.2.1.Safe integerNumbers) (Stands integerNumbers (none :: names) false) := by
  rcases List.eq_nil_or_concat items with rfl | ⟨l, ⟨before, t, after⟩, rfl⟩
  · exact Scans.nil h
  · rw [List.concat_eq_append] at *
    have hmem : (before, t, after) ∈ l ++ [(before, t, after)] := by simp
    have hvalue := hreturns _ hmem
    have hread := (reads_items (fun e he => hbefore e (List.mem_append_left _ he))
      (fun e he => hreturns e (List.mem_append_left _ he))
      (fun e he => hafter e (List.mem_append_left _ he)) h).append fun m' h' =>
        (h'.blank (hbefore _ hmem)).seq fun m' h' => (hvalue _ m' h').seq fun m' h' =>
          h'.blank (hafter _ hmem)
    have htext : joined (itemTexts (l ++ [(before, t, after)])) =
        started (itemTexts l) ++ (before ++ (t.text ++ after)) := by
      rw [itemTexts_append, itemTexts, joined_split]
      simp [itemTexts]
    rw [htext]
    refine hread.mono ?_ fun _ h' => h'
    intro hsafe
    exact ⟨fun e he => hsafe e (List.mem_append_left _ he), hsafe _ hmem⟩

/-- What stands in braces. -/
theorem reads_object {members : List (Name × Text × Tree × Text)}
    (hname : ∀ m ∈ members, isStringBody m.1.raw = true)
    (hnames : ∀ m ∈ members, Blank m.1.before ∧ Blank m.1.after)
    (hbefore : ∀ m ∈ members, Blank m.2.1)
    (hreturns : ∀ m ∈ members, Returns integerNumbers m.2.2.1)
    (hafter : ∀ m ∈ members, Blank m.2.2.2) {names : List (Option (List Text))} {m : Machine}
    (h : Stands integerNumbers (some [] :: names) true m) :
    Reads integerNumbers m (joined (memberTexts members))
      ((∀ m ∈ members, reverseSolidus ∉ m.1.raw ∧ m.2.2.1.Safe integerNumbers) ∧
        (members.map fun m => m.1.raw).Nodup)
      (fun m' => ∃ top e, Stands integerNumbers (top :: names) e m') := by
  rcases List.eq_nil_or_concat members with rfl | ⟨l, ⟨n, before, t, after⟩, rfl⟩
  · exact Scans.nil ⟨_, _, h⟩
  · rw [List.concat_eq_append] at *
    have hmem : (n, before, t, after) ∈ l ++ [(n, before, t, after)] := by simp
    have hvalue := hreturns _ hmem
    have hread := (reads_members (fun x hx => hname x (List.mem_append_left _ hx))
      (fun x hx => hnames x (List.mem_append_left _ hx))
      (fun x hx => hbefore x (List.mem_append_left _ hx))
      (fun x hx => hreturns x (List.mem_append_left _ hx))
      (fun x hx => hafter x (List.mem_append_left _ hx)) h).append fun m' h' =>
        (h'.1.member (hname _ hmem) (hnames _ hmem).1 (hnames _ hmem).2).append fun m' h' =>
          (h'.1.blank (hbefore _ hmem)).seq fun m' h' => (hvalue _ m' h').seq fun m' h' =>
            h'.blank (hafter _ hmem)
    have htext : joined (memberTexts (l ++ [(n, before, t, after)])) =
        started (memberTexts l) ++ (n.text ++ (before ++ (t.text ++ after))) := by
      rw [memberTexts_append, memberTexts, joined_split]
      simp [memberTexts]
    rw [htext]
    refine hread.mono ?_ fun _ h' => ⟨_, _, h'⟩
    rintro ⟨hsafe, hdistinct⟩
    rw [List.map_append, List.nodup_append] at hdistinct
    refine ⟨⟨fun x hx => ?_, hdistinct.1⟩, ⟨(hsafe _ hmem).1, ?_⟩, (hsafe _ hmem).2⟩
    · have hx' := hsafe x (List.mem_append_left _ hx)
      exact ⟨hx'.1, List.not_mem_nil, hx'.2⟩
    · intro hseen
      rw [List.append_nil, List.mem_reverse] at hseen
      exact hdistinct.2.2 _ hseen n.raw (by simp) rfl

theorem Tree.Safe.members {blank : Text} {members : List (Name × Text × Tree × Text)}
    (h : (Tree.object blank members).Safe integerNumbers) :
    (∀ m ∈ members, reverseSolidus ∉ m.1.raw ∧ m.2.2.1.Safe integerNumbers) ∧
      (members.map fun m => m.1.raw).Nodup := by
  cases h with
  | object hescape hdistinct hsafe =>
    refine ⟨fun m hm => ⟨hescape m hm, hsafe m hm⟩, ?_⟩
    have hsame : (members.map fun m => m.1.name) = members.map fun m => m.1.raw := by
      apply List.map_congr_left
      intro m hm
      exact unescape_eq (hescape m hm)
    rwa [hsame] at hdistinct

/-- Reading any value leads back to where it started. -/
theorem Tree.Valid.returns {t : Tree} (h : t.Valid) : Returns integerNumbers t := by
  induction h with
  | literal l => exact fun names m h => h.literal l
  | number hraw =>
    intro names m h
    refine (h.number hraw).mono ?_ fun _ h' => h'
    intro hsafe
    cases hsafe with
    | number hplain => exact hplain
  | string hraw => exact fun names m h => h.string hraw
  | @array blank items hblank _ hbefore _ hafter ih =>
    intro names m h
    have hread := h.openArray.seq fun m' h' => (h'.blank hblank).seq fun m' h' =>
      (reads_array hbefore ih hafter h').seq fun m' h' => h'.close (.inr rfl)
    have htext : (Tree.array blank items).text =
        [openArray] ++ (blank ++ (joined (itemTexts items) ++ [closeArray])) := by
      simp [Tree.text]
    rw [htext]
    refine hread.mono ?_ fun _ h' => h'
    intro hsafe
    cases hsafe with
    | array hitems => exact hitems
  | @object blank members hblank _ hname hnames hbefore _ hafter ih =>
    intro names m h
    have hread := h.openObject.seq fun m' h' => (h'.blank hblank).seq fun m' h' =>
      (reads_object hname hnames hbefore ih hafter h').seq fun m' h' =>
        h'.choose_spec.choose_spec.close (.inl rfl)
    have htext : (Tree.object blank members).text =
        [openObject] ++ (blank ++ (joined (memberTexts members) ++ [closeObject])) := by
      simp [Tree.text]
    rw [htext]
    exact hread.mono Tree.Safe.members fun _ h' => h'

/-- Where something is refused in a tree, reading refuses it. -/
theorem At.refused {root node : Tree} {before x : Text} (hat : At root before node)
    (hroot : root.Valid)
    (hnode : node.Valid → ∀ names m, Stands integerNumbers names false m →
      m.run integerNumbers x = none) :
    ∀ names m, Stands integerNumbers names false m →
      m.run integerNumbers (before ++ x) = none := by
  induction hat with
  | here t => exact hnode hroot
  | @item blank l r b a t node before hat ih =>
    intro names m h
    cases hroot with
    | array hblank _ hbefore hvalid hafter =>
      have hmem : (b, t, a) ∈ l ++ (b, t, a) :: r := by simp
      have hsub : ∀ e ∈ l, e ∈ l ++ (b, t, a) :: r := fun e he => List.mem_append_left _ he
      have hread := (h.openArray (p := ∀ e ∈ l, e.2.1.Safe integerNumbers)).seq fun m' h' =>
        (h'.blank hblank).seq fun m' h' =>
          (reads_items (fun e he => hbefore e (hsub e he))
            (fun e he => (hvalid e (hsub e he)).returns) (fun e he => hafter e (hsub e he)) h').seq
              fun m' h' => h'.blank (hbefore _ hmem)
      have hfails := hread.fails fun m' h' => ih (hvalid _ hmem) hnode _ m' h'
      have htext : openArray :: blank ++ started (itemTexts l) ++ b ++ before ++ x =
          [openArray] ++ (blank ++ (started (itemTexts l) ++ b)) ++ (before ++ x) := by simp
      rw [htext]
      exact hfails
  | @member blank l r n b a t node before hat ih =>
    intro names m h
    cases hroot with
    | object hblank _ hname hnames hbefore hvalid hafter =>
      have hmem : (n, b, t, a) ∈ l ++ (n, b, t, a) :: r := by simp
      have hsub : ∀ e ∈ l, e ∈ l ++ (n, b, t, a) :: r := fun e he => List.mem_append_left _ he
      have hread := (h.openObject (p := True)).append fun m' h' =>
        (h'.blank (p := True) hblank).append fun m' h' =>
          (reads_members (fun e he => hname e (hsub e he)) (fun e he => hnames e (hsub e he))
            (fun e he => hbefore e (hsub e he)) (fun e he => (hvalid e (hsub e he)).returns)
            (fun e he => hafter e (hsub e he)) h').append fun m' h' =>
              (h'.1.member (hname _ hmem) (hnames _ hmem).1 (hnames _ hmem).2).append
                fun m' h' => h'.1.blank (p := True) (hbefore _ hmem)
      have hfails := hread.fails fun m' h' => ih (hvalid _ hmem) hnode _ m' h'
      have htext : openObject :: blank ++ started (memberTexts l) ++ n.text ++ b ++ before ++ x =
          [openObject] ++ (blank ++ (started (memberTexts l) ++ (n.text ++ b))) ++
            (before ++ x) := by simp
      rw [htext]
      exact hfails

/-- What is refused in a value itself. -/
theorem Refused.fails {node : Tree} {x : Text} (h : Refused integerNumbers node x)
    (hnode : node.Valid) : ∀ names m, Stands integerNumbers names false m →
      m.run integerNumbers x = none := by
  intro names m hm
  have hname : ∀ {blank : Text} {l r : List (Name × Text × Tree × Text)} {n : Name}
      {e : Text × Tree × Text}, (Tree.object blank (l ++ (n, e) :: r)).Valid →
      (reverseSolidus ∈ n.raw ∨ ∃ m ∈ l, m.1.name = n.name) →
      m.run integerNumbers (openObject :: blank ++ started (memberTexts l)
        ++ n.opening) = none := by
    intro blank l r n e hvalid hbad
    cases hvalid with
    | object hblank _ hname hnames hbefore hvalid hafter =>
      have hmem : (n, e) ∈ l ++ (n, e) :: r := by simp
      have hsub : ∀ e' ∈ l, e' ∈ l ++ (n, e) :: r := fun e' he => List.mem_append_left _ he
      have hread := (hm.openObject (p := True)).append fun m' h' =>
        (h'.blank (p := True) hblank).append fun m' h' =>
          (reads_members (fun e he => hname e (hsub e he)) (fun e he => hnames e (hsub e he))
            (fun e he => hbefore e (hsub e he)) (fun e he => (hvalid e (hsub e he)).returns)
            (fun e he => hafter e (hsub e he)) h').append fun m' h' =>
              (h'.1.blank (p := True) (hnames _ hmem).1).mono (fun hp => hp)
                fun m'' h'' => And.intro h'' h'.2
      have htext : openObject :: blank ++ started (memberTexts l) ++ n.opening =
          [openObject] ++ (blank ++ (started (memberTexts l) ++ n.before)) ++
            (quote :: n.raw ++ [quote]) := by simp [Name.opening]
      rw [htext]
      refine hread.fails ?_
      intro m' h'
      have hrun := h'.1.name (hname _ hmem)
      unfold Machine.run at hrun
      rw [hrun, if_pos]
      -- A repeated name that is not written with an escape has been seen as it is written.
      by_cases hescape : reverseSolidus ∈ n.raw
      · exact .inl hescape
      · obtain ⟨x, hx, hsame⟩ := hbad.resolve_left hescape
        have hraw : x.1.raw = n.raw := by
          rw [Name.name, Name.name, unescape_eq hescape, unescape_eq (h'.2 x hx)] at hsame
          exact hsame
        refine .inr ?_
        rw [← hraw, List.append_nil, List.mem_reverse]
        exact List.mem_map_of_mem hx
  cases h with
  | escape hescape => exact hname hnode (.inl hescape)
  | duplicate hx hsame => exact hname hnode (.inr ⟨_, hx, hsame⟩)
  | @fraction a b d hintegers hmark =>
    subst hintegers
    cases hnode with
    | number hraw =>
      obtain ⟨hunits, c, rest, heq, hfirst⟩ := numberParts_units hraw
      cases a with
      | nil =>
        obtain ⟨rfl, _⟩ := List.cons.inj heq
        rcases hfirst with rfl | hdigit
        · exact absurd hmark (by decide)
        · rw [isDigit_iff] at hdigit
          simp only [isMark, Bool.or_eq_true, decide_eq_true_eq] at hmark
          omega
      | cons c' a =>
        obtain ⟨rfl, _⟩ := List.cons.inj heq
        have hall : ∀ u ∈ a ++ [d], isNumberUnit u = true := by
          intro u hu
          refine hunits u (List.mem_cons_of_mem _ ?_)
          rcases List.mem_append.mp hu with hu | hu
          · exact List.mem_append_left _ hu
          · exact List.mem_append_right _ (List.mem_singleton.mp hu ▸ List.mem_cons_self ..)
        have hrun := run_number hm hall hfirst
        rw [List.cons_append, hrun, if_pos ⟨d, by simp, hmark⟩]

theorem exists_repeated {α β : Type} {f : α → β} {l : List α} (h : ¬ (l.map f).Nodup) :
    ∃ before x y after, l = before ++ y :: after ∧ x ∈ before ∧ f x = f y := by
  induction l with
  | nil => exact absurd List.nodup_nil h
  | cons a rest ih =>
    by_cases ha : f a ∈ rest.map f
    · obtain ⟨y, hy, hsame⟩ := List.mem_map.mp ha
      obtain ⟨before, after, rfl⟩ := List.append_of_mem hy
      exact ⟨a :: before, a, y, after, rfl, List.mem_cons_self .., hsame.symm⟩
    · have hrest : ¬ (rest.map f).Nodup := by
        intro hnodup
        exact h (List.nodup_cons.mpr ⟨ha, hnodup⟩)
      obtain ⟨before, x, y, after, rfl, hx, hsame⟩ := ih hrest
      exact ⟨a :: before, x, y, after, rfl, List.mem_cons_of_mem _ hx, hsame⟩

/-- What is refused in a tree is shown by a part of its text. -/
theorem exists_refused {t : Tree} (h : t.Valid) (hnotSafe : ¬ t.Safe integerNumbers) :
    ∃ before node x, At t before node ∧ Refused integerNumbers node x := by
  induction h with
  | literal l => exact absurd (.literal l) hnotSafe
  | @number raw hraw =>
    have hmark : ∃ d ∈ raw, isMark d = true ∧ integerNumbers = true := by
      by_contra hnone
      refine hnotSafe (.number fun hintegers u hu => ?_)
      by_contra hmark
      exact hnone ⟨u, hu, by simpa using hmark, hintegers⟩
    obtain ⟨d, hd, hmark, hintegers⟩ := hmark
    obtain ⟨a, b, rfl⟩ := List.append_of_mem hd
    exact ⟨[], _, _, .here _, .fraction hintegers hmark⟩
  | @string raw hraw => exact absurd (.string raw) hnotSafe
  | @array blank items _ _ _ _ _ ih =>
    have hitem : ∃ e ∈ items, ¬ e.2.1.Safe integerNumbers := by
      by_contra hnone
      refine hnotSafe (.array fun e he => ?_)
      by_contra hbad
      exact hnone ⟨e, he, hbad⟩
    obtain ⟨⟨b, t, a⟩, he, hbad⟩ := hitem
    obtain ⟨before, node, x, hat, hrefused⟩ := ih _ he hbad
    obtain ⟨l, r, rfl⟩ := List.append_of_mem he
    exact ⟨_, node, x, .item hat, hrefused⟩
  | @object blank members _ _ _ _ _ _ _ ih =>
    by_cases hescape : ∀ m ∈ members, reverseSolidus ∉ m.1.raw
    · by_cases hdistinct : (members.map fun m => m.1.name).Nodup
      · have hmember : ∃ m ∈ members, ¬ m.2.2.1.Safe integerNumbers := by
          by_contra hnone
          refine hnotSafe (.object hescape hdistinct fun m hm => ?_)
          by_contra hbad
          exact hnone ⟨m, hm, hbad⟩
        obtain ⟨⟨n, b, t, a⟩, hm, hbad⟩ := hmember
        obtain ⟨before, node, x, hat, hrefused⟩ := ih _ hm hbad
        obtain ⟨l, r, rfl⟩ := List.append_of_mem hm
        exact ⟨_, node, x, .member hat, hrefused⟩
      · obtain ⟨l, m, ⟨n, e⟩, r, rfl, hm, hsame⟩ := exists_repeated hdistinct
        exact ⟨[], _, _, .here _, .duplicate hm hsame⟩
    · obtain ⟨⟨n, e⟩, hm, hbad⟩ : ∃ m ∈ members, reverseSolidus ∈ m.1.raw := by
        by_contra hnone
        exact hescape fun m hm hin => hnone ⟨m, hm, hin⟩
      obtain ⟨l, r, rfl⟩ := List.append_of_mem hm
      exact ⟨[], _, _, .here _, .escape hbad⟩

theorem stands_start : Stands integerNumbers [] false Machine.start := ⟨rfl, rfl, .inl rfl⟩

theorem Stands.ends {names : List (Option (List Text))} {e : Bool} {m : Machine}
    (h : Stands integerNumbers names e m) : m.ends = true := by
  unfold Machine.ends
  rcases h.quiet with hmode | ⟨_, hmode⟩
  · rw [hmode]
  · rw [hmode]

theorem Refused.text {node : Tree} {x : Text} (h : Refused integerNumbers node x) :
    ∃ tail, node.text = x ++ tail := by
  have hname : ∀ (blank : Text) (l r : List (Name × Text × Tree × Text)) (n : Name)
      (e : Text × Tree × Text), ∃ tail, (Tree.object blank (l ++ (n, e) :: r)).text =
        openObject :: blank ++ started (memberTexts l) ++ n.opening ++ tail := by
    intro blank l r n e
    refine ⟨n.after ++ [colon] ++ e.1 ++ e.2.1.text ++ e.2.2 ++
      (memberTexts r).flatMap (comma :: ·) ++ [closeObject], ?_⟩
    rw [Tree.text, memberTexts_append, memberTexts, joined_split]
    simp [Name.text]
  cases h with
  | escape => exact hname _ _ _ _ _
  | duplicate => exact hname _ _ _ _ _
  | @fraction a b d => exact ⟨b, by simp [Tree.text]⟩

/-- What is refused in a text stands at its start up to the end of it. -/
theorem Document.shown {d : Document} {before x : Text} {node : Tree}
    (hat : At d.tree before node) (hrefused : Refused integerNumbers node x) :
    ∃ tail, d.text = d.before ++ before ++ x ++ tail := by
  obtain ⟨after, hafter⟩ := hat.text
  obtain ⟨tail, htail⟩ := hrefused.text
  refine ⟨tail ++ after ++ d.after, ?_⟩
  rw [Document.text, hafter, htail]
  simp

/-- What a text shows is refused, whatever comes after it. -/
theorem Shows.refused {p : Text} (h : Shows integerNumbers p) (rest : Text) :
    ∃ e, assertSafeJsonText (p ++ rest) integerNumbers = .error e := by
  obtain ⟨d, more, hd, htext, before, node, x, hat, hrefused, hlength⟩ := h
  have htree := hat.refused hd.tree fun hvalid => hrefused.fails hvalid
  obtain ⟨tail, htail⟩ := Document.shown hat hrefused
  have hprefix : d.before ++ before ++ x <+: p :=
    List.prefix_of_prefix_length_le ⟨tail, htail.symm⟩ ⟨more, htext.symm⟩ hlength
  obtain ⟨between, rfl⟩ := hprefix
  have hrun : Machine.start.run integerNumbers (d.before ++ (before ++ x)) = none :=
    (stands_start.blank (p := True) hd.before).fails fun m' h' => htree _ m' h'
  have haccepts := Machine.not_accepts_of_run (between ++ rest) hrun
  rw [← List.append_assoc, ← List.append_assoc, ← assertSafeJsonText_toBool] at haccepts
  cases hguard : assertSafeJsonText (d.before ++ before ++ x ++ between ++ rest)
      integerNumbers with
  | error e => exact ⟨e, rfl⟩
  | ok u =>
    rw [hguard] at haccepts
    exact nomatch haccepts

theorem assertSafeJsonText_of_safe {d : Document} (hd : d.Valid)
    (hsafe : d.tree.Safe integerNumbers) : assertSafeJsonText d.text integerNumbers = .ok () := by
  have hread : Reads integerNumbers Machine.start (d.before ++ (d.tree.text ++ d.after))
      (d.tree.Safe integerNumbers) (Stands integerNumbers [] false) :=
    (stands_start.blank hd.before).seq fun m' h' =>
      (hd.tree.returns [] m' h').seq fun m' h' => h'.blank hd.after
  obtain ⟨m, hrun, hm⟩ := hread.returns hsafe
  rw [← List.append_assoc] at hrun
  have haccepts := assertSafeJsonText_toBool d.text integerNumbers
  unfold Machine.accepts Machine.run Document.text at haccepts
  rw [hrun, Option.any_some, hm.ends] at haccepts
  cases hguard : assertSafeJsonText d.text integerNumbers with
  | error e =>
    unfold Document.text at hguard
    rw [hguard] at haccepts
    exact nomatch haccepts
  | ok u => rfl

/-- The guard accepts the texts of the grammar that are safe and no others, and refuses every
text as soon as what it starts with shows that it is not safe. -/
theorem assertSafeJsonText_exact (integerNumbers : Bool) :
    (∀ d : Document, d.Valid →
      (assertSafeJsonText d.text integerNumbers = .ok () ↔ d.tree.Safe integerNumbers)) ∧
    ∀ p rest : Text, Shows integerNumbers p →
      ∃ e, assertSafeJsonText (p ++ rest) integerNumbers = .error e := by
  refine ⟨?_, fun p rest h => h.refused rest⟩
  intro d hd
  constructor
  · intro hok
    by_contra hnotSafe
    obtain ⟨before, node, x, hat, hrefused⟩ := exists_refused hd.tree hnotSafe
    obtain ⟨tail, htail⟩ := Document.shown hat hrefused
    have hlength : (d.before ++ before ++ x).length ≤ d.text.length := by
      simp only [htail, List.length_append]
      omega
    have hshows : Shows integerNumbers d.text :=
      ⟨d, [], hd, by simp, before, node, x, hat, hrefused, hlength⟩
    obtain ⟨e, herror⟩ := hshows.refused []
    rw [List.append_nil, hok] at herror
    exact nomatch herror
  · exact assertSafeJsonText_of_safe hd

/-- A name with no blanks around it, a number after it. -/
def sampleMember (name number : String) : Name × Text × Tree × Text :=
  (⟨[], units name, []⟩, [], .number (units number), [])

def sampleSafe : Document := ⟨[], .object [] [sampleMember "a" "1", sampleMember "b" "-20"], []⟩

def sampleRepeated : Document := ⟨[], .object [] [sampleMember "a" "1", sampleMember "a" "2"], []⟩

theorem sampleMember_valid {name number name' number' : String}
    (hname : isStringBody (units name) = true) (hname' : isStringBody (units name') = true)
    (hnumber : (numberParts (units number)).isSome = true)
    (hnumber' : (numberParts (units number')).isSome = true) :
    Document.Valid ⟨[], .object [] [sampleMember name number, sampleMember name' number'], []⟩ := by
  have hblank : Blank [] := fun _ h => nomatch h
  refine ⟨hblank, ?_, hblank⟩
  refine .object hblank (fun _ => rfl) ?_ ?_ ?_ ?_ ?_ <;>
    simp only [List.mem_cons, List.not_mem_nil, or_false, forall_eq_or_imp, forall_eq]
  · exact ⟨hname, hname'⟩
  · exact ⟨⟨hblank, hblank⟩, hblank, hblank⟩
  · exact ⟨hblank, hblank⟩
  · exact ⟨.number hnumber, .number hnumber'⟩
  · exact ⟨hblank, hblank⟩

theorem assertSafeJsonText_exact_sample :
    assertSafeJsonText sampleSafe.text true = .ok () ∧
      ∃ e, assertSafeJsonText (units "\x7b\"a\":1,\"a\"" ++ units "\x7d") true = .error e := by
  have hvalid : sampleSafe.Valid := sampleMember_valid (by decide) (by decide)
    (by decide) (by decide)
  have hrepeated : sampleRepeated.Valid := sampleMember_valid (by decide)
    (by decide) (by decide) (by decide)
  constructor
  · refine ((assertSafeJsonText_exact true).1 _ hvalid).mpr (.object ?_ (by decide) ?_)
    · decide
    · simp only [List.mem_cons, List.not_mem_nil, or_false, forall_eq_or_imp, forall_eq]
      exact ⟨.number fun _ => by decide, .number fun _ => by decide⟩
  · have hrefused : Refused true sampleRepeated.tree _ :=
      .duplicate (l := [sampleMember "a" "1"]) (r := []) (List.mem_singleton.mpr rfl) rfl
    exact (assertSafeJsonText_exact true).2 _ _ ⟨sampleRepeated, units ":2\x7d", hrepeated,
      by decide, [], _, _, .here _, hrefused, by decide⟩

end DirectTrade.Encoding
