import DirectTrade.Encoding.Grammar
import DirectTrade.Library.Outcome
import DirectTrade.Library.Scanning

/-!
The guard that untrusted texts pass before they are parsed. It reads the text once, without
parsing it. The same reading is also given unit by unit, as a machine whose refusals are those of
the guard: what the machine refuses it refuses whatever comes after.
-/

namespace DirectTrade.Encoding

open Library Outcome

inductive UnsafeJsonCode where
  | unsafeMemberName
  | duplicateMemberName (name : Text)
  | nonIntegerNumber
  deriving DecidableEq

structure UnsafeJsonError where
  code : UnsafeJsonCode
  offset : ℕ
  deriving DecidableEq

/-- What is known of the brackets and braces that are open, the innermost first, and whether a
string would be a name. -/
structure ScanState where
  objectContext : List Bool
  /-- The names seen so far in an object, none for an array. -/
  names : List (Option (List Text))
  expectName : Bool

/-- The units of a string, and what follows its closing quote. The offset of a unit is how much
of the text is not after it; `skipped` is set for the unit after a reverse solidus. -/
def skipString (total : ℕ) (isName : Bool) : (skipped : Bool) → Text →
    Except UnsafeJsonError (Text × Text)
  | _, [] => .ok ([], [])
  | true, d :: rest => (skipString total isName false rest).map fun r => (d :: r.1, r.2)
  | false, d :: rest =>
    if d = reverseSolidus then
      if isName then .error ⟨.unsafeMemberName, total - (d :: rest).length⟩
      else (skipString total isName true rest).map fun r => (d :: r.1, r.2)
    else if d = quote then .ok ([], rest)
    else (skipString total isName false rest).map fun r => (d :: r.1, r.2)

/-- What follows a number that starts at an offset. -/
def skipNumber (start : ℕ) : Text → Except UnsafeJsonError Text
  | [] => .ok []
  | d :: rest =>
    if isMark d then .error ⟨.nonIntegerNumber, start⟩
    else if d = 0x2b || d = 0x2d || isDigit d then skipNumber start rest
    else .ok (d :: rest)

/-- Adds a name to those of the innermost object, if it has not been seen. -/
def noteName (names : List (Option (List Text))) (name : Text) (offset : ℕ) :
    Except UnsafeJsonError (List (Option (List Text))) :=
  match names with
  | some seen :: outer =>
    if name ∈ seen then .error ⟨.duplicateMemberName name, offset⟩
    else .ok (some (name :: seen) :: outer)
  | _ => .ok names

theorem skipString_length {total : ℕ} {isName skipped : Bool} {t name rest : Text}
    (h : skipString total isName skipped t = .ok (name, rest)) : rest.length ≤ t.length := by
  induction t generalizing skipped name with
  | nil => cases skipped <;> cases h <;> exact Nat.le_refl _
  | cons d t ih =>
    have hrest : ∀ skipped' : Bool, (skipString total isName skipped' t).map
        (fun r => (d :: r.1, r.2)) = .ok (name, rest) → rest.length ≤ (d :: t).length := by
      intro skipped' hmap
      obtain ⟨r, hr, heq⟩ := (map_eq_ok _ _ _).mp hmap
      cases heq
      have hle := ih hr
      rw [List.length_cons]
      omega
    cases skipped with
    | true => exact hrest false h
    | false =>
      rw [skipString] at h
      split at h
      · split at h
        · exact nomatch h
        · exact hrest true h
      · split at h
        · cases h
          simp
        · exact hrest false h

theorem skipNumber_length {start : ℕ} {t rest : Text} (h : skipNumber start t = .ok rest) :
    rest.length ≤ t.length := by
  induction t with
  | nil =>
    cases h
    exact Nat.le_refl _
  | cons d t ih =>
    rw [skipNumber] at h
    split at h
    · exact nomatch h
    · split at h
      · have hle := ih h
        simp only [List.length_cons]
        omega
      · cases h
        exact Nat.le_refl _

def scan (integerNumbers : Bool) (total : ℕ) (text : Text) (s : ScanState) :
    Except UnsafeJsonError Unit :=
  match text with
  | [] => .ok ()
  | c :: rest =>
    let offset := total - (c :: rest).length
    if c = quote then
      match _hstring : skipString total s.expectName false rest with
      | .error e => .error e
      | .ok (name, after) =>
        match if s.expectName then noteName s.names name offset else .ok s.names with
        | .error e => .error e
        | .ok names => scan integerNumbers total after { s with names, expectName := false }
    else if c = openObject then
      scan integerNumbers total rest
        { objectContext := true :: s.objectContext, names := some [] :: s.names,
          expectName := true }
    else if c = openArray then
      scan integerNumbers total rest
        { objectContext := false :: s.objectContext, names := none :: s.names, expectName := false }
    else if c = closeObject || c = closeArray then
      scan integerNumbers total rest
        { objectContext := s.objectContext.tail, names := s.names.tail, expectName := false }
    else if c = comma then
      scan integerNumbers total rest { s with expectName := s.objectContext.headD false }
    else if c = colon then scan integerNumbers total rest { s with expectName := false }
    else if integerNumbers && (c = 0x2d || isDigit c) then
      match _hnumber : skipNumber offset rest with
      | .error e => .error e
      | .ok after => scan integerNumbers total after s
    else scan integerNumbers total rest s
  termination_by text.length
  decreasing_by
    all_goals simp only [List.length_cons]
    · have hle := skipString_length _hstring
      omega
    all_goals try omega
    · have hle := skipNumber_length _hnumber
      omega

def assertSafeJsonText (text : Text) (integerNumbers : Bool) : Except UnsafeJsonError Unit :=
  scan integerNumbers text.length text { objectContext := [], names := [], expectName := false }

/-- Where the reading is: what has been read of a string is kept in reverse. -/
inductive Mode where
  | plain
  | inNumber
  | inString (isName skipped : Bool) (body : Text)

structure Machine where
  names : List (Option (List Text))
  expectName : Bool
  mode : Mode

/-- The names with one more, unless it has been seen. -/
def noted (names : List (Option (List Text))) (name : Text) :
    Option (List (Option (List Text))) :=
  match names with
  | some seen :: outer => if name ∈ seen then none else some (some (name :: seen) :: outer)
  | _ => some names

/-- Whether the innermost open thing is an object. -/
def inObject : List (Option (List Text)) → Bool
  | some _ :: _ => true
  | _ => false

namespace Machine

/-- A unit outside strings and numbers. -/
def plainStep (integerNumbers : Bool) (m : Machine) (c : ℕ) : Machine :=
  if c = quote then { m with mode := .inString m.expectName false [] }
  else if c = openObject then { names := some [] :: m.names, expectName := true, mode := .plain }
  else if c = openArray then { names := none :: m.names, expectName := false, mode := .plain }
  else if c = closeObject || c = closeArray then
    { names := m.names.tail, expectName := false, mode := .plain }
  else if c = comma then { m with expectName := inObject m.names, mode := .plain }
  else if c = colon then { m with expectName := false, mode := .plain }
  else if integerNumbers && (c = 0x2d || isDigit c) then { m with mode := .inNumber }
  else { m with mode := .plain }

/-- The names after a string. -/
def named (m : Machine) (isName : Bool) (name : Text) : Option (List (Option (List Text))) :=
  if isName then noted m.names name else some m.names

def closeString (m : Machine) (isName : Bool) (name : Text) : Option Machine :=
  (m.named isName name).map fun names => { names, expectName := false, mode := .plain }

def step (integerNumbers : Bool) (m : Machine) (c : ℕ) : Option Machine :=
  match m.mode with
  | .plain => some (m.plainStep integerNumbers c)
  | .inNumber =>
    if isMark c then none
    else if c = 0x2b || c = 0x2d || isDigit c then some m
    else some (m.plainStep integerNumbers c)
  | .inString isName true body => some { m with mode := .inString isName false (c :: body) }
  | .inString isName false body =>
    if c = reverseSolidus then
      if isName then none else some { m with mode := .inString isName true (c :: body) }
    else if c = quote then m.closeString isName body.reverse
    else some { m with mode := .inString isName false (c :: body) }

def run (integerNumbers : Bool) (m : Machine) (t : Text) : Option Machine :=
  Scanning.run (step integerNumbers) m t

/-- Whether a text may end here: a name that is cut off counts as one that ends. -/
def ends (m : Machine) : Bool :=
  match m.mode with
  | .inString isName _ body => (m.named isName body.reverse).isSome
  | _ => true

def accepts (integerNumbers : Bool) (m : Machine) (t : Text) : Bool :=
  (m.run integerNumbers t).any ends

variable {integerNumbers : Bool}

theorem accepts_nil (m : Machine) : m.accepts integerNumbers [] = m.ends := rfl

theorem accepts_cons (m : Machine) (c : ℕ) (t : Text) :
    m.accepts integerNumbers (c :: t) =
      (m.step integerNumbers c).any (accepts integerNumbers · t) := by
  unfold accepts run
  rw [Scanning.run_cons]
  cases m.step integerNumbers c <;> rfl

/-- What has been refused is not accepted whatever comes after. -/
theorem not_accepts_of_run {m : Machine} {t : Text} (u : Text)
    (h : m.run integerNumbers t = none) : m.accepts integerNumbers (t ++ u) = false := by
  unfold run at h
  unfold accepts run
  rw [Scanning.run_append, h]
  rfl

/-- The string that is being read is what the guard reads as one. -/
theorem accepts_inString (total : ℕ) {m : Machine} {isName skipped : Bool} {body t : Text}
    (hmode : m.mode = .inString isName skipped body) (hskip : isName = true → skipped = false) :
    m.accepts integerNumbers t =
      match skipString total isName skipped t with
      | .error _ => false
      | .ok (name, rest) => (m.closeString isName (body.reverse ++ name)).any
          (accepts integerNumbers · rest) := by
  induction t generalizing m skipped body with
  | nil =>
    have hnil : skipString total isName skipped [] = .ok ([], []) := by
      cases skipped <;> rfl
    rw [hnil, accepts_nil, ends, hmode]
    simp only [List.append_nil, closeString]
    cases m.named isName body.reverse <;> rfl
  | cons d t ih =>
    have hnext : ∀ skipped' : Bool, (isName = true → skipped' = false) →
        accepts integerNumbers { m with mode := .inString isName skipped' (d :: body) } t =
          match (skipString total isName skipped' t).map fun r => (d :: r.1, r.2) with
          | .error _ => false
          | .ok (name, rest) => (m.closeString isName (body.reverse ++ name)).any
              (accepts integerNumbers · rest) := by
      intro skipped' hskip'
      rw [ih rfl hskip']
      cases skipString total isName skipped' t with
      | error e => rfl
      | ok r =>
        simp only [Except.map, List.reverse_cons, List.append_assoc, List.singleton_append]
        rfl
    cases skipped with
    | true =>
      rw [accepts_cons, step, hmode, skipString]
      exact hnext false fun _ => rfl
    | false =>
      rw [accepts_cons, step, hmode, skipString]
      by_cases hsolidus : d = reverseSolidus
      · simp only [if_pos hsolidus]
        cases isName with
        | true => rfl
        | false => exact hnext true (fun h => nomatch h)
      · simp only [if_neg hsolidus]
        by_cases hquote : d = quote
        · simp only [if_pos hquote, List.append_nil]
        · simp only [if_neg hquote]
          exact hnext false fun _ => rfl

theorem accepts_inNumber (start : ℕ) {m : Machine} {t : Text} (hmode : m.mode = .inNumber) :
    m.accepts integerNumbers t =
      match skipNumber start t with
      | .error _ => false
      | .ok rest => accepts integerNumbers { m with mode := .plain } rest := by
  induction t with
  | nil =>
    rw [skipNumber, accepts_nil, ends, hmode]
    rfl
  | cons d t ih =>
    rw [accepts_cons, step, hmode, skipNumber]
    by_cases hmark : isMark d = true
    · simp only [if_pos hmark]
      rfl
    · simp only [if_neg hmark]
      by_cases hdigit : (d = 0x2b || d = 0x2d || isDigit d) = true
      · simp only [if_pos hdigit]
        exact ih
      · simp only [if_neg hdigit]
        rw [accepts_cons]
        rfl

end Machine

/-- The machine knows what the guard does. -/
def machineOf (s : ScanState) : Machine :=
  { names := s.names, expectName := s.expectName, mode := .plain }

theorem noteName_eq (names : List (Option (List Text))) (name : Text) (offset : ℕ) :
    (noteName names name offset).toOption = noted names name := by
  unfold noteName noted
  split
  · split <;> rfl
  · rfl

/-- Noting a name opens and closes nothing. -/
theorem noted_isSome {names names' : List (Option (List Text))} {name : Text}
    (h : noted names name = some names') :
    names'.map Option.isSome = names.map Option.isSome := by
  unfold noted at h
  split at h
  · split at h
    · exact nomatch h
    · cases h
      rfl
  · cases h
    rfl

/-- The guard accepts what the machine accepts. -/
theorem scan_eq_accepts {integerNumbers : Bool} {total : ℕ} {text : Text} {s : ScanState}
    (hcontext : s.objectContext = s.names.map Option.isSome) :
    (scan integerNumbers total text s).toBool = (machineOf s).accepts integerNumbers text := by
  induction hn : text.length using Nat.strongRecOn generalizing text s with
  | _ n ih =>
    subst hn
    cases text with
    | nil =>
      rw [scan]
      rfl
    | cons c rest =>
      have hrest : rest.length < (c :: rest).length := by simp
      rw [scan, Machine.accepts_cons, Machine.step]
      simp only [machineOf, Machine.plainStep, Option.any_some]
      by_cases hquote : c = quote
      · simp only [if_pos hquote]
        rw [Machine.accepts_inString total rfl (fun _ => rfl)]
        simp only [List.reverse_nil, List.nil_append]
        cases hstring : skipString total s.expectName false rest with
        | error e => rfl
        | ok r =>
          obtain ⟨name, after⟩ := r
          have hshort : after.length < (c :: rest).length := by
            have hle := skipString_length hstring
            omega
          simp only [Machine.closeString, Machine.named]
          cases hname : s.expectName with
          | false =>
            simp only [Bool.false_eq_true, if_false]
            exact ih _ hshort hcontext rfl
          | true =>
            simp only [if_true]
            have hnoted := noteName_eq s.names name (total - (c :: rest).length)
            cases hnames : noteName s.names name (total - (c :: rest).length) with
            | error e =>
              rw [hnames] at hnoted
              rw [← hnoted]
              rfl
            | ok names =>
              rw [hnames] at hnoted
              rw [← hnoted]
              have hsame := noted_isSome hnoted.symm
              exact ih _ hshort (s := { s with names, expectName := false })
                (hcontext.trans hsame.symm) rfl
      simp only [if_neg hquote]
      by_cases hopen : c = openObject
      · simp only [if_pos hopen]
        exact ih _ hrest (by simp [hcontext]) rfl
      simp only [if_neg hopen]
      by_cases harray : c = openArray
      · simp only [if_pos harray]
        exact ih _ hrest (by simp [hcontext]) rfl
      simp only [if_neg harray]
      by_cases hclose : (c = closeObject || c = closeArray) = true
      · simp only [if_pos hclose]
        exact ih _ hrest (by simp [hcontext]) rfl
      simp only [if_neg hclose]
      by_cases hcomma : c = comma
      · simp only [if_pos hcomma]
        have htop : s.objectContext.headD false = inObject (machineOf s).names := by
          rw [hcontext]
          unfold inObject machineOf
          cases s.names with
          | nil => rfl
          | cons top outer => cases top <;> rfl
        rw [htop]
        exact ih _ hrest hcontext rfl
      simp only [if_neg hcomma]
      by_cases hcolon : c = colon
      · simp only [if_pos hcolon]
        exact ih _ hrest hcontext rfl
      simp only [if_neg hcolon]
      by_cases hnumber : (integerNumbers && (c = 0x2d || isDigit c)) = true
      · simp only [if_pos hnumber]
        rw [Machine.accepts_inNumber (total - (c :: rest).length) rfl]
        cases hskip : skipNumber (total - (c :: rest).length) rest with
        | error e => rfl
        | ok after =>
          have hshort : after.length < (c :: rest).length := by
            have hle := skipNumber_length hskip
            omega
          exact ih _ hshort hcontext rfl
      simp only [if_neg hnumber]
      exact ih _ hrest hcontext rfl

/-- The machine before the first unit. -/
def Machine.start : Machine := { names := [], expectName := false, mode := .plain }

theorem assertSafeJsonText_toBool (text : Text) (integerNumbers : Bool) :
    (assertSafeJsonText text integerNumbers).toBool =
      Machine.start.accepts integerNumbers text :=
  scan_eq_accepts rfl

end DirectTrade.Encoding
