import DirectTrade.Encoding.Text
import DirectTrade.Library.Calendar

/-!
Written dates: the shape of a UTC date and time, the moment that it names, and the text that two
of them are compared by, in which every fraction has six places.
-/

namespace DirectTrade.Business

open Encoding Library.Calendar

/-- `d` in a layout stands for any digit, every other unit for itself. -/
def placed (p u : ℕ) : Bool := if p = 100 then isDigit u else p == u

/-- Whether a text is laid out so. -/
def laidOut : (layout t : Text) → Bool
  | [], [] => true
  | p :: layout, u :: t => placed p u && laidOut layout t
  | _, _ => false

/-- The number that the digits of a text spell, whatever stands between them. -/
def figures (t : Text) : ℕ := t.foldl (fun n u => if isDigit u then n * 10 + (u - 48) else n) 0

/-- `\d{4}-\d{2}-\d{2}T\d{2}:\d{2}:\d{2}`, the first nineteen units of a date. -/
def headLayout : Text := units "dddd-dd-ddTdd:dd:dd"

/-- `(?:\.\d{1,6})?Z`, what follows them. -/
def isDateTail : Text → Bool
  | 90 :: [] => true
  | 46 :: rest => 2 ≤ rest.length && rest.length ≤ 7 && rest.dropLast.all isDigit &&
      rest.getLast? = some 90
  | _ => false

def matchesDate (t : Text) : Bool := laidOut headLayout (t.take 19) && isDateTail (t.drop 19)

/-- The digits after the point, none where there is no point. -/
def fraction (t : Text) : Text := if t.contains 46 then (t.drop 20).dropLast else []

def padZeros (n : ℕ) (t : Text) : Text := t ++ List.replicate (n - t.length) 48

/-- The text that dates are compared by. -/
def normalized (t : Text) : Text := t.take 19 ++ 46 :: padZeros 6 (fraction t) ++ [90]

/-- The figures of a text from a place on. -/
def part (t : Text) (from' length : ℕ) : ℕ := figures ((t.drop from').take length)

/-- The date and time that a text names. -/
def moment (t : Text) : Moment where
  year := part t 0 4
  month := part t 5 2
  day := part t 8 2
  hour := part t 11 2
  minute := part t 14 2
  second := part t 17 2
  micro := figures (padZeros 6 (fraction t))

/-- The text has the shape of a date, and the calendar has it: it is parsed, and written back
with the same date and time. -/
def isDate (t : Text) : Bool := matchesDate t && decide (moment t).Real

theorem figures_append (a b : Text) :
    figures (a ++ b) = figures a * 10 ^ (b.countP isDigit) + figures b := by
  have hfrom : ∀ n, b.foldl (fun n u => if isDigit u then n * 10 + (u - 48) else n) n =
      n * 10 ^ (b.countP isDigit) + figures b := by
    induction b with
    | nil => simp [figures]
    | cons u rest ih =>
      intro n
      have hrest := ih (if isDigit u then u - 48 else 0)
      rw [List.foldl_cons, ih]
      by_cases hu : isDigit u = true
      · have hhead : figures (u :: rest) =
            (u - 48) * 10 ^ (rest.countP isDigit) + figures rest := by
          rw [if_pos hu] at hrest
          simp only [figures, List.foldl_cons, if_pos hu, Nat.zero_mul, Nat.zero_add]
          exact hrest
        rw [if_pos hu, List.countP_cons_of_pos hu, hhead, pow_succ]
        ring
      · have hhead : figures (u :: rest) = figures rest := by
          simp only [figures, List.foldl_cons, if_neg hu]
        rw [if_neg hu, List.countP_cons_of_neg hu, hhead]
  rw [figures, List.foldl_append, hfrom]
  rfl

theorem figures_singleton (u : ℕ) : figures [u] = if isDigit u then u - 48 else 0 := by
  simp [figures]

theorem figures_lt (t : Text) : figures t < 10 ^ (t.countP isDigit) := by
  induction t using List.reverseRecOn with
  | nil => simp [figures]
  | append_singleton rest u ih =>
    rw [figures_append, List.countP_append, figures_singleton]
    by_cases hu : isDigit u = true
    · have hrange := isDigit_iff.mp hu
      simp only [List.countP_cons_of_pos hu, List.countP_nil, Nat.zero_add, pow_one, pow_add,
        if_pos hu]
      omega
    · simp only [List.countP_cons_of_neg hu, List.countP_nil, pow_zero, Nat.mul_one, Nat.add_zero,
        if_neg hu]
      exact ih

theorem countP_of_laidOut {layout t : Text} (h : laidOut layout t = true)
    (hlayout : ∀ p ∈ layout, p = 100 ∨ isDigit p = false) :
    t.countP isDigit = layout.count 100 := by
  induction layout, t using laidOut.induct with
  | case1 => rfl
  | case2 p layout u t ih =>
    simp only [laidOut, Bool.and_eq_true] at h
    have hrest := ih h.2 fun q hq => hlayout q (List.mem_cons_of_mem _ hq)
    by_cases hp : p = 100
    · subst hp
      have hu : isDigit u = true := by simpa [placed] using h.1
      rw [List.countP_cons_of_pos hu, List.count_cons_self, hrest]
    · have hu : p = u := by simpa [placed, hp] using h.1
      have hnot : ¬ isDigit u = true := by
        rw [← hu, (hlayout p (List.mem_cons_self ..)).resolve_left hp]
        decide
      rw [List.countP_cons_of_neg hnot, List.count_cons_of_ne hp, hrest]
  | case3 layout t hnil hcons =>
    rw [laidOut] at h
    · exact absurd h (by decide)
    · exact hnil
    · exact hcons

/-- Of two texts of one layout, the one that does not come after the other in the order of texts
spells no greater number. -/
theorem figures_le_of_not_lt {layout a b : Text} (ha : laidOut layout a = true)
    (hb : laidOut layout b = true) (hlayout : ∀ p ∈ layout, p = 100 ∨ isDigit p = false)
    (h : ¬ b < a) : figures a ≤ figures b := by
  induction layout generalizing a b with
  | nil =>
    cases a with
    | nil => simp [figures]
    | cons => simp [laidOut] at ha
  | cons p layout ih =>
    cases a with
    | nil => simp [laidOut] at ha
    | cons u a =>
      cases b with
      | nil => simp [laidOut] at hb
      | cons v b =>
        simp only [laidOut, Bool.and_eq_true] at ha hb
        have hlayout' : ∀ q ∈ layout, q = 100 ∨ isDigit q = false :=
          fun q hq => hlayout q (List.mem_cons_of_mem _ hq)
        have hcount : a.countP isDigit = b.countP isDigit :=
          (countP_of_laidOut ha.2 hlayout').trans (countP_of_laidOut hb.2 hlayout').symm
        rw [List.cons_lt_cons_iff, not_or, not_and] at h
        have hu := figures_append [u] a
        have hv := figures_append [v] b
        rw [List.singleton_append] at hu hv
        by_cases heq : v = u
        · subst heq
          have htail := ih ha.2 hb.2 hlayout' (h.2 rfl)
          rw [hu, hv, hcount]
          omega
        · have hlt : u < v := by have := h.1; omega
          have hdigits : isDigit u = true ∧ isDigit v = true := by
            have hp : p = 100 := by
              by_contra hp
              have hpu : p = u := by simpa [placed, hp] using ha.1
              have hpv : p = v := by simpa [placed, hp] using hb.1
              omega
            subst hp
            exact ⟨by simpa [placed] using ha.1, by simpa [placed] using hb.1⟩
          have hranges := isDigit_iff.mp hdigits.1
          have hranges' := isDigit_iff.mp hdigits.2
          have hsmall := figures_lt a
          have hfirst : figures [u] + 1 ≤ figures [v] := by
            rw [figures_singleton, figures_singleton, if_pos hdigits.1, if_pos hdigits.2]
            omega
          have hmul := Nat.mul_le_mul_right (10 ^ (b.countP isDigit)) hfirst
          rw [Nat.add_mul] at hmul
          rw [hu, hv, hcount]
          rw [hcount] at hsmall
          omega

theorem laidOut_append {layout layout' t t' : Text} (h : laidOut layout t = true)
    (h' : laidOut layout' t' = true) : laidOut (layout ++ layout') (t ++ t') = true := by
  induction layout generalizing t with
  | nil =>
    cases t with
    | nil => exact h'
    | cons => simp [laidOut] at h
  | cons p layout ih =>
    cases t with
    | nil => simp [laidOut] at h
    | cons u t =>
      simp only [laidOut, Bool.and_eq_true, List.cons_append] at h ⊢
      exact ⟨h.1, ih h.2⟩

theorem laidOut_split {layout layout' t : Text} (h : laidOut (layout ++ layout') t = true) :
    laidOut layout (t.take layout.length) = true ∧
      laidOut layout' (t.drop layout.length) = true := by
  induction layout generalizing t with
  | nil => exact ⟨rfl, h⟩
  | cons p layout ih =>
    cases t with
    | nil => simp [laidOut] at h
    | cons u t =>
      simp only [laidOut, Bool.and_eq_true, List.cons_append, List.length_cons,
        List.take_succ_cons, List.drop_succ_cons] at h ⊢
      exact ⟨⟨h.1, (ih h.2).1⟩, (ih h.2).2⟩

theorem laidOut_digits {t : Text} (h : ∀ u ∈ t, isDigit u = true) :
    laidOut (List.replicate t.length 100) t = true := by
  induction t with
  | nil => rfl
  | cons u t ih =>
    have hu := h u (List.mem_cons_self ..)
    simp only [List.length_cons, List.replicate_succ, laidOut, Bool.and_eq_true]
    exact ⟨by simpa [placed] using hu, ih fun v hv => h v (List.mem_cons_of_mem _ hv)⟩

/-- The layout of what dates are compared by. -/
def fullLayout : Text := headLayout ++ 46 :: List.replicate 6 100 ++ [90]

theorem mem_fullLayout : ∀ p ∈ fullLayout, p = 100 ∨ isDigit p = false := by decide

theorem headLayout_length : headLayout.length = 19 := by decide

/-- The digits after the point are at most six digits. -/
theorem fraction_spec {t : Text} (h : matchesDate t = true) :
    (fraction t).length ≤ 6 ∧ ∀ u ∈ fraction t, isDigit u = true := by
  unfold matchesDate at h
  rw [Bool.and_eq_true] at h
  unfold fraction
  by_cases hpoint : t.contains 46 = true
  · rw [if_pos hpoint]
    have htail := h.2
    have hdrop : t.drop 20 = (t.drop 19).tail := by rw [List.tail_drop]
    rw [hdrop]
    generalize t.drop 19 = tail at htail
    match tail with
    | [] => simp
    | u :: rest =>
      unfold isDateTail at htail
      split at htail
      next heq => simp_all
      next rest' heq =>
        obtain ⟨rfl, rfl⟩ := List.cons.inj heq
        simp only [Bool.and_eq_true, decide_eq_true_eq, List.all_eq_true] at htail
        rw [List.tail_cons]
        refine ⟨?_, htail.1.2⟩
        rw [List.length_dropLast]
        omega
      next => exact absurd htail (by decide)
  · rw [if_neg hpoint]
    exact ⟨by simp, fun u hu => nomatch hu⟩

theorem padZeros_spec {t : Text} (h : matchesDate t = true) :
    (padZeros 6 (fraction t)).length = 6 ∧
      ∀ u ∈ padZeros 6 (fraction t), isDigit u = true := by
  obtain ⟨hlength, hdigits⟩ := fraction_spec h
  unfold padZeros
  constructor
  · rw [List.length_append, List.length_replicate]
    omega
  · intro u hu
    rcases List.mem_append.mp hu with hu | hu
    · exact hdigits u hu
    · rw [(List.mem_replicate.mp hu).2]
      decide

theorem normalized_laidOut {t : Text} (h : matchesDate t = true) :
    laidOut fullLayout (normalized t) = true := by
  obtain ⟨hlength, hdigits⟩ := padZeros_spec h
  unfold matchesDate at h
  rw [Bool.and_eq_true] at h
  have hfraction := laidOut_digits hdigits
  rw [hlength] at hfraction
  have hmiddle := laidOut_append (show laidOut [46] [46] = true by decide) hfraction
  exact laidOut_append (laidOut_append h.1 hmiddle) (by decide)

/-- A slice of a text that is laid out is laid out as the slice of the layout. -/
theorem laidOut_slice {layout t : Text} (h : laidOut layout t = true) (i n : ℕ)
    (hi : i + n ≤ layout.length) :
    laidOut ((layout.drop i).take n) ((t.drop i).take n) = true := by
  have htake : (layout.take i).length = i := by
    rw [List.length_take]
    omega
  have hslice : ((layout.drop i).take n).length = n := by
    rw [List.length_take, List.length_drop]
    omega
  have hall : laidOut (layout.take i ++ layout.drop i) t = true := by
    rw [List.take_append_drop]
    exact h
  have hrest := (laidOut_split hall).2
  rw [htake, ← List.take_append_drop n (layout.drop i)] at hrest
  have hfirst := (laidOut_split hrest).1
  rwa [hslice] at hfirst

/-- The figures up to a place, from those up to an earlier place. -/
theorem figures_take {layout t : Text} (h : laidOut layout t = true)
    (hlayout : ∀ p ∈ layout, p = 100 ∨ isDigit p = false) (i n : ℕ) (hi : i + n ≤ layout.length) :
    figures (t.take (i + n)) =
      figures (t.take i) * 10 ^ (((layout.drop i).take n).count 100) + part t i n := by
  have hslice := laidOut_slice h i n hi
  have hcount := countP_of_laidOut hslice fun p hp =>
    hlayout p (List.mem_of_mem_drop (List.mem_of_mem_take hp))
  rw [List.take_add, figures_append, hcount]
  rfl

theorem part_of_no_digit {layout t : Text} (h : laidOut layout t = true)
    (hlayout : ∀ p ∈ layout, p = 100 ∨ isDigit p = false) (i n : ℕ) (hi : i + n ≤ layout.length)
    (hnone : ((layout.drop i).take n).count 100 = 0) : part t i n = 0 := by
  have hslice := laidOut_slice h i n hi
  have hcount := countP_of_laidOut hslice fun p hp =>
    hlayout p (List.mem_of_mem_drop (List.mem_of_mem_take hp))
  have hlt := figures_lt ((t.drop i).take n)
  rw [hcount, hnone] at hlt
  unfold part
  omega

/-- The nineteen units of a date and a time spell their parts, two places each after the year. -/
theorem figures_head {t : Text} (h : laidOut headLayout (t.take 19) = true) :
    figures (t.take 19) = (moment t).dateFigure * 1000000 + (moment t).clockFigure := by
  have hplain : ∀ p ∈ headLayout, p = 100 ∨ isDigit p = false := by decide
  have hdigits : ∀ i n, i + n ≤ 19 → ((headLayout.drop i).take n).count 100 = n →
      figures (t.take (i + n)) = figures (t.take i) * 10 ^ n + part t i n := by
    intro i n hi hcount
    have hstep := figures_take h hplain i n (headLayout_length ▸ hi)
    unfold part at hstep ⊢
    rwa [hcount, List.drop_take, List.take_take, List.take_take, List.take_take,
      Nat.min_eq_left hi, Nat.min_eq_left (by omega), Nat.min_eq_left (by omega)] at hstep
  have hmark : ∀ i, i + 1 ≤ 19 → ((headLayout.drop i).take 1).count 100 = 0 →
      figures (t.take (i + 1)) = figures (t.take i) := by
    intro i hi hcount
    have hstep := figures_take h hplain i 1 (headLayout_length ▸ hi)
    rwa [part_of_no_digit h hplain i 1 (headLayout_length ▸ hi) hcount, hcount, List.take_take,
      List.take_take, Nat.min_eq_left hi, Nat.min_eq_left (by omega), pow_zero, Nat.mul_one,
      Nat.add_zero] at hstep
  have hyear := hdigits 0 4 (by decide) (by decide)
  have hmonth := hdigits 5 2 (by decide) (by decide)
  have hday := hdigits 8 2 (by decide) (by decide)
  have hhour := hdigits 11 2 (by decide) (by decide)
  have hminute := hdigits 14 2 (by decide) (by decide)
  have hsecond := hdigits 17 2 (by decide) (by decide)
  have hmark₁ := hmark 4 (by decide) (by decide)
  have hmark₂ := hmark 7 (by decide) (by decide)
  have hmark₃ := hmark 10 (by decide) (by decide)
  have hmark₄ := hmark 13 (by decide) (by decide)
  have hmark₅ := hmark 16 (by decide) (by decide)
  have hnone : figures (t.take 0) = 0 := rfl
  simp only [Nat.reduceAdd, hnone, Nat.zero_mul, Nat.zero_add] at hyear hmonth hday hhour hminute
  simp only [Nat.reduceAdd] at hsecond hmark₁ hmark₂ hmark₃ hmark₄ hmark₅
  rw [hsecond, hmark₅, hminute, hmark₄, hhour, hmark₃, hday, hmark₂, hmonth, hmark₁, hyear]
  simp only [Moment.dateFigure, Moment.clockFigure, moment]
  ring

/-- What dates are compared by spells the figures of the moment. -/
theorem figures_normalized {t : Text} (h : matchesDate t = true) :
    figures (normalized t) = (moment t).figure := by
  have hpad := padZeros_spec h
  unfold matchesDate at h
  rw [Bool.and_eq_true] at h
  have hcount : (46 :: padZeros 6 (fraction t)).countP isDigit = 6 := by
    rw [List.countP_cons_of_neg (by decide), List.countP_eq_length.mpr hpad.2, hpad.1]
  have hpoint : figures (46 :: padZeros 6 (fraction t)) = figures (padZeros 6 (fraction t)) := by
    simp [figures, isDigit]
  have hend : figures [90] = 0 ∧ ([90] : Text).countP isDigit = 0 := by decide
  unfold normalized
  rw [figures_append, figures_append, hcount, hpoint, figures_head h.1, hend.1, hend.2, pow_zero,
    Nat.mul_one, Nat.add_zero]
  rfl

theorem micro_lt {t : Text} (h : matchesDate t = true) : (moment t).micro < 1000000 := by
  have hpad := padZeros_spec h
  have hlt := figures_lt (padZeros 6 (fraction t))
  rw [List.countP_eq_length.mpr hpad.2, hpad.1] at hlt
  exact hlt

/-- Of two dates, the one whose text does not come after the other's is not later. -/
theorem instant_le_of_not_lt {a b : Text} (ha : isDate a = true) (hb : isDate b = true)
    (h : ¬ normalized b < normalized a) : (moment a).instant ≤ (moment b).instant := by
  simp only [isDate, Bool.and_eq_true, decide_eq_true_eq] at ha hb
  have hle := figures_le_of_not_lt (normalized_laidOut ha.1) (normalized_laidOut hb.1)
    mem_fullLayout h
  rw [figures_normalized ha.1, figures_normalized hb.1] at hle
  exact Moment.instant_le_of_figure_le ha.2 hb.2 (micro_lt ha.1) (micro_lt hb.1) hle

example : isDate (units "2024-02-29T23:59:59.5Z") = true := by decide

example : isDate (units "2023-02-29T00:00:00Z") = false := by decide

end DirectTrade.Business
