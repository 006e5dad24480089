import Mathlib.Algebra.BigOperators.Intervals
import Mathlib.Algebra.Order.BigOperators.Group.Finset
import Mathlib.Tactic.Ring

/-!
The civil calendar as a mixed numeral: a day is counted by the lengths of the years and the
months before it, and the time of day is added in microseconds. A date that is later place by
place, the year first, is later in this count.
-/

namespace DirectTrade.Library.Calendar

open Finset

/-- Where the block of number `n` starts when block `i` is `size i` long. -/
def start (size : ℕ → ℕ) (n : ℕ) : ℕ := ∑ i ∈ range n, size i

theorem start_succ (size : ℕ → ℕ) (n : ℕ) : start size (n + 1) = start size n + size n :=
  sum_range_succ size n

theorem start_mono (size : ℕ → ℕ) {m n : ℕ} (h : m ≤ n) : start size m ≤ start size n := by
  apply sum_le_sum_of_subset
  exact range_subset_range.mpr h

/-- What lies in an earlier block ends before a later block starts. -/
theorem start_add_le (size : ℕ → ℕ) {m n r : ℕ} (h : m < n) (hr : r ≤ size m) :
    start size m + r ≤ start size n := by
  have hnext := start_mono size (show m + 1 ≤ n from h)
  rw [start_succ] at hnext
  omega

def isLeap (year : ℕ) : Bool := year % 4 = 0 && (year % 100 ≠ 0 || year % 400 = 0)

/-- The length of a month, counted from zero. -/
def monthLength (year month : ℕ) : ℕ :=
  if month = 1 then if isLeap year then 29 else 28
  else if month = 3 || month = 5 || month = 8 || month = 10 then 30 else 31

def yearLength (year : ℕ) : ℕ := start (monthLength year) 12

/-- The days before a date, the first day of year zero being none. Months and days are counted
from one, as they are written. -/
def dayNumber (year month day : ℕ) : ℕ :=
  start yearLength year + (start (monthLength year) (month - 1) + (day - 1))

/-- A date of the calendar. -/
def IsDay (year month day : ℕ) : Prop :=
  1 ≤ month ∧ month ≤ 12 ∧ 1 ≤ day ∧ day ≤ monthLength year (month - 1)

instance (year month day : ℕ) : Decidable (IsDay year month day) :=
  inferInstanceAs (Decidable (_ ∧ _))

/-- Every day of a year lies before the next one. -/
theorem IsDay.lt_yearLength {year month day : ℕ} (h : IsDay year month day) :
    start (monthLength year) (month - 1) + (day - 1) + 1 ≤ yearLength year := by
  obtain ⟨hfirst, hlast, hday, hlength⟩ := h
  have hle := start_add_le (monthLength year) (show month - 1 < 12 by omega) hlength
  unfold yearLength
  omega

/-- Dates are ordered by year, then month, then day. -/
theorem dayNumber_lt {year month day year' month' day' : ℕ} (h : IsDay year month day)
    (h' : IsDay year' month' day') (hlt : year < year' ∨ year = year' ∧
      (month < month' ∨ month = month' ∧ day < day')) :
    dayNumber year month day < dayNumber year' month' day' := by
  have hyear := h.lt_yearLength
  obtain ⟨hfirst, hlast, hday, hlength⟩ := h
  obtain ⟨hfirst', hlast', hday', hlength'⟩ := h'
  unfold dayNumber
  rcases hlt with hlt | ⟨heq, hlt⟩
  · have hle := start_add_le yearLength hlt hyear
    omega
  · subst heq
    rcases hlt with hlt | ⟨heq, hlt⟩
    · have hle := start_add_le (monthLength year) (show month - 1 < month' - 1 by omega) hlength
      omega
    · subst heq
      omega

/-- A date with a time of day. -/
structure Moment where
  year : ℕ
  month : ℕ
  day : ℕ
  hour : ℕ
  minute : ℕ
  second : ℕ
  micro : ℕ
  deriving DecidableEq

namespace Moment

/-- The date and the time exist. -/
def Real (m : Moment) : Prop :=
  IsDay m.year m.month m.day ∧ m.hour ≤ 23 ∧ m.minute ≤ 59 ∧ m.second ≤ 59

instance (m : Moment) : Decidable m.Real := inferInstanceAs (Decidable (_ ∧ _))

/-- Seconds since midnight. -/
def clock (m : Moment) : ℕ := (m.hour * 60 + m.minute) * 60 + m.second

/-- Microseconds since the start of year zero. -/
def instant (m : Moment) : ℕ :=
  (dayNumber m.year m.month m.day * 86400 + m.clock) * 1000000 + m.micro

/-- The number that the date spells, two places for each part after the year. -/
def dateFigure (m : Moment) : ℕ := (m.year * 100 + m.month) * 100 + m.day

def clockFigure (m : Moment) : ℕ := (m.hour * 100 + m.minute) * 100 + m.second

def figure (m : Moment) : ℕ := (m.dateFigure * 1000000 + m.clockFigure) * 1000000 + m.micro

theorem Real.clock_lt {m : Moment} (h : m.Real) : m.clock < 86400 ∧ m.clockFigure < 1000000 := by
  obtain ⟨_, hhour, hminute, hsecond⟩ := h
  unfold clock clockFigure
  omega

theorem clock_le {m n : Moment} (hm : m.Real) (hn : n.Real)
    (h : m.clockFigure ≤ n.clockFigure) :
    m.clock ≤ n.clock ∧ (m.clockFigure < n.clockFigure → m.clock < n.clock) := by
  obtain ⟨_, hhour, hminute, hsecond⟩ := hm
  obtain ⟨_, hhour', hminute', hsecond'⟩ := hn
  unfold clock
  unfold clockFigure at h ⊢
  omega

theorem monthLength_le (year month : ℕ) : monthLength year month ≤ 31 := by
  unfold monthLength
  split
  · split <;> omega
  · split <;> omega

theorem dayNumber_le {m n : Moment} (hm : m.Real) (hn : n.Real)
    (h : m.dateFigure ≤ n.dateFigure) :
    dayNumber m.year m.month m.day ≤ dayNumber n.year n.month n.day ∧
      (m.dateFigure < n.dateFigure →
        dayNumber m.year m.month m.day < dayNumber n.year n.month n.day) := by
  have hlong := monthLength_le m.year (m.month - 1)
  have hlong' := monthLength_le n.year (n.month - 1)
  have hday := hm.1
  have hday' := hn.1
  unfold IsDay at hday hday'
  by_cases heq : m.dateFigure = n.dateFigure
  · have hparts : m.year = n.year ∧ m.month = n.month ∧ m.day = n.day := by
      unfold dateFigure at heq
      omega
    rw [hparts.1, hparts.2.1, hparts.2.2]
    exact ⟨le_refl _, fun hlt => absurd heq (Nat.ne_of_lt hlt)⟩
  · have hbefore := dayNumber_lt hm.1 hn.1 (by unfold dateFigure at h heq; omega)
    exact ⟨hbefore.le, fun _ => hbefore⟩

/-- The order of the written figures is the order in time. -/
theorem instant_le_of_figure_le {m n : Moment} (hm : m.Real) (hn : n.Real)
    (hmicro : m.micro < 1000000) (hmicro' : n.micro < 1000000) (h : m.figure ≤ n.figure) :
    m.instant ≤ n.instant := by
  have hclock := hm.clock_lt
  have hclock' := hn.clock_lt
  unfold figure at h
  have hdate : m.dateFigure ≤ n.dateFigure := by omega
  have htime : m.dateFigure = n.dateFigure → m.clockFigure ≤ n.clockFigure := by omega
  have hrest : m.dateFigure = n.dateFigure → m.clockFigure = n.clockFigure →
      m.micro ≤ n.micro := by omega
  -- The facts above are all that the large coefficients are needed for.
  clear h
  have hdays := dayNumber_le hm hn hdate
  unfold instant
  generalize dayNumber m.year m.month m.day = days at hdays ⊢
  generalize dayNumber n.year n.month n.day = days' at hdays ⊢
  by_cases hlt : m.dateFigure < n.dateFigure
  · have hbefore := hdays.2 hlt
    omega
  · have hsame : m.dateFigure = n.dateFigure := by omega
    have hseconds := clock_le hm hn (htime hsame)
    by_cases hearlier : m.clockFigure < n.clockFigure
    · have hsooner := hseconds.2 hearlier
      omega
    · have hmoment : m.clockFigure = n.clockFigure := by have := htime hsame; omega
      have hmicros := hrest hsame hmoment
      omega

end Moment

example : dayNumber 4 3 1 = 1521 := by decide

end DirectTrade.Library.Calendar
