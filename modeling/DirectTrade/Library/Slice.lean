import Mathlib.Data.List.Basic
import Mathlib.Data.List.Nodup
import Mathlib.Data.List.Range
import Mathlib.Data.List.TakeDrop

/-!
Slices of a list: what an offset and a limit cut out of it. Slices of one size, laid end to end,
give back the list; and in a list without repetitions a slice tells where it was cut.
-/

namespace DirectTrade.Library

variable {α : Type*}

def slice (l : List α) (offset limit : ℕ) : List α := (l.drop offset).take limit

theorem length_slice (l : List α) (offset limit : ℕ) :
    (slice l offset limit).length = min limit (l.length - offset) := by
  rw [slice, List.length_take, List.length_drop]

theorem flatMap_slice_range (l : List α) (limit n : ℕ) :
    ((List.range n).flatMap fun k => slice l (k * limit) limit) = l.take (n * limit) := by
  induction n with
  | zero => simp
  | succ n ih =>
    rw [List.range_succ, List.flatMap_append, ih, List.flatMap_singleton, slice, Nat.succ_mul,
      List.take_add]

/-- Going through the slices of one size, every element is met once and in its place. -/
theorem flatMap_slice {limit : ℕ} (hlimit : 0 < limit) (l : List α) :
    ((List.range l.length).flatMap fun k => slice l (k * limit) limit) = l := by
  rw [flatMap_slice_range]
  exact List.take_of_length_le (Nat.le_mul_of_pos_right _ hlimit)

/-- In a list without repetitions two slices agree only if both are empty or both are cut at one
place and to one size. -/
theorem slice_inj {l : List α} (hl : l.Nodup) {offset limit offset' limit' : ℕ} :
    slice l offset limit = slice l offset' limit' ↔
      min limit (l.length - offset) = min limit' (l.length - offset') ∧
        (min limit (l.length - offset) = 0 ∨ offset = offset') := by
  constructor
  · intro h
    have hlength := congrArg List.length h
    rw [length_slice, length_slice] at hlength
    refine ⟨hlength, ?_⟩
    by_cases hempty : min limit (l.length - offset) = 0
    · exact .inl hempty
    · have hlt : offset < l.length := by omega
      have hlt' : offset' < l.length := by omega
      have hfirst := congrArg (fun l' => l'[0]?) h
      simp only [slice] at hfirst
      rw [List.getElem?_take_of_lt (by omega), List.getElem?_take_of_lt (by omega),
        List.getElem?_drop, List.getElem?_drop, Nat.add_zero, Nat.add_zero,
        List.getElem?_eq_getElem hlt, List.getElem?_eq_getElem hlt', Option.some.injEq] at hfirst
      exact .inr ((List.Nodup.getElem_inj_iff hl).mp hfirst)
  · intro h
    obtain ⟨hlength, hempty | hsame⟩ := h
    · have hnil : slice l offset limit = [] := by
        rw [← List.length_eq_zero_iff, length_slice]
        exact hempty
      have hnil' : slice l offset' limit' = [] := by
        rw [← List.length_eq_zero_iff, length_slice, ← hlength]
        exact hempty
      rw [hnil, hnil']
    · subst hsame
      unfold slice
      rw [List.take_eq_take_iff, List.length_drop]
      exact hlength

end DirectTrade.Library
