import DirectTrade.Library.Dict
import Mathlib.Data.List.Perm.Basic

/-!
Dictionaries that hold the same entries and enumerate them in different orders. Lookups
agree on them; a search through values agrees as soon as the values that it looks for do.
-/

namespace DirectTrade.Library

variable {α β : Type*}

/-- A search by name in a reordered list, where values of the name searched for agree. -/
theorem find?_of_perm [DecidableEq α] {f : β → α} {l r : List β} {a : α} (h : l.Perm r)
    (agree : ∀ x ∈ l, ∀ y ∈ l, f x = a → f y = a → x = y) :
    r.find? (f · = a) = l.find? (f · = a) := by
  cases hl : l.find? (f · = a) with
  | none =>
    rw [List.find?_eq_none] at hl ⊢
    intro y hy
    exact hl y (h.symm.subset hy)
  | some x =>
    have hx := List.mem_of_find?_eq_some hl
    have hfx : f x = a := by simpa using List.find?_some hl
    cases hr : r.find? (f · = a) with
    | none =>
      have hnot := List.find?_eq_none.mp hr x (h.subset hx)
      exact absurd (decide_eq_true hfx) hnot
    | some y =>
      have hy := h.symm.subset (List.mem_of_find?_eq_some hr)
      have hfy : f y = a := by simpa using List.find?_some hr
      rw [agree x hx y hy hfx hfy]

namespace Dict

variable [DecidableEq α] {d e : Dict α β}

/-- The same entries, in whatever order. -/
def Same (d e : Dict α β) : Prop := ∀ k, e.get? k = d.get? k

theorem Same.refl (d : Dict α β) : Same d d := fun _ => rfl

theorem Same.symm (h : Same d e) : Same e d := fun k => (h k).symm

theorem Same.mem_values (h : Same d e) {v : β} : v ∈ e.values ↔ v ∈ d.values := by
  simp only [mem_values_iff, h _]

theorem Same.entries_perm (h : Same d e) : d.entries.Perm e.entries := by
  rw [List.perm_ext_iff_of_nodup d.nodup.of_map e.nodup.of_map]
  rintro ⟨k, v⟩
  rw [mem_entries_iff, mem_entries_iff, h k]

theorem Same.values_perm (h : Same d e) : d.values.Perm e.values := h.entries_perm.map Prod.snd

/-- Entries of a dictionary in another order. -/
def reordered (d : Dict α β) (l : List (α × β)) (h : d.entries.Perm l) : Dict α β :=
  ⟨l, (h.map Prod.fst).nodup_iff.mp d.nodup⟩

theorem same_reordered (l : List (α × β)) (h : d.entries.Perm l) : Same d (d.reordered l h) := by
  intro k
  apply Option.ext
  intro v
  rw [← mem_entries_iff, ← mem_entries_iff]
  exact h.symm.mem_iff

end Dict

end DirectTrade.Library
