import DirectTrade.Library.Dict
import DirectTrade.Library.Outcome
import Mathlib.Algebra.BigOperators.Group.List.Lemmas
import Mathlib.Algebra.Order.BigOperators.Group.List
import Mathlib.Algebra.Order.Group.Int
import Mathlib.Tactic.Abel

/-!
Totals of a measure over the values of a dictionary. Writing a key replaces the share
of its old value by the share of the new one; removing a key takes its share away; and
a loop whose steps change a measure by known weights changes it by their sum.
-/

namespace DirectTrade.Library

namespace Dict

variable {α β γ : Type*} {M : Type*}

/-- Rewrites every value and keeps the keys. -/
def mapValues (f : β → γ) (d : Dict α β) : Dict α γ :=
  ⟨d.entries.map fun e => (e.1, f e.2), by
    simpa only [List.map_map, Function.comp_def] using d.nodup⟩

theorem values_mapValues (f : β → γ) (d : Dict α β) :
    (d.mapValues f).values = d.values.map f := by
  simp [mapValues, values, Function.comp_def]

section Measures

variable [AddCommMonoid M] {f g : β → M} {d : Dict α β}

/-- The sum of a measure over all values. -/
def total (f : β → M) (d : Dict α β) : M := (d.values.map f).sum

@[simp] theorem total_empty (f : β → M) : (∅ : Dict α β).total f = 0 := rfl

theorem total_congr (h : ∀ v ∈ d.values, f v = g v) : d.total f = d.total g := by
  unfold total
  rw [List.map_congr_left h]

theorem total_add (f g : β → M) (d : Dict α β) :
    d.total (fun v => f v + g v) = d.total f + d.total g :=
  List.sum_map_add

theorem total_mapValues (f : β → γ) (g : γ → M) (d : Dict α β) :
    (d.mapValues f).total g = d.total fun v => g (f v) := by
  unfold total
  rw [values_mapValues, List.map_map]
  rfl

theorem total_eq_zero (h : ∀ v ∈ d.values, f v = 0) : d.total f = 0 := by
  rw [total_congr h]
  simp [total]

end Measures

section Keys

variable [DecidableEq α]

theorem get?_mapValues (f : β → γ) (d : Dict α β) (a : α) :
    (d.mapValues f).get? a = (d.get? a).map f := by
  have hlookup : ∀ l : List (α × β),
      lookup a (l.map fun e => (e.1, f e.2)) = (lookup a l).map f := by
    intro l
    induction l with
    | nil => rfl
    | cons entry rest ih =>
      simp only [List.map_cons, lookup, ih]
      split <;> rfl
  exact hlookup d.entries

def erase (d : Dict α β) (k : α) : Dict α β := d.filter fun key _ => key ≠ k

theorem get?_erase (d : Dict α β) (k a : α) :
    (d.erase k).get? a = if a = k then none else d.get? a := by
  unfold erase
  rw [get?_filter]
  by_cases h : a = k
  · simp [h]
  · cases d.get? a <;> simp [h]

variable [AddCommGroup M] (f : β → M)

/-- What the value under a key adds to a total. -/
def share (d : Dict α β) (k : α) : M := (d.get? k).elim 0 f

theorem share_of_get? {d : Dict α β} {k : α} {v : β} (h : d.get? k = some v) :
    d.share f k = f v := by
  simp [share, h]

theorem share_of_none {d : Dict α β} {k : α} (h : d.get? k = none) : d.share f k = 0 := by
  simp [share, h]

theorem share_set (d : Dict α β) (k a : α) (v : β) :
    (d.set k v).share f a = if a = k then f v else d.share f a := by
  unfold share
  rw [get?_set]
  split <;> simp

theorem sum_setEntries (k : α) (v : β) (l : List (α × β)) :
    ((setEntries k v l).map fun e => f e.2).sum =
      (l.map fun e => f e.2).sum - (lookup k l).elim 0 f + f v := by
  induction l with
  | nil => simp [setEntries, lookup]
  | cons entry rest ih =>
    obtain ⟨key, value⟩ := entry
    by_cases hk : key = k
    · simp [setEntries, lookup, hk]
      abel
    · simp only [setEntries, lookup, if_neg hk, List.map_cons, List.sum_cons, ih]
      abel

theorem total_set (d : Dict α β) (k : α) (v : β) :
    (d.set k v).total f = d.total f - d.share f k + f v := by
  have h := sum_setEntries f k v d.entries
  simpa only [total, values, List.map_map, Function.comp_def, share, get?, set] using h

theorem sum_filter_ne {k : α} {l : List (α × β)} (h : (l.map Prod.fst).Nodup) :
    ((l.filter fun e => e.1 ≠ k).map fun e => f e.2).sum =
      (l.map fun e => f e.2).sum - (lookup k l).elim 0 f := by
  induction l with
  | nil => simp [lookup]
  | cons entry rest ih =>
    obtain ⟨key, value⟩ := entry
    rw [List.map_cons, List.nodup_cons] at h
    by_cases hk : key = k
    · have hrest : rest.filter (fun e => e.1 ≠ k) = rest := by
        apply List.filter_eq_self.mpr
        intro e he
        have hne : e.1 ≠ k := by
          intro heq
          exact h.1 (List.mem_map.mpr ⟨e, he, heq.trans hk.symm⟩)
        simpa using hne
      rw [List.filter_cons_of_neg (by simp [hk]), hrest]
      simp [lookup, hk]
    · rw [List.filter_cons_of_pos (by simp [hk])]
      simp only [lookup, if_neg hk, List.map_cons, List.sum_cons, ih h.2]
      abel

theorem total_erase (d : Dict α β) (k : α) :
    (d.erase k).total f = d.total f - d.share f k := by
  have h := sum_filter_ne f (k := k) d.nodup
  simpa only [total, values, List.map_map, Function.comp_def, share, get?, erase, filter] using h

theorem sum_map_filter {p : γ → Bool} {g : γ → M} {l : List γ}
    (h : ∀ e ∈ l, p e = false → g e = 0) : ((l.filter p).map g).sum = (l.map g).sum := by
  induction l with
  | nil => rfl
  | cons e rest ih =>
    have hrest := ih fun x hx => h x (List.mem_cons_of_mem e hx)
    by_cases hp : p e = true
    · rw [List.filter_cons_of_pos hp, List.map_cons, List.map_cons, List.sum_cons,
        List.sum_cons, hrest]
    · rw [List.filter_cons_of_neg hp, hrest, List.map_cons, List.sum_cons,
        h e List.mem_cons_self (by simpa using hp), zero_add]

/-- What has no share may be dropped. -/
theorem total_filter (d : Dict α β) (p : α → β → Bool)
    (h : ∀ k v, d.get? k = some v → p k v = false → f v = 0) :
    (d.filter p).total f = d.total f := by
  have hsum := sum_map_filter (p := fun e : α × β => p e.1 e.2) (g := fun e => f e.2)
    fun e he => h e.1 e.2 ((mem_entries_iff d e.1 e.2).mp he)
  simpa only [total, values, filter, List.map_map, Function.comp_def] using hsum

/-- Of a filtered dictionary only the shares of what is kept are left. -/
theorem total_filter_ite (d : Dict α β) (p : β → Bool) :
    (d.filter fun _ v => p v).total f = d.total fun v => if p v = true then f v else 0 := by
  have hkept : (d.filter fun _ v => p v).total f =
      (d.filter fun _ v => p v).total fun v => if p v = true then f v else 0 := by
    apply total_congr
    intro v hv
    obtain ⟨e, he, rfl⟩ := List.mem_map.mp hv
    have hp : p e.2 = true := by simpa using (List.mem_filter.mp he).2
    rw [if_pos hp]
  rw [hkept]
  apply total_filter
  intro k v _ hp
  simp [hp]

end Keys

section Order

variable {f : β → ℤ} {d : Dict α β}

theorem total_nonneg (h : ∀ v ∈ d.values, 0 ≤ f v) : 0 ≤ d.total f := by
  apply List.sum_nonneg
  intro x hx
  obtain ⟨v, hv, rfl⟩ := List.mem_map.mp hx
  exact h v hv

theorem le_total (h : ∀ v ∈ d.values, 0 ≤ f v) {v : β} (hv : v ∈ d.values) :
    f v ≤ d.total f := by
  apply List.single_le_sum
  · intro x hx
    obtain ⟨w, hw, rfl⟩ := List.mem_map.mp hx
    exact h w hw
  · exact List.mem_map_of_mem hv

end Order

end Dict

namespace Outcome

variable {ε σ α : Type} {M : Type*} [AddCommMonoid M]

/-- A loop changes a measure by the sum of what its steps change it by, as long as an
invariant holds. -/
theorem foldlM_sum {P : σ → Prop} {step : σ → α → Except ε σ} {f : σ → M} {w : α → M}
    {l : List α} {s t : σ}
    (hstep : ∀ a ∈ l, ∀ u v, P u → step u a = .ok v → P v ∧ f v = f u + w a)
    (hs : P s) (h : l.foldlM step s = .ok t) : P t ∧ f t = f s + (l.map w).sum := by
  induction l generalizing s with
  | nil =>
    simp only [List.foldlM_nil, pure_eq_ok] at h
    subst h
    exact ⟨hs, by simp⟩
  | cons a rest ih =>
    rw [List.foldlM_cons, bind_eq_ok] at h
    obtain ⟨u, hu, hrest⟩ := h
    obtain ⟨hPu, hfu⟩ := hstep a List.mem_cons_self s u hs hu
    obtain ⟨hPt, hft⟩ := ih (fun b hb => hstep b (List.mem_cons_of_mem a hb)) hPu hrest
    refine ⟨hPt, ?_⟩
    rw [hft, hfu, List.map_cons, List.sum_cons, add_assoc]

end Outcome

end DirectTrade.Library
