import Mathlib.Data.List.Basic
import Mathlib.Data.List.Nodup
import Mathlib.Logic.Function.Basic
import Mathlib.Logic.Relation

/-!
Custody of one item that moves between places. A place that holds the item may release it
for good to one other place; a place that never held it may accept it from a release made
out to it. At every moment the places that had the item form a line, and only the last of
them can still hold it.
-/

namespace DirectTrade.Library

/-- What a place has of the item. -/
inductive Post (H : Type*) where
  | absent
  | holds (generation : ℕ)
  | released (generation : ℕ) (dest : H)

def Post.generation {H : Type*} : Post H → Option ℕ
  | .absent => none
  | .holds g => some g
  | .released g _ => some g

namespace Custody

variable {H : Type*} [DecidableEq H]

inductive Step (home : H) (s : H → Post H) : (H → Post H) → Prop
  | create (free : s home = .absent) : Step home s (Function.update s home (.holds 1))
  | release (a d : H) (g : ℕ) (held : s a = .holds g) :
      Step home s (Function.update s a (.released g d))
  | accept (a d : H) (g : ℕ) (released : s a = .released g d) (free : s d = .absent) :
      Step home s (Function.update s d (.holds (g + 1)))

/-- The places that had the item, in the order in which they got it. -/
structure Line (home : H) (s : H → Post H) (places : List H) : Prop where
  mem : ∀ a, a ∈ places ↔ s a ≠ .absent
  home : ∀ a, places[0]? = some a → a = home
  generation : ∀ (i : ℕ) a, places[i]? = some a → (s a).generation = some (i + 1)
  linked : ∀ (i : ℕ) a b, places[i]? = some a → places[i + 1]? = some b →
    s a = .released (i + 1) b

variable {home : H} {s t : H → Post H} {places : List H}

omit [DecidableEq H] in
theorem Line.empty (home : H) : Line home (fun _ => .absent) [] := by
  constructor <;> simp

omit [DecidableEq H] in
theorem Line.exists_index (h : Line home s places) {a : H} (ha : s a ≠ .absent) :
    ∃ i : ℕ, places[i]? = some a :=
  List.mem_iff_getElem?.mp ((h.mem a).mpr ha)

omit [DecidableEq H] in
theorem Line.index_of_generation (h : Line home s places) {a : H} {g : ℕ}
    (ha : (s a).generation = some g) : ∃ i : ℕ, g = i + 1 ∧ places[i]? = some a := by
  have hne : s a ≠ .absent := by
    intro habsent
    simp [habsent, Post.generation] at ha
  obtain ⟨i, hi⟩ := h.exists_index hne
  exact ⟨i, Option.some.inj (ha.symm.trans (h.generation i a hi)), hi⟩

omit [DecidableEq H] in
/-- No two places have the item in one generation. -/
theorem Line.unique (h : Line home s places) {a b : H} {g : ℕ} (ha : (s a).generation = some g)
    (hb : (s b).generation = some g) : a = b := by
  obtain ⟨i, rfl, hi⟩ := h.index_of_generation ha
  obtain ⟨j, hij, hj⟩ := h.index_of_generation hb
  obtain rfl : i = j := by omega
  exact Option.some.inj (hi.symm.trans hj)

omit [DecidableEq H] in
/-- The holder is the last of the places. -/
theorem Line.length_of_holds (h : Line home s places) {a : H} {g : ℕ} (ha : s a = .holds g) :
    places.length = g := by
  obtain ⟨i, rfl, hi⟩ := h.index_of_generation (a := a) (g := g) (by rw [ha]; rfl)
  obtain ⟨hlt, -⟩ := List.getElem?_eq_some_iff.mp hi
  by_contra hne
  have hnext : places[i + 1]? = some places[i + 1] := List.getElem?_eq_getElem (by omega)
  have := h.linked i a _ hi hnext
  simp [ha] at this

omit [DecidableEq H] in
/-- Every other place had the item in an earlier generation than its holder. -/
theorem Line.lt_of_holds (h : Line home s places) {a b : H} {g g' : ℕ} (ha : s a = .holds g)
    (hb : (s b).generation = some g') (hne : b ≠ a) : g' < g := by
  obtain ⟨i, rfl, hi⟩ := h.index_of_generation hb
  obtain ⟨hlt, -⟩ := List.getElem?_eq_some_iff.mp hi
  have hlength := h.length_of_holds ha
  rcases Nat.lt_or_eq_of_le (show i + 1 ≤ g by omega) with hlt | heq
  · exact hlt
  · refine absurd (h.unique (g := i + 1) hb ?_) hne
    rw [ha, heq]
    rfl

omit [DecidableEq H] in
/-- One place holds the item at most. -/
theorem Line.holder_unique (h : Line home s places) {a b : H} {g g' : ℕ} (ha : s a = .holds g)
    (hb : s b = .holds g') : a = b := by
  by_contra hne
  have h1 : g' < g := h.lt_of_holds ha (b := b) (by rw [hb]; rfl) (Ne.symm hne)
  have h2 : g < g' := h.lt_of_holds hb (b := a) (by rw [ha]; rfl) hne
  omega

omit [DecidableEq H] in
/-- A release that can still be accepted is the last of the places. -/
theorem Line.length_of_released (h : Line home s places) {a d : H} {g : ℕ}
    (ha : s a = .released g d) (free : s d = .absent) : places.length = g := by
  obtain ⟨i, rfl, hi⟩ := h.index_of_generation (a := a) (g := g) (by rw [ha]; rfl)
  obtain ⟨hlt, -⟩ := List.getElem?_eq_some_iff.mp hi
  by_contra hne
  have hnext : places[i + 1]? = some places[i + 1] := List.getElem?_eq_getElem (by omega)
  have hlinked := h.linked i a _ hi hnext
  rw [ha] at hlinked
  have hd : places[i + 1] = d := by simpa [eq_comm] using hlinked
  exact (h.mem d).mp (hd ▸ List.getElem_mem _) free

omit [DecidableEq H] in
/-- No place gets the item twice. -/
theorem Line.nodup (h : Line home s places) : places.Nodup := by
  rw [List.nodup_iff_getElem?_ne_getElem?]
  intro i j hij hj heq
  have hi : i < places.length := by omega
  have hfirst := List.getElem?_eq_getElem hi
  have hagain : places[j]? = some places[i] := heq ▸ hfirst
  have hsame := (h.generation i _ hfirst).symm.trans (h.generation j _ hagain)
  have := Option.some.inj hsame
  omega

/-- A step extends the places by at most one place. -/
theorem Line.step (h : Line home s places) (hstep : Step home s t) :
    ∃ places', Line home t places' := by
  cases hstep with
  | create free =>
    have hnil : places = [] := by
      cases places with
      | nil => rfl
      | cons a rest =>
        have ha := h.home a rfl
        exact absurd free ((h.mem home).mp (ha ▸ List.mem_cons_self ..))
    subst hnil
    have habsent : ∀ a, s a = .absent := by
      intro a
      by_contra hne
      simpa using (h.mem a).mpr hne
    refine ⟨[home], ?_, ?_, ?_, ?_⟩
    · intro a
      by_cases ha : a = home <;> simp [ha, habsent]
    · simp [eq_comm]
    · intro i a hi
      cases i with
      | zero => simp_all [Post.generation]
      | succ i => simp at hi
    · intro i a b hi hb
      simp at hb
  | release a d g held =>
    have hlength := h.length_of_holds held
    refine ⟨places, ?_, h.home, ?_, ?_⟩
    · intro b
      rw [h.mem]
      by_cases hb : b = a <;> simp [hb, held]
    · intro i b hi
      have hgen := h.generation i b hi
      by_cases hb : b = a
      · subst hb
        rw [held] at hgen
        simpa [Post.generation] using hgen
      · simpa [Function.update_apply, hb] using hgen
    · intro i b c hi hc
      have hlinked := h.linked i b c hi hc
      by_cases hb : b = a
      · simp [hb, held] at hlinked
      · simpa [Function.update_apply, hb] using hlinked
  | accept a d g released free =>
    have hlength := h.length_of_released released free
    have hne : ∀ b ∈ places, b ≠ d := by
      rintro b hb rfl
      exact (h.mem b).mp hb free
    -- a position of the longer line is one of the old line or the new last one
    have hcases : ∀ (i : ℕ) b, (places ++ [d])[i]? = some b →
        (places[i]? = some b ∧ b ≠ d) ∨ (i = g ∧ b = d) := by
      intro i b hi
      rcases Nat.lt_or_ge i places.length with hlt | hge
      · rw [List.getElem?_append_left hlt] at hi
        exact .inl ⟨hi, hne b (List.mem_of_getElem? hi)⟩
      · rw [List.getElem?_append_right hge] at hi
        have hzero : i - places.length = 0 := by
          by_contra hpos
          simp [hpos] at hi
        rw [hzero] at hi
        exact .inr ⟨by omega, by simpa [eq_comm] using hi⟩
    obtain ⟨k, hk, hlast⟩ := h.index_of_generation (a := a) (g := g) (by rw [released]; rfl)
    refine ⟨places ++ [d], ?_, ?_, ?_, ?_⟩
    · intro b
      rw [List.mem_append, h.mem, List.mem_singleton]
      by_cases hb : b = d <;> simp [hb]
    · intro b hb
      rcases hcases 0 b hb with ⟨hi, -⟩ | ⟨hzero, -⟩
      · exact h.home b hi
      · omega
    · intro i b hi
      rcases hcases i b hi with ⟨hi, hb⟩ | ⟨rfl, rfl⟩
      · simpa [Function.update_apply, hb] using h.generation i b hi
      · simp [Post.generation]
    · intro i b c hi hc
      rcases hcases i b hi with ⟨hold, hb⟩ | ⟨rfl, rfl⟩
      · rw [Function.update_of_ne hb]
        rcases hcases (i + 1) c hc with ⟨hc, -⟩ | ⟨heq, rfl⟩
        · exact h.linked i b c hold hc
        · obtain rfl : i = k := by omega
          obtain rfl := Option.some.inj (hold.symm.trans hlast)
          rw [released, heq]
      · rcases hcases (i + 1) c hc with ⟨hc, -⟩ | ⟨heq, -⟩
        · obtain ⟨hlt, -⟩ := List.getElem?_eq_some_iff.mp hc
          omega
        · omega

/-- Whatever the places do, those that had the item form a line. -/
theorem Line.run (h : Relation.ReflTransGen (Step home) (fun _ => .absent) s) :
    ∃ places, Line home s places := by
  induction h with
  | refl => exact ⟨[], .empty home⟩
  | tail _ hstep ih =>
    obtain ⟨places, hline⟩ := ih
    exact hline.step hstep

end Custody
end DirectTrade.Library
