import Mathlib.Data.List.Basic
import Mathlib.Data.List.Infix

/-!
Lists whose items commit to their predecessors. Where the digest of an item determines the
digest of the item before it, two lists that agree at one place agree at every place before
it, so that agreement at the end of the shorter list makes it a prefix of the longer one.
-/

namespace DirectTrade.Library.HashChain

variable {α δ : Type*}

/-- Equal digests at a place come with equal digests at the place before it. -/
def Determined (digest : α → δ) (l r : List α) : Prop :=
  ∀ n a b a' b', l[n]? = some a → r[n]? = some b → l[n + 1]? = some a' → r[n + 1]? = some b' →
    digest a' = digest b' → digest a = digest b

variable {digest : α → δ} {l r : List α}

/-- Lists that agree at a place agree up to it. -/
theorem agree_below (h : Determined digest l r) {n : ℕ} {a b : α} (ha : l[n]? = some a)
    (hb : r[n]? = some b) (hab : digest a = digest b) :
    ∀ m ≤ n, ∀ c d, l[m]? = some c → r[m]? = some d → digest c = digest d := by
  induction n generalizing a b with
  | zero =>
    intro m hm c d hc hd
    obtain rfl : m = 0 := by omega
    obtain rfl : a = c := Option.some.inj (ha.symm.trans hc)
    obtain rfl : b = d := Option.some.inj (hb.symm.trans hd)
    exact hab
  | succ n ih =>
    intro m hm c d hc hd
    by_cases hlast : m = n + 1
    · subst hlast
      obtain rfl : a = c := Option.some.inj (ha.symm.trans hc)
      obtain rfl : b = d := Option.some.inj (hb.symm.trans hd)
      exact hab
    · have hl : n < l.length := by
        have hbound := (List.getElem?_eq_some_iff.mp ha).1
        omega
      have hr : n < r.length := by
        have hbound := (List.getElem?_eq_some_iff.mp hb).1
        omega
      have hprior := h n _ _ a b (List.getElem?_eq_getElem hl) (List.getElem?_eq_getElem hr) ha hb
        hab
      exact ih (List.getElem?_eq_getElem hl) (List.getElem?_eq_getElem hr) hprior m (by omega) c d
        hc hd

/-- A list that agrees with another at its own last place is a prefix of it. -/
theorem prefix_of_agree (h : Determined digest l r) {n : ℕ} {a b : α} (hlength : l.length = n + 1)
    (ha : l[n]? = some a) (hb : r[n]? = some b) (hab : digest a = digest b) :
    l.map digest <+: r.map digest := by
  have hagree := agree_below h ha hb hab
  have hr : n < r.length := (List.getElem?_eq_some_iff.mp hb).1
  rw [List.prefix_iff_eq_take]
  apply List.ext_getElem?
  intro m
  rw [List.length_map, hlength]
  by_cases hm : m < n + 1
  · have hml : m < l.length := by omega
    have hmr : m < r.length := by omega
    rw [List.getElem?_take_of_lt hm, List.getElem?_map, List.getElem?_map,
      List.getElem?_eq_getElem hml, List.getElem?_eq_getElem hmr]
    have heq := hagree m (by omega) _ _ (List.getElem?_eq_getElem hml)
      (List.getElem?_eq_getElem hmr)
    simpa using heq
  · rw [List.getElem?_eq_none (by simp; omega), List.getElem?_eq_none (by simp; omega)]

/-- Of two lists one is a prefix of the other, or they part at a first place. -/
theorem prefix_or_parts (l r : List α) :
    l <+: r ∨ r <+: l ∨
      ∃ n a b, l[n]? = some a ∧ r[n]? = some b ∧ a ≠ b ∧ l.take n = r.take n := by
  induction l generalizing r with
  | nil => exact .inl (List.nil_prefix)
  | cons a rest ih =>
    cases r with
    | nil => exact .inr (.inl List.nil_prefix)
    | cons b rest' =>
      by_cases hab : a = b
      · subst hab
        rcases ih rest' with hprefix | hprefix | ⟨n, c, d, hc, hd, hcd, htake⟩
        · exact .inl (List.cons_prefix_cons.mpr ⟨rfl, hprefix⟩)
        · exact .inr (.inl (List.cons_prefix_cons.mpr ⟨rfl, hprefix⟩))
        · exact .inr (.inr ⟨n + 1, c, d, hc, hd, hcd, by simp [htake]⟩)
      · exact .inr (.inr ⟨0, a, b, rfl, rfl, hab, rfl⟩)

/-- Two lists that contain a third as a prefix up to one place agree with each other there. -/
theorem getElem?_of_prefix (h : l.map digest <+: r.map digest) {n : ℕ} {a b : α}
    (ha : l[n]? = some a) (hb : r[n]? = some b) : digest a = digest b := by
  obtain ⟨rest, hrest⟩ := h
  have hn : n < l.length := (List.getElem?_eq_some_iff.mp ha).1
  have heq : (r.map digest)[n]? = (l.map digest)[n]? := by
    rw [← hrest, List.getElem?_append_left (by simpa using hn)]
  rw [List.getElem?_map, List.getElem?_map, ha, hb] at heq
  simpa using heq.symm

/-- Every item after the first is linked to the item before it through its own record. -/
def Linked {α β : Type*} (R : α → β → α → Prop) (items : List α) (records : List β) : Prop :=
  ∀ n x y, items[n]? = some x → items[n + 1]? = some y → ∃ r, records[n + 1]? = some r ∧ R x r y

theorem Linked.append {α β : Type*} {R : α → β → α → Prop} {items : List α} {records : List β}
    {x : α} {r : β} (h : Linked R items records) (hlength : items.length = records.length)
    (hlast : ∀ prior, items.getLast? = some prior → R prior r x) :
    Linked R (items ++ [x]) (records ++ [r]) := by
  intro n prior next hprior hnext
  have hbound := (List.getElem?_eq_some_iff.mp hnext).1
  rw [List.length_append, List.length_singleton] at hbound
  rw [List.getElem?_append_left (by omega)] at hprior
  by_cases hold : n + 1 < items.length
  · rw [List.getElem?_append_left hold] at hnext
    obtain ⟨s, hs, hlink⟩ := h n prior next hprior hnext
    refine ⟨s, ?_, hlink⟩
    rw [List.getElem?_append_left (by omega)]
    exact hs
  · have hend : n + 1 = items.length := by omega
    rw [hend, List.getElem?_append_right (le_refl _), Nat.sub_self] at hnext
    obtain rfl : x = next := Option.some.inj hnext
    refine ⟨r, ?_, hlast prior ?_⟩
    · rw [hend, hlength, List.getElem?_append_right (le_refl _), Nat.sub_self]
      rfl
    · rw [List.getLast?_eq_getElem?, ← hend]
      exact hprior

end DirectTrade.Library.HashChain
