import Mathlib.Data.List.Chain
import Mathlib.Data.Set.Finite.Lemmas

/-!
Items that name a predecessor. When predecessors have a smaller rank, share the label of
their successor, and are shared by no two items, and a label has at most one item without
a predecessor, the items of a label form one line from its unique last item back to its
first.
-/

namespace DirectTrade.Library

structure Linking (α κ ρ : Type*) where
  id : α → κ
  prev : α → Option κ
  rank : α → ℕ
  label : α → ρ

namespace Linking

variable {α κ ρ : Type*}

structure Sound (L : Linking α κ ρ) (items : Set α) : Prop where
  unique : ∀ a ∈ items, ∀ b ∈ items, L.id a = L.id b → a = b
  linked : ∀ a ∈ items, ∀ k, L.prev a = some k →
    ∃ b ∈ items, L.id b = k ∧ L.label b = L.label a ∧ L.rank b < L.rank a
  single : ∀ a ∈ items, ∀ b ∈ items, ∀ k, L.prev a = some k → L.prev b = some k → a = b
  first : ∀ a ∈ items, ∀ b ∈ items, L.prev a = none → L.prev b = none →
    L.label a = L.label b → a = b

/-- No item names this one as its predecessor. -/
def Last (L : Linking α κ ρ) (items : Set α) (a : α) : Prop :=
  ∀ x ∈ items, L.prev x ≠ some (L.id a)

/-- One item follows another directly. -/
def Follows (L : Linking α κ ρ) (a b : α) : Prop :=
  L.prev a = some (L.id b) ∧ L.rank b < L.rank a

/-- The items of a label in line, from the last item back to the first. -/
structure Line (L : Linking α κ ρ) (items : Set α) (label : ρ) (line : List α) : Prop where
  mem : ∀ b, b ∈ line ↔ b ∈ items ∧ L.label b = label
  linked : line.IsChain fun a b => L.prev a = some (L.id b)
  falling : line.Pairwise fun a b => L.rank b < L.rank a
  head : ∃ h, line.head? = some h ∧ ∀ b ∈ line, L.Last items b ↔ b = h
  first : ∃ g, line.getLast? = some g ∧ L.prev g = none

variable {L : Linking α κ ρ} {items : Set α}

/-- The line from an item back to an item without a predecessor. -/
theorem exists_trace (h : L.Sound items) (a : α) (ha : a ∈ items) :
    ∃ rest, (a :: rest).IsChain L.Follows ∧
      (∀ b ∈ a :: rest, b ∈ items ∧ L.label b = L.label a) ∧
      ∃ g, (a :: rest).getLast? = some g ∧ L.prev g = none := by
  induction hn : L.rank a using Nat.strong_induction_on generalizing a with
  | _ n ih =>
    cases hprev : L.prev a with
    | none =>
      refine ⟨[], by simp, ?_, a, by simp, hprev⟩
      simp [ha]
    | some k =>
      obtain ⟨b, hb, hid, hlabel, hrank⟩ := h.linked a ha k hprev
      obtain ⟨rest, hchain, hmem, g, hlast, hg⟩ := ih (L.rank b) (hn ▸ hrank) b hb rfl
      refine ⟨b :: rest, ?_, ?_, g, ?_, hg⟩
      · exact List.isChain_cons_cons.mpr ⟨⟨by rw [hprev, hid], hrank⟩, hchain⟩
      · intro x hx
        rcases List.mem_cons.mp hx with rfl | hx
        · exact ⟨ha, rfl⟩
        · exact ⟨(hmem x hx).1, (hmem x hx).2.trans hlabel⟩
      · simpa using hlast

theorem exists_first (h : L.Sound items) (a : α) (ha : a ∈ items) :
    ∃ g ∈ items, L.prev g = none ∧ L.label g = L.label a := by
  obtain ⟨rest, -, hmem, g, hlast, hg⟩ := exists_trace h a ha
  have hmemg := hmem g (List.mem_of_getLast? hlast)
  exact ⟨g, hmemg.1, hg, hmemg.2⟩

/-- Labels that agree on a coarser label of a first item agree. -/
theorem label_eq_of_coarse {σ : Type*} (h : L.Sound items) (coarse : ρ → σ)
    (hfirst : ∀ a ∈ items, ∀ b ∈ items, L.prev a = none → L.prev b = none →
      coarse (L.label a) = coarse (L.label b) → a = b)
    {a b : α} (ha : a ∈ items) (hb : b ∈ items)
    (hab : coarse (L.label a) = coarse (L.label b)) : L.label a = L.label b := by
  obtain ⟨g, hg, hgprev, hga⟩ := exists_first h a ha
  obtain ⟨g', hg', hgprev', hgb⟩ := exists_first h b hb
  have heq : g = g' := hfirst g hg g' hg' hgprev hgprev' (by rw [hga, hgb, hab])
  rw [← hga, heq, hgb]

/-- In a line every item but the first of the list has a successor in it. -/
theorem exists_next {a : α} {rest : List α} (h : (a :: rest).IsChain L.Follows) {b : α}
    (hb : b ∈ rest) : ∃ c ∈ a :: rest, L.Follows c b := by
  induction rest generalizing a with
  | nil => simp at hb
  | cons x rest ih =>
    rw [List.isChain_cons_cons] at h
    rcases List.mem_cons.mp hb with rfl | hb
    · exact ⟨a, by simp, h.1⟩
    · obtain ⟨c, hc, hfollows⟩ := ih h.2 hb
      exact ⟨c, List.mem_cons_of_mem a hc, hfollows⟩

theorem falling_of_chain {l : List α} (h : l.IsChain L.Follows) :
    l.Pairwise fun a b => L.rank b < L.rank a := by
  have hfall : l.IsChain fun a b => L.rank b < L.rank a := h.imp fun _ _ hab => hab.2
  have : IsTrans α fun a b => L.rank b < L.rank a := ⟨fun _ _ _ hab hbc => hbc.trans hab⟩
  exact List.isChain_iff_pairwise.mp hfall

/-- The trace of an item of greatest rank passes through every item of its label. -/
theorem mem_trace (h : L.Sound items) {a : α} {rest : List α}
    (hchain : (a :: rest).IsChain L.Follows)
    (hmem : ∀ b ∈ a :: rest, b ∈ items ∧ L.label b = L.label a)
    {g : α} (hlast : (a :: rest).getLast? = some g) (hg : L.prev g = none)
    (hmax : ∀ b ∈ items, L.label b = L.label a → L.rank b ≤ L.rank a)
    (b : α) (hb : b ∈ items) (hlabel : L.label b = L.label a) : b ∈ a :: rest := by
  induction hn : L.rank b using Nat.strong_induction_on generalizing b with
  | _ n ih =>
    cases hprev : L.prev b with
    | none =>
      have hgmem := hmem g (List.mem_of_getLast? hlast)
      have heq : b = g := h.first b hb g hgmem.1 hprev hg (hlabel.trans hgmem.2.symm)
      exact heq ▸ List.mem_of_getLast? hlast
    | some k =>
      obtain ⟨p, hp, hid, hplabel, hrank⟩ := h.linked b hb k hprev
      have hpmem : p ∈ a :: rest :=
        ih (L.rank p) (hn ▸ hrank) p hp (hplabel.trans hlabel) rfl
      rcases List.mem_cons.mp hpmem with rfl | hprest
      · exact absurd (hmax b hb hlabel) (by omega)
      · obtain ⟨c, hc, hfollows, -⟩ := exists_next hchain hprest
        have heq : c = b := h.single c (hmem c hc).1 b hb k (by rw [hfollows, hid]) hprev
        exact heq ▸ hc

/-- The items of a label form one line. -/
theorem exists_line (h : L.Sound items) (hfin : items.Finite) {a : α} (ha : a ∈ items) :
    ∃ line, L.Line items (L.label a) line := by
  obtain ⟨top, htop, hmax⟩ := Set.exists_max_image {b ∈ items | L.label b = L.label a} L.rank
    (hfin.subset fun _ hb => hb.1) ⟨a, ha, rfl⟩
  obtain ⟨hitem, hlabel⟩ := htop
  obtain ⟨rest, hchain, hmem, g, hlast, hg⟩ := exists_trace h top hitem
  have hall : ∀ b ∈ items, L.label b = L.label top → b ∈ top :: rest :=
    mem_trace h hchain hmem hlast hg fun b hb hbl => hmax b ⟨hb, hbl.trans hlabel⟩
  refine ⟨top :: rest, fun b => ⟨fun hb => ?_, fun hb => ?_⟩, hchain.imp fun _ _ hab => hab.1,
    falling_of_chain hchain, ⟨top, rfl, fun b hb => ⟨fun hbLast => ?_, ?_⟩⟩, g, hlast, hg⟩
  · exact ⟨(hmem b hb).1, (hmem b hb).2.trans hlabel⟩
  · exact hall b hb.1 (hb.2.trans hlabel.symm)
  · rcases List.mem_cons.mp hb with heq | hrest
    · exact heq
    · obtain ⟨c, hc, hfollows, -⟩ := exists_next hchain hrest
      exact absurd hfollows (hbLast c (hmem c hc).1)
  · -- a successor of the top would have its label and a greater rank
    rintro rfl x hx hprev
    obtain ⟨p, hp, hid, hplabel, hrank⟩ := h.linked x hx _ hprev
    obtain rfl := h.unique p hp b hitem hid
    exact absurd (hmax x ⟨hx, hplabel.symm.trans hlabel⟩) (by omega)

end Linking
end DirectTrade.Library
