import Mathlib.Logic.Relation
import Mathlib.Order.Defs.PartialOrder
import Mathlib.Data.Set.Defs

/-!
Rights that are passed on. A holder with the power to delegate offers a right below its own,
and an offer is taken up at most as it was made. Over a run of such steps every right stays
below one single right of the start.
-/

namespace DirectTrade.Library.Delegation

/-- The rights that are held, and those that are on offer. -/
structure Rights (α : Type*) where
  held : Set α
  offered : Set α

variable {α : Type*} [Preorder α] {delegable : Set α} {s t : Rights α}

/-- A right below one that its holder may delegate, or below one on offer. -/
def Rights.Covers (delegable : Set α) (s : Rights α) (a : α) : Prop :=
  (∃ b ∈ s.held, b ∈ delegable ∧ a ≤ b) ∨ ∃ b ∈ s.offered, a ≤ b

theorem Rights.Covers.mono {a b : α} (h : s.Covers delegable b) (hab : a ≤ b) :
    s.Covers delegable a := by
  rcases h with ⟨c, hc, hd, hbc⟩ | ⟨c, hc, hbc⟩
  · exact .inl ⟨c, hc, hd, le_trans hab hbc⟩
  · exact .inr ⟨c, hc, le_trans hab hbc⟩

/-- A new right comes from an offer, and a new offer from a holder that may delegate. -/
structure Step (delegable : Set α) (s t : Rights α) : Prop where
  held : ∀ a ∈ t.held, a ∈ s.held ∨ ∃ b ∈ s.offered, a ≤ b
  offered : ∀ a ∈ t.offered, a ∈ s.offered ∨ ∃ b ∈ s.held, b ∈ delegable ∧ a ≤ b

/-- What a run can have given out, seen from its start. -/
structure Bounded (delegable : Set α) (s t : Rights α) : Prop where
  held : ∀ a ∈ t.held, a ∈ s.held ∨ s.Covers delegable a
  offered : ∀ a ∈ t.offered, s.Covers delegable a

theorem Bounded.refl (s : Rights α) : Bounded delegable s s :=
  ⟨fun _ ha => .inl ha, fun a ha => .inr ⟨a, ha, le_rfl⟩⟩

theorem Bounded.step {u : Rights α} (h : Bounded delegable s t) (hstep : Step delegable t u) :
    Bounded delegable s u := by
  constructor
  · intro a ha
    rcases hstep.held a ha with ha | ⟨b, hb, hab⟩
    · exact h.held a ha
    · exact .inr ((h.offered b hb).mono hab)
  · intro a ha
    rcases hstep.offered a ha with ha | ⟨b, hb, hd, hab⟩
    · exact h.offered a ha
    · rcases h.held b hb with hb | hb
      · exact .inl ⟨b, hb, hd, hab⟩
      · exact hb.mono hab

theorem Bounded.run (h : Relation.ReflTransGen (Step delegable) s t) : Bounded delegable s t := by
  induction h with
  | refl => exact .refl s
  | tail _ hstep ih => exact ih.step hstep

end DirectTrade.Library.Delegation
