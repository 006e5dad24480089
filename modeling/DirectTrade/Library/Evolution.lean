import DirectTrade.Library.Dict

/-!
Tables that evolve. Entries may be added and rewritten, but every entry stays and becomes only
what a relation allows.
-/

namespace DirectTrade.Library.Dict

variable {α β : Type*} [DecidableEq α] {R : β → β → Prop} {d e : Dict α β} {k : α} {w : β}

/-- Every entry is still there, as one that it may become. -/
def Evolves (R : β → β → Prop) (d e : Dict α β) : Prop :=
  ∀ k v, d.get? k = some v → ∃ w, e.get? k = some w ∧ R v w

theorem Evolves.of_eq (hrefl : ∀ v, R v v) (h : e = d) : Evolves R d e := by
  intro k v hv
  exact ⟨v, by rw [h]; exact hv, hrefl v⟩

/-- One entry is written, and one that was there is rewritten as the relation allows. -/
theorem Evolves.of_set (hrefl : ∀ v, R v v) (hR : ∀ v, d.get? k = some v → R v w) :
    Evolves R d (d.set k w) := by
  intro a v hv
  by_cases ha : a = k
  · subst a
    exact ⟨w, get?_set_self d k w, hR v hv⟩
  · exact ⟨v, by rw [get?_set_of_ne _ _ ha]; exact hv, hrefl v⟩

end DirectTrade.Library.Dict
