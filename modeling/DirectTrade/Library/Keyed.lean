import Mathlib.Data.List.Nodup

/-!
Lists of records under a key. The first record under a key is the only one where the keys
are distinct.
-/

namespace DirectTrade.Library.Keyed

variable {α κ : Type*} [DecidableEq κ] {key : α → κ} {l : List α} {a : α} {k : κ}

theorem mem_of_find? (h : l.find? (fun x => decide (key x = k)) = some a) : a ∈ l ∧ key a = k := by
  have hkey := List.find?_some h
  exact ⟨List.mem_of_find?_eq_some h, by simpa using hkey⟩

theorem find?_of_mem (hkeys : (l.map key).Nodup) (ha : a ∈ l) :
    l.find? (fun x => decide (key x = key a)) = some a := by
  cases hfind : l.find? fun x => decide (key x = key a) with
  | none => simpa using List.find?_eq_none.mp hfind a ha
  | some b =>
    obtain ⟨hb, hkey⟩ := mem_of_find? hfind
    exact congrArg some (List.inj_on_of_nodup_map hkeys hb ha hkey)

theorem find?_eq_none_iff : l.find? (fun x => decide (key x = k)) = none ↔ k ∉ l.map key := by
  simp [List.find?_eq_none]

end DirectTrade.Library.Keyed
