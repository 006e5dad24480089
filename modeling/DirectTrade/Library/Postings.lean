import DirectTrade.Library.Dict

/-!
Inverted indexes. Records are kept in a table in the order they were added, and an index lists
under each tag the keys of the records with that tag; each new record is posted under its tags,
which may repeat.
-/

namespace DirectTrade.Library.Postings

variable {κ τ ε : Type*} [DecidableEq κ] [DecidableEq τ]

/-- Lists a key under a tag, once. -/
def post (key : κ) (index : Dict τ (List κ)) (tag : τ) : Dict τ (List κ) :=
  let keys := (index.get? tag).getD []
  index.set tag (if key ∈ keys then keys else keys ++ [key])

theorem get?_post (key : κ) (index : Dict τ (List κ)) (tag t : τ) :
    ((post key index tag).get? t).getD [] =
      if t = tag ∧ key ∉ (index.get? t).getD [] then (index.get? t).getD [] ++ [key]
      else (index.get? t).getD [] := by
  unfold post
  rw [Dict.get?_set]
  by_cases ht : t = tag
  · subst t
    by_cases hkey : key ∈ (index.get? tag).getD []
    · simp [hkey]
    · simp [hkey]
  · simp [ht]

/-- However often a tag is repeated, the key is listed once under it. -/
theorem get?_postAll (key : κ) (index : Dict τ (List κ)) (tags : List τ) (t : τ) :
    ((tags.foldl (post key) index).get? t).getD [] =
      if t ∈ tags ∧ key ∉ (index.get? t).getD [] then (index.get? t).getD [] ++ [key]
      else (index.get? t).getD [] := by
  induction tags generalizing index with
  | nil => simp
  | cons tag rest ih =>
    rw [List.foldl_cons, ih, get?_post]
    by_cases ht : t = tag
    · by_cases hkey : key ∈ (index.get? t).getD []
      · simp [hkey]
      · simp [ht ▸ hkey, ht]
    · simp [ht]

/-- The index lists, under each tag, the keys of the records with it, in the order of the table. -/
def Exact (tagged : τ → ε → Bool) (table : Dict κ ε) (index : Dict τ (List κ)) : Prop :=
  ∀ t, (index.get? t).getD [] = (table.entries.filter fun e => tagged t e.2).map Prod.fst

omit [DecidableEq κ] in
theorem exact_empty (tagged : τ → ε → Bool) : Exact tagged (∅ : Dict κ ε) ∅ := fun _ => rfl

variable {tagged : τ → ε → Bool} {table : Dict κ ε} {index : Dict τ (List κ)}

omit [DecidableEq κ] in
theorem Exact.congr {tagged' : τ → ε → Bool} (h : Exact tagged table index)
    (hsame : ∀ e ∈ table.values, ∀ t, tagged' t e = tagged t e) : Exact tagged' table index := by
  intro t
  rw [h t]
  congr 1
  apply List.filter_congr
  intro e he
  exact (hsame e.2 (List.mem_map_of_mem he) t).symm

/-- A new record is posted under exactly its tags. -/
theorem Exact.record (h : Exact tagged table index) {key : κ} {e : ε} {tags : List τ}
    (hnew : table.get? key = none) (htags : ∀ t, tagged t e = true ↔ t ∈ tags) :
    Exact tagged (table.set key e) (tags.foldl (post key) index) := by
  intro t
  have hset : (table.set key e).entries = table.entries ++ [(key, e)] :=
    Dict.setEntries_of_none hnew
  have hfresh : key ∉ (index.get? t).getD [] := by
    intro hmem
    rw [h t] at hmem
    obtain ⟨entry, hentry, hkey⟩ := List.mem_map.mp hmem
    have hfound := (Dict.mem_entries_iff table entry.1 entry.2).mp (List.mem_of_mem_filter hentry)
    rw [hkey, hnew] at hfound
    cases hfound
  rw [get?_postAll, hset, List.filter_append, List.map_append, h t]
  rw [h t] at hfresh
  by_cases ht : t ∈ tags
  · rw [if_pos ⟨ht, hfresh⟩]
    simp [(htags t).mpr ht]
  · have hother : ¬ tagged t e = true := fun htagged => ht ((htags t).mp htagged)
    rw [if_neg fun hboth => ht hboth.1]
    simp [hother]

/-- Looking up the keys under a tag gives the records with it, each once and in order. -/
theorem Exact.lookup (h : Exact tagged table index) (t : τ) :
    ((index.get? t).getD []).filterMap table.get? = table.values.filter (tagged t) := by
  rw [h t, List.filterMap_map, Dict.values, List.filter_map]
  have hfound : ∀ e ∈ table.entries.filter (fun e => tagged t e.2),
      (table.get? ∘ Prod.fst) e = some e.2 := by
    intro e he
    exact (Dict.mem_entries_iff table e.1 e.2).mp (List.mem_of_mem_filter he)
  rw [List.filterMap_congr hfound, List.filterMap_eq_map']
  rfl

end DirectTrade.Library.Postings
