import Mathlib.Data.List.Nodup
import Mathlib.Data.List.Basic
import Mathlib.Data.List.Forall2
import Mathlib.Tactic.Basic

/-!
Insertion-ordered dictionaries with distinct keys. A dictionary enumerates its
entries in the order in which their keys were first set; writing an existing key
keeps its place. Lookups determine membership of entries, keys and values.
-/

namespace DirectTrade.Library

/-- A list of entries no two of which share a key. -/
structure Dict (α β : Type*) where
  entries : List (α × β)
  nodup : (entries.map Prod.fst).Nodup

namespace Dict

variable {α β : Type*}

def empty : Dict α β := ⟨[], by simp⟩

instance : EmptyCollection (Dict α β) := ⟨empty⟩

instance : Inhabited (Dict α β) := ⟨empty⟩

def keys (d : Dict α β) : List α := d.entries.map Prod.fst

def values (d : Dict α β) : List β := d.entries.map Prod.snd

@[simp] theorem values_empty : (∅ : Dict α β).values = [] := rfl

@[simp] theorem entries_empty : (∅ : Dict α β).entries = [] := rfl

variable [DecidableEq α]

instance [DecidableEq β] : DecidableEq (Dict α β) := fun d e =>
  decidable_of_iff (d.entries = e.entries) (by cases d; cases e; simp)

def lookup (k : α) : List (α × β) → Option β
  | [] => none
  | (key, value) :: rest => if key = k then some value else lookup k rest

def get? (d : Dict α β) (k : α) : Option β := lookup k d.entries

def setEntries (k : α) (v : β) : List (α × β) → List (α × β)
  | [] => [(k, v)]
  | (key, value) :: rest =>
    if key = k then (k, v) :: rest else (key, value) :: setEntries k v rest

theorem mem_keys_setEntries (k a : α) (v : β) (l : List (α × β)) :
    a ∈ (setEntries k v l).map Prod.fst ↔ a = k ∨ a ∈ l.map Prod.fst := by
  induction l with
  | nil => simp [setEntries]
  | cons entry rest ih =>
    obtain ⟨key, value⟩ := entry
    by_cases hk : key = k
    · subst key
      simp [setEntries]
    · simp only [setEntries, if_neg hk, List.map_cons, List.mem_cons, ih]
      tauto

theorem nodup_setEntries (k : α) (v : β) (l : List (α × β)) (h : (l.map Prod.fst).Nodup) :
    ((setEntries k v l).map Prod.fst).Nodup := by
  induction l with
  | nil => simp [setEntries]
  | cons entry rest ih =>
    obtain ⟨key, value⟩ := entry
    rw [List.map_cons, List.nodup_cons] at h
    by_cases hk : key = k
    · subst key
      simpa [setEntries] using h
    · simp only [setEntries, if_neg hk, List.map_cons, List.nodup_cons, mem_keys_setEntries]
      refine ⟨?_, ih h.2⟩
      rintro (rfl | hmem)
      · exact hk rfl
      · exact h.1 hmem

/-- Writes a key in place, or after every other key when it is new. -/
def set (d : Dict α β) (k : α) (v : β) : Dict α β :=
  ⟨setEntries k v d.entries, nodup_setEntries k v d.entries d.nodup⟩

/-- Writes a key only when it is absent. -/
def setNew (d : Dict α β) (k : α) (v : β) : Dict α β :=
  match d.get? k with
  | some _ => d
  | none => d.set k v

def mapEntries (d : Dict α β) (f : α → β → β) : Dict α β :=
  ⟨d.entries.map fun e => (e.1, f e.1 e.2), by
    simpa only [List.map_map, Function.comp_def] using d.nodup⟩

/-- Rewrites the value under one key and leaves an absent key absent. -/
def modify (d : Dict α β) (k : α) (f : β → β) : Dict α β :=
  d.mapEntries fun key v => if key = k then f v else v

def filter (d : Dict α β) (p : α → β → Bool) : Dict α β :=
  ⟨d.entries.filter fun e => p e.1 e.2,
    d.nodup.sublist (List.filter_sublist.map Prod.fst)⟩

@[simp] theorem get?_empty (k : α) : (∅ : Dict α β).get? k = none := rfl

theorem lookup_setEntries (k a : α) (v : β) (l : List (α × β)) :
    lookup a (setEntries k v l) = if a = k then some v else lookup a l := by
  induction l with
  | nil => simp [setEntries, lookup, eq_comm]
  | cons entry rest ih =>
    obtain ⟨key, value⟩ := entry
    by_cases hk : key = k
    · subst key
      by_cases ha : a = k
      · simp [setEntries, lookup, ha]
      · simp [setEntries, lookup, ha, Ne.symm ha]
    · by_cases ha : key = a
      · subst key
        simp [setEntries, lookup, hk]
      · simp [setEntries, lookup, hk, ha, ih]

theorem get?_set (d : Dict α β) (k a : α) (v : β) :
    (d.set k v).get? a = if a = k then some v else d.get? a :=
  lookup_setEntries k a v d.entries

omit [DecidableEq α] in
@[ext] theorem ext {d e : Dict α β} (h : d.entries = e.entries) : d = e := by
  cases d
  cases e
  simpa using h

theorem setEntries_of_lookup {k : α} {v : β} {l : List (α × β)} (h : lookup k l = some v) :
    setEntries k v l = l := by
  induction l with
  | nil => simp [lookup] at h
  | cons entry rest ih =>
    obtain ⟨key, value⟩ := entry
    by_cases hk : key = k
    · subst key
      simp only [lookup, if_true, Option.some.injEq] at h
      simp [setEntries, h]
    · simp only [lookup, if_neg hk] at h
      simp [setEntries, hk, ih h]

/-- Writing the value that a key already has changes nothing. -/
theorem set_eq_self {d : Dict α β} {k : α} {v : β} (h : d.get? k = some v) :
    d.set k v = d :=
  Dict.ext (setEntries_of_lookup h)

@[simp] theorem get?_set_self (d : Dict α β) (k : α) (v : β) :
    (d.set k v).get? k = some v := by
  simp [get?_set]

theorem get?_set_of_ne (d : Dict α β) {k a : α} (v : β) (h : a ≠ k) :
    (d.set k v).get? a = d.get? a := by
  simp [get?_set, h]

theorem setEntries_of_none {k : α} {v : β} {l : List (α × β)} (h : lookup k l = none) :
    setEntries k v l = l ++ [(k, v)] := by
  induction l with
  | nil => rfl
  | cons entry rest ih =>
    obtain ⟨key, value⟩ := entry
    by_cases hk : key = k
    · simp [lookup, hk] at h
    · simp only [lookup, if_neg hk] at h
      simp [setEntries, hk, ih h]

/-- A new key takes the last place. -/
theorem values_set_of_none {d : Dict α β} {k : α} (h : d.get? k = none) (v : β) :
    (d.set k v).values = d.values ++ [v] := by
  have hset : (d.set k v).entries = d.entries ++ [(k, v)] := setEntries_of_none h
  simp [values, hset]

theorem keys_set_of_none {d : Dict α β} {k : α} (h : d.get? k = none) (v : β) :
    (d.set k v).keys = d.keys ++ [k] := by
  have hset : (d.set k v).entries = d.entries ++ [(k, v)] := setEntries_of_none h
  simp [keys, hset]

theorem setEntries_setEntries (k : α) (v w : β) (l : List (α × β)) :
    setEntries k w (setEntries k v l) = setEntries k w l := by
  induction l with
  | nil => simp [setEntries]
  | cons entry rest ih =>
    obtain ⟨key, value⟩ := entry
    by_cases hk : key = k
    · simp [setEntries, hk]
    · simp [setEntries, hk, ih]

/-- Of two writes of one key the last remains. -/
theorem set_set (d : Dict α β) (k : α) (v w : β) : (d.set k v).set k w = d.set k w :=
  Dict.ext (setEntries_setEntries k v w d.entries)

theorem map_setEntries {γ : Type*} {f : β → γ} {k : α} {v w : β} {l : List (α × β)}
    (h : lookup k l = some v) (hf : f w = f v) :
    (setEntries k w l).map (fun e => f e.2) = l.map fun e => f e.2 := by
  induction l with
  | nil => simp [lookup] at h
  | cons entry rest ih =>
    obtain ⟨key, value⟩ := entry
    by_cases hk : key = k
    · simp only [lookup, if_pos hk, Option.some.injEq] at h
      simp [setEntries, hk, h, hf]
    · simp only [lookup, if_neg hk] at h
      simp [setEntries, hk, ih h]

/-- A rewritten value that looks the same under `f` changes nothing there. -/
theorem map_values_set {γ : Type*} {f : β → γ} {d : Dict α β} {k : α} {v w : β}
    (h : d.get? k = some v) (hf : f w = f v) : (d.set k w).values.map f = d.values.map f := by
  simp only [values, List.map_map, Function.comp_def]
  exact map_setEntries h hf

theorem get?_setNew (d : Dict α β) (k a : α) (v : β) :
    (d.setNew k v).get? a = if a = k then some ((d.get? k).getD v) else d.get? a := by
  unfold setNew
  cases hk : d.get? k with
  | some old =>
    by_cases ha : a = k
    · subst a
      simp [hk]
    · simp [ha]
  | none => simp [get?_set]

theorem lookup_map (f : α → β → β) (a : α) (l : List (α × β)) :
    lookup a (l.map fun e => (e.1, f e.1 e.2)) = (lookup a l).map (f a) := by
  induction l with
  | nil => rfl
  | cons entry rest ih =>
    obtain ⟨key, value⟩ := entry
    by_cases ha : key = a
    · subst key
      simp [lookup]
    · simp [lookup, ha, ih]

theorem get?_mapEntries (d : Dict α β) (f : α → β → β) (a : α) :
    (d.mapEntries f).get? a = (d.get? a).map (f a) :=
  lookup_map f a d.entries

theorem get?_modify (d : Dict α β) (k a : α) (f : β → β) :
    (d.modify k f).get? a = if a = k then (d.get? k).map f else d.get? a := by
  unfold modify
  rw [get?_mapEntries]
  by_cases ha : a = k
  · subst a
    simp
  · simp [ha]

@[simp] theorem get?_modify_self (d : Dict α β) (k : α) (f : β → β) :
    (d.modify k f).get? k = (d.get? k).map f := by
  simp [get?_modify]

theorem get?_modify_of_ne (d : Dict α β) {k a : α} (f : β → β) (h : a ≠ k) :
    (d.modify k f).get? a = d.get? a := by
  simp [get?_modify, h]

/-- Rewrites under distinct keys commute. -/
theorem modify_comm (d : Dict α β) {a b : α} (f g : β → β) (h : a ≠ b) :
    (d.modify a f).modify b g = (d.modify b g).modify a f := by
  apply Dict.ext
  simp only [modify, mapEntries, List.map_map]
  apply List.map_congr_left
  rintro ⟨key, v⟩ -
  by_cases ha : key = a
  · subst key
    simp [h]
  · simp [ha]

theorem set_modify (d : Dict α β) {k a : α} (v : β) (f : β → β) (h : a ≠ k) :
    (d.set k v).modify a f = (d.modify a f).set k v := by
  apply Dict.ext
  simp only [modify, mapEntries, set]
  induction d.entries with
  | nil => simp [setEntries, h.symm]
  | cons entry rest ih =>
    obtain ⟨key, w⟩ := entry
    by_cases hk : key = k
    · subst key
      simp [setEntries, h.symm]
    · simp only [setEntries, if_neg hk, List.map_cons, ih]

theorem lookup_eq_some_iff (a : α) (v : β) (l : List (α × β)) (h : (l.map Prod.fst).Nodup) :
    lookup a l = some v ↔ (a, v) ∈ l := by
  induction l with
  | nil => simp [lookup]
  | cons entry rest ih =>
    obtain ⟨key, value⟩ := entry
    rw [List.map_cons, List.nodup_cons] at h
    by_cases ha : key = a
    · subst key
      have hnot : (a, v) ∉ rest := fun hmem => h.1 (List.mem_map.mpr ⟨_, hmem, rfl⟩)
      simp [lookup, hnot, eq_comm]
    · have hne : ¬ (a = key ∧ v = value) := fun heq => ha heq.1.symm
      simp [lookup, ha, ih h.2, hne]

theorem mem_entries_iff (d : Dict α β) (a : α) (v : β) :
    (a, v) ∈ d.entries ↔ d.get? a = some v :=
  (lookup_eq_some_iff a v d.entries d.nodup).symm

theorem mem_values_iff (d : Dict α β) (v : β) :
    v ∈ d.values ↔ ∃ a, d.get? a = some v := by
  simp only [values, List.mem_map, Prod.exists, exists_eq_right, mem_entries_iff]

theorem mem_keys_iff (d : Dict α β) (a : α) : a ∈ d.keys ↔ ∃ v, d.get? a = some v := by
  simp only [keys, List.mem_map, Prod.exists, exists_and_right, exists_eq_right,
    mem_entries_iff]

theorem mem_values_of_get? {d : Dict α β} {a : α} {v : β} (h : d.get? a = some v) :
    v ∈ d.values :=
  (mem_values_iff d v).mpr ⟨a, h⟩

theorem get?_filter (d : Dict α β) (p : α → β → Bool) (a : α) :
    (d.filter p).get? a = (d.get? a).filter (p a) := by
  apply Option.ext
  intro v
  rw [← mem_entries_iff, Option.filter_eq_some_iff, ← mem_entries_iff]
  simp [filter]

/-- Each value carries its own key. -/
def Named (d : Dict α β) (name : β → α) : Prop := ∀ a v, d.get? a = some v → name v = a

theorem named_empty (name : β → α) : (∅ : Dict α β).Named name := by
  simp [Named]

theorem Named.set {d : Dict α β} {name : β → α} (h : d.Named name) {k : α} {v : β}
    (hv : name v = k) : (d.set k v).Named name := by
  intro a w hw
  rw [get?_set] at hw
  split at hw
  · rename_i hak
    obtain rfl := Option.some.inj hw
    exact hv.trans hak.symm
  · exact h a w hw

theorem Named.replace {d : Dict α β} {name : β → α} (h : d.Named name) {k : α} {v w : β}
    (hv : d.get? k = some v) (hw : name w = name v) : (d.set k w).Named name :=
  h.set (hw.trans (h k v hv))

theorem Named.setNew {d : Dict α β} {name : β → α} (h : d.Named name) {k : α} {v : β}
    (hv : name v = k) : (d.setNew k v).Named name := by
  unfold Dict.setNew
  split
  · exact h
  · exact h.set hv

theorem Named.modify {d : Dict α β} {name : β → α} (h : d.Named name) (k : α) (f : β → β)
    (hf : ∀ v, name (f v) = name v) : (d.modify k f).Named name := by
  intro a w hw
  rw [get?_modify] at hw
  split at hw
  · rename_i hak
    subst a
    obtain ⟨v, hv, rfl⟩ := Option.map_eq_some_iff.mp hw
    exact (hf v).trans (h k v hv)
  · exact h a w hw

theorem Named.values_modify {d : Dict α β} {name : β → α} (h : d.Named name) (k : α)
    (f : β → β) :
    (d.modify k f).values = d.values.map fun v => if name v = k then f v else v := by
  simp only [Dict.modify, Dict.mapEntries, values, List.map_map]
  apply List.map_congr_left
  rintro ⟨key, v⟩ hmem
  have hname : name v = key := h key v ((mem_entries_iff d key v).mp hmem)
  simp [hname]

theorem Named.foldl_set {d : Dict α β} {name : β → α} (h : d.Named name) (l : List β) :
    (l.foldl (fun d v => d.set (name v) v) d).Named name := by
  induction l generalizing d with
  | nil => exact h
  | cons v rest ih => exact ih (h.set rfl)

theorem Named.foldl_setNew {d : Dict α β} {name : β → α} (h : d.Named name) (l : List β) :
    (l.foldl (fun d v => d.setNew (name v) v) d).Named name := by
  induction l generalizing d with
  | nil => exact h
  | cons v rest ih => exact ih (h.setNew rfl)

/-- Writing values under their own keys: the last value of a key is found. -/
theorem get?_foldl_set (name : β → α) (l : List β) (d : Dict α β) (a : α) :
    (l.foldl (fun d v => d.set (name v) v) d).get? a =
      (l.reverse.find? (name · = a)).or (d.get? a) := by
  induction l generalizing d with
  | nil => simp
  | cons v rest ih =>
    simp only [List.foldl_cons, ih, get?_set, List.reverse_cons, List.find?_append]
    by_cases hv : name v = a
    · subst hv
      simp
    · simp [hv, Ne.symm hv]

/-- Writing what a test refuses over nothing, or over what it refuses too, changes nothing
that the test picks. -/
theorem filter_values_set {p : β → Bool} {d : Dict α β} {k : α} {v : β} (hv : p v = false)
    (hold : ∀ u, d.get? k = some u → p u = false) :
    (d.set k v).values.filter p = d.values.filter p := by
  have hentries : ∀ l : List (α × β), (∀ u, lookup k l = some u → p u = false) →
      ((setEntries k v l).map Prod.snd).filter p = (l.map Prod.snd).filter p := by
    intro l
    induction l with
    | nil =>
      intro _
      simp [setEntries, hv]
    | cons entry rest ih =>
      obtain ⟨key, value⟩ := entry
      intro hl
      by_cases hk : key = k
      · subst hk
        have hvalue : p value = false := hl value (by simp [lookup])
        simp [setEntries, hv, hvalue]
      · have hrest := ih fun u hu => hl u (by simpa [lookup, hk] using hu)
        simp only [setEntries, if_neg hk, List.map_cons, List.filter_cons, hrest]
  exact hentries d.entries hold

theorem filter_values_modify {p : β → Bool} {d : Dict α β} {k : α} {f : β → β}
    (h : ∀ u, d.get? k = some u → p u = false ∧ p (f u) = false) :
    (d.modify k f).values.filter p = d.values.filter p := by
  have hentries : ∀ l : List (α × β), (∀ u, (k, u) ∈ l → p u = false ∧ p (f u) = false) →
      (l.map fun e => if e.1 = k then f e.2 else e.2).filter p = (l.map Prod.snd).filter p := by
    intro l
    induction l with
    | nil =>
      intro _
      rfl
    | cons entry rest ih =>
      obtain ⟨key, value⟩ := entry
      intro hl
      have hrest := ih fun u hu => hl u (List.mem_cons_of_mem _ hu)
      by_cases hk : key = k
      · subst hk
        obtain ⟨hvalue, hnew⟩ := hl value (List.mem_cons_self ..)
        simp [hvalue, hnew, hrest]
      · simp only [List.map_cons, List.filter_cons, if_neg hk, hrest]
  have hmap := hentries d.entries fun u hu => h u ((mem_entries_iff d k u).mp hu)
  simp only [values, modify, mapEntries, List.map_map]
  exact hmap

theorem filter_values_foldl_set {p : β → Bool} (name : β → α) {l : List β} {d : Dict α β}
    (hl : ∀ v ∈ l, p v = false) (hd : ∀ v ∈ l, ∀ u, d.get? (name v) = some u → p u = false) :
    (l.foldl (fun d v => d.set (name v) v) d).values.filter p = d.values.filter p := by
  induction l generalizing d with
  | nil => rfl
  | cons v rest ih =>
    have hv := hl v (List.mem_cons_self ..)
    rw [List.foldl_cons, ih (fun w hw => hl w (List.mem_cons_of_mem _ hw)),
      filter_values_set hv (hd v (List.mem_cons_self ..))]
    intro w hw u hu
    rw [get?_set] at hu
    split at hu
    · exact Option.some.inj hu ▸ hv
    · exact hd w (List.mem_cons_of_mem _ hw) u hu

/-- New values under distinct keys take the last places. -/
theorem values_foldl_set {name : β → α} {l : List β} {d : Dict α β} (nodup : (l.map name).Nodup)
    (absent : ∀ v ∈ l, d.get? (name v) = none) :
    (l.foldl (fun d v => d.set (name v) v) d).values = d.values ++ l := by
  induction l generalizing d with
  | nil => simp
  | cons v rest ih =>
    rw [List.map_cons, List.nodup_cons] at nodup
    rw [List.foldl_cons, ih nodup.2, values_set_of_none (absent v (List.mem_cons_self ..)),
      List.append_assoc, List.singleton_append]
    intro w hw
    have hne : name w ≠ name v := by
      intro heq
      exact nodup.1 (heq ▸ List.mem_map_of_mem hw)
    rw [get?_set_of_ne _ _ hne]
    exact absent w (List.mem_cons_of_mem _ hw)

/-- Adding values under their own keys: a present value stays, else the first is found. -/
theorem get?_foldl_setNew (name : β → α) (l : List β) (d : Dict α β) (a : α) :
    (l.foldl (fun d v => d.setNew (name v) v) d).get? a =
      (d.get? a).or (l.find? (name · = a)) := by
  induction l generalizing d with
  | nil => simp
  | cons v rest ih =>
    simp only [List.foldl_cons, ih, get?_setNew, List.find?_cons]
    by_cases hv : name v = a
    · subst hv
      cases d.get? (name v) <;> simp
    · simp [hv, Ne.symm hv]

/-- Writing entries in order: the last value of a key is found. -/
theorem get?_foldl_pairs (l : List (α × β)) (d : Dict α β) (a : α) :
    (l.foldl (fun d e => d.set e.1 e.2) d).get? a =
      ((l.reverse.find? (·.1 = a)).map Prod.snd).or (d.get? a) := by
  induction l generalizing d with
  | nil => simp
  | cons e rest ih =>
    simp only [List.foldl_cons, ih, get?_set, List.reverse_cons, List.find?_append]
    by_cases he : e.1 = a
    · subst he
      simp
    · simp [he, Ne.symm he]

/-- What an entry written last says, and that some entry was written last. -/
theorem get?_foldl_pairs_cases (l : List (α × β)) (d : Dict α β) (a : α) :
    (∃ v, (a, v) ∈ l ∧ (l.foldl (fun d e => d.set e.1 e.2) d).get? a = some v) ∨
      (∀ v, (a, v) ∉ l) ∧ (l.foldl (fun d e => d.set e.1 e.2) d).get? a = d.get? a := by
  rw [get?_foldl_pairs]
  cases hfind : l.reverse.find? (·.1 = a) with
  | none =>
    right
    refine ⟨fun v hv => ?_, rfl⟩
    have hne := List.find?_eq_none.mp hfind (a, v) (List.mem_reverse.mpr hv)
    exact hne (decide_eq_true rfl)
  | some e =>
    left
    have hkey : e.1 = a := by simpa using List.find?_some hfind
    have hmem : e ∈ l := List.mem_reverse.mp (List.mem_of_find?_eq_some hfind)
    exact ⟨e.2, hkey ▸ hmem, rfl⟩

/-- The values of a dictionary name distinct keys when each value names its own. -/
theorem Named.nodup {d : Dict α β} {name : β → α} (h : d.Named name) :
    (d.values.map name).Nodup := by
  have hkeys : d.entries.map Prod.fst = d.values.map name := by
    unfold values
    rw [List.map_map]
    apply List.map_congr_left
    rintro ⟨a, v⟩ hmem
    exact (h a v ((mem_entries_iff d a v).mp hmem)).symm
  exact hkeys ▸ d.nodup

theorem nodup_values (d : Dict α β) (name : β → α) (h : d.Named name) : d.values.Nodup :=
  h.nodup.of_map name

/-- The same keys in the same order, with related values. -/
def Alike (R : β → β → Prop) (d e : Dict α β) : Prop :=
  List.Forall₂ (fun a b => b.1 = a.1 ∧ R a.2 b.2) d.entries e.entries

variable {R : β → β → Prop} {d e : Dict α β}

omit [DecidableEq α] in
theorem Alike.refl (hR : ∀ v, R v v) (d : Dict α β) : Alike R d d :=
  List.forall₂_same.mpr fun a _ => ⟨rfl, hR a.2⟩

theorem forall₂_lookup {l r : List (α × β)}
    (h : List.Forall₂ (fun a b => b.1 = a.1 ∧ R a.2 b.2) l r) (k : α) :
    Option.Rel R (lookup k l) (lookup k r) := by
  induction h with
  | nil => exact .none
  | @cons a b l r hab _ ih =>
    obtain ⟨key, v⟩ := a
    obtain ⟨key', w⟩ := b
    obtain ⟨rfl, hvw⟩ := hab
    by_cases hk : key' = k
    · simpa [lookup, hk] using Option.Rel.some hvw
    · simpa [lookup, hk] using ih

theorem forall₂_setEntries (hR : ∀ v, R v v) {l r : List (α × β)}
    (h : List.Forall₂ (fun a b => b.1 = a.1 ∧ R a.2 b.2) l r) (k : α) (v : β) :
    List.Forall₂ (fun a b => b.1 = a.1 ∧ R a.2 b.2) (setEntries k v l) (setEntries k v r) := by
  induction h with
  | nil => exact .cons ⟨rfl, hR v⟩ .nil
  | @cons a b l r hab hrest ih =>
    obtain ⟨key, x⟩ := a
    obtain ⟨key', y⟩ := b
    obtain ⟨rfl, hxy⟩ := hab
    by_cases hk : key' = k
    · simpa only [setEntries, if_pos hk] using .cons ⟨rfl, hR v⟩ hrest
    · simpa only [setEntries, if_neg hk] using .cons ⟨rfl, hxy⟩ ih

theorem Alike.get? (h : Alike R d e) (k : α) : Option.Rel R (d.get? k) (e.get? k) :=
  forall₂_lookup h k

theorem Alike.set (hR : ∀ v, R v v) (h : Alike R d e) (k : α) (v : β) :
    Alike R (d.set k v) (e.set k v) :=
  forall₂_setEntries hR h k v

theorem Alike.setNew (hR : ∀ v, R v v) (h : Alike R d e) (k : α) (v : β) :
    Alike R (d.setNew k v) (e.setNew k v) := by
  have hget := h.get? k
  unfold Dict.setNew
  generalize d.get? k = x at hget
  generalize e.get? k = y at hget
  cases hget with
  | none => exact h.set hR k v
  | some _ => exact h

theorem Alike.foldl_setNew (hR : ∀ v, R v v) (h : Alike R d e) (name : β → α) (l : List β) :
    Alike R (l.foldl (fun d v => d.setNew (name v) v) d)
      (l.foldl (fun d v => d.setNew (name v) v) e) := by
  induction l generalizing d e with
  | nil => exact h
  | cons v rest ih => exact ih (h.setNew hR _ _)

omit [DecidableEq α] in
theorem Alike.mapEntries {f : α → β → β} (hf : ∀ k v w, R v w → R (f k v) (f k w))
    (h : Alike R d e) : Alike R (d.mapEntries f) (e.mapEntries f) := by
  unfold Alike at h ⊢
  refine List.forall₂_map_left_iff.mpr (List.forall₂_map_right_iff.mpr (h.imp ?_))
  rintro ⟨k, v⟩ ⟨k', w⟩ ⟨rfl, hvw⟩
  exact ⟨rfl, hf _ v w hvw⟩

omit [DecidableEq α] in
/-- Values read through a function that related values agree on. -/
theorem Alike.map_values {γ : Type*} {f : β → γ} (hf : ∀ {v w}, R v w → f v = f w)
    (h : Alike R d e) : d.values.map f = e.values.map f := by
  unfold Alike at h
  unfold values
  generalize d.entries = l at h
  generalize e.entries = r at h
  induction h with
  | nil => rfl
  | cons hab _ ih =>
    simp only [List.map_cons, hf hab.2]
    exact congrArg _ ih

end Dict
end DirectTrade.Library
