import Mathlib.Data.List.Range
import DirectTrade.Library.Dict

/-!
Append-only logs with an index. The index holds, for each key, the positions of its entries; it
is kept up to date entry by entry and then agrees with a search of the whole log.
-/

namespace DirectTrade.Library

/-- A log with the positions of the entries of each key. -/
structure IndexedLog (κ ε : Type*) where
  log : List ε
  index : Dict κ (List ℕ)

namespace IndexedLog

variable {κ ε : Type*}

/-- The positions of the entries that satisfy a test, increasing. -/
def positions (p : ε → Bool) (log : List ε) : List ℕ :=
  (List.range log.length).filter fun i => log[i]?.any p

theorem mem_positions {p : ε → Bool} {log : List ε} {i : ℕ} :
    i ∈ positions p log ↔ ∃ e, log[i]? = some e ∧ p e = true := by
  unfold positions
  rw [List.mem_filter, List.mem_range, Option.any_eq_true_iff_get]
  constructor
  · intro h
    obtain ⟨-, hsome, hp⟩ := h
    exact ⟨_, (Option.some_get hsome).symm, hp⟩
  · intro h
    obtain ⟨e, he, hp⟩ := h
    have hlt : i < log.length := (List.getElem?_eq_some_iff.mp he).1
    refine ⟨hlt, ?_, ?_⟩
    · rw [he]
      rfl
    · simpa only [he, Option.get_some] using hp

theorem positions_increasing (p : ε → Bool) (log : List ε) :
    (positions p log).Pairwise (· < ·) :=
  List.pairwise_lt_range.filter _

theorem positions_concat (p : ε → Bool) (log : List ε) (e : ε) :
    positions p (log ++ [e]) = positions p log ++ if p e = true then [log.length] else [] := by
  unfold positions
  rw [List.length_append, List.length_singleton, List.range_succ, List.filter_append]
  congr 1
  · apply List.filter_congr
    intro i hi
    rw [List.getElem?_append_left (List.mem_range.mp hi)]
  · simp only [List.filter_cons, List.filter_nil, List.getElem?_concat_length, Option.any_some]

/-- Reading the log at the positions of a test gives the entries that satisfy it. -/
theorem map_positions (p : ε → Bool) (log : List ε) :
    (positions p log).map (fun i => log[i]?) = (log.filter p).map some := by
  induction log using List.reverseRecOn with
  | nil => rfl
  | append_singleton log e ih =>
    rw [positions_concat, List.map_append, List.filter_append, List.map_append, ← ih]
    congr 1
    · apply List.map_congr_left
      intro i hi
      obtain ⟨e', he', -⟩ := mem_positions.mp hi
      exact List.getElem?_append_left (List.getElem?_eq_some_iff.mp he').1
    · by_cases hp : p e = true
      · simp [hp]
      · simp [hp]

theorem length_positions (p : ε → Bool) (log : List ε) :
    (positions p log).length = (log.filter p).length := by
  simpa only [List.length_map] using congrArg List.length (map_positions p log)

variable [DecidableEq κ] (key : ε → κ)

/-- Appends an entry and lists its position under its key. -/
def record (l : IndexedLog κ ε) (e : ε) : IndexedLog κ ε where
  log := l.log ++ [e]
  index := l.index.set (key e) ((l.index.get? (key e)).getD [] ++ [l.log.length])

/-- The index lists, for each key, the positions of exactly its entries. -/
def Exact (l : IndexedLog κ ε) : Prop :=
  ∀ k, (l.index.get? k).getD [] = positions (fun e => decide (key e = k)) l.log

theorem exact_empty : Exact key (⟨[], ∅⟩ : IndexedLog κ ε) := fun _ => rfl

variable {key}

theorem Exact.record {l : IndexedLog κ ε} (h : Exact key l) (e : ε) :
    Exact key (l.record key e) := by
  intro k
  show ((l.index.set (key e) _).get? k).getD [] = positions _ (l.log ++ [e])
  rw [positions_concat, Dict.get?_set]
  by_cases hk : k = key e
  · rw [if_pos hk, if_pos (decide_eq_true hk.symm), Option.getD_some, ← hk, h k]
  · have hne : ¬ decide (key e = k) = true := by simpa using Ne.symm hk
    rw [if_neg hk, if_neg hne, List.append_nil, h k]

theorem Exact.recordAll {l : IndexedLog κ ε} (h : Exact key l) (entries : List ε) :
    Exact key (entries.foldl (IndexedLog.record key) l) := by
  induction entries generalizing l with
  | nil => exact h
  | cons e rest ih => exact ih (h.record e)

variable (key)

theorem log_recordAll (l : IndexedLog κ ε) (entries : List ε) :
    (entries.foldl (IndexedLog.record key) l).log = l.log ++ entries := by
  induction entries generalizing l with
  | nil => exact (List.append_nil _).symm
  | cons e rest ih =>
    rw [List.foldl_cons, ih, IndexedLog.record, List.append_assoc, List.singleton_append]

end IndexedLog

end DirectTrade.Library
