import DirectTrade.Library.Dict

/-!
At-most-once observation with a bounded memory. Each source numbers its observations;
a receiver keeps the greatest number it accepted and, for the numbers of a window below
it, what it accepted under them. That suffices to accept each number at most once, in
whatever order observations arrive and whichever of them are refused for other reasons.
-/

namespace DirectTrade.Library

/-- What is remembered of one source. -/
structure Marks (δ : Type*) where
  highWater : ℕ
  recent : Dict ℕ δ

inductive Verdict where
  | fresh
  | duplicate
  | conflict
  | stale
  deriving DecidableEq

namespace Marks

variable {δ : Type*}

def new : Marks δ := ⟨0, ∅⟩

/-- Accepts an observation and forgets what has left the window. -/
def record (window : ℕ) (m : Marks δ) (n : ℕ) (d : δ) : Marks δ :=
  let highWater := max m.highWater n
  ⟨highWater, (m.recent.set n d).filter fun k _ => highWater < k + window⟩

/-- The marks are what is to be remembered of the accepted observations. -/
structure Remembers (window : ℕ) (m : Marks δ) (accepted : List (ℕ × δ)) : Prop where
  distinct : (accepted.map Prod.fst).Nodup
  below : ∀ n ∈ accepted.map Prod.fst, n ≤ m.highWater
  reached : accepted = [] ∧ m.highWater = 0 ∨ m.highWater ∈ accepted.map Prod.fst
  recent : ∀ n d, m.recent.get? n = some d ↔ (n, d) ∈ accepted ∧ m.highWater < n + window

variable {window : ℕ} {m : Marks δ} {accepted : List (ℕ × δ)} {n : ℕ} {d d' : δ}

theorem remembers_new : Remembers window (new : Marks δ) [] where
  distinct := List.nodup_nil
  below := by simp
  reached := .inl ⟨rfl, rfl⟩
  recent := by simp [new]

theorem Remembers.unique (h : Remembers window m accepted) (hd : (n, d) ∈ accepted)
    (hd' : (n, d') ∈ accepted) : d = d' :=
  congrArg Prod.snd (List.inj_on_of_nodup_map h.distinct hd hd' rfl)

variable [DecidableEq δ]

instance : DecidableEq (Marks δ) := fun m m' =>
  decidable_of_iff (m.highWater = m'.highWater ∧ m.recent = m'.recent) (by
    cases m
    cases m'
    simp)

/-- How an observation numbered `n` stands to those accepted before. -/
def judge (window : ℕ) (m : Marks δ) (n : ℕ) (d : δ) : Verdict :=
  if n ≤ m.highWater then
    match m.recent.get? n with
    | some known => if known = d then .duplicate else .conflict
    | none => if n + window ≤ m.highWater then .stale else .fresh
  else .fresh

/-- A number that was accepted is never fresh again. -/
theorem Remembers.notMem_of_fresh (h : Remembers window m accepted)
    (hfresh : m.judge window n d = .fresh) : n ∉ accepted.map Prod.fst := by
  intro hmem
  obtain ⟨⟨k, known⟩, hknown, rfl⟩ := List.mem_map.mp hmem
  have hle : k ≤ m.highWater := h.below k hmem
  unfold judge at hfresh
  rw [if_pos hle] at hfresh
  by_cases hin : m.highWater < k + window
  · have hget := (h.recent k known).mpr ⟨hknown, hin⟩
    simp only [hget] at hfresh
    split at hfresh <;> cases hfresh
  · have hget : m.recent.get? k = none := by
      cases hk : m.recent.get? k with
      | none => rfl
      | some other => exact absurd ((h.recent k other).mp hk).2 hin
    simp only [hget, if_pos (Nat.le_of_not_lt hin)] at hfresh
    cases hfresh

theorem Remembers.record (h : Remembers window m accepted)
    (hfresh : m.judge window n d = .fresh) :
    Remembers window (m.record window n d) ((n, d) :: accepted) where
  distinct := by
    rw [List.map_cons, List.nodup_cons]
    exact ⟨h.notMem_of_fresh hfresh, h.distinct⟩
  below := by
    intro k hk
    show k ≤ max m.highWater n
    rw [List.map_cons, List.mem_cons] at hk
    cases hk with
    | inl heq =>
      have : k = n := heq
      omega
    | inr hmem =>
      have := h.below k hmem
      omega
  reached := by
    right
    show max m.highWater n ∈ n :: accepted.map Prod.fst
    by_cases hle : m.highWater ≤ n
    · rw [Nat.max_eq_right hle]
      exact List.mem_cons_self
    · rw [Nat.max_eq_left (by omega)]
      cases h.reached with
      | inl hnone => omega
      | inr hmem => exact List.mem_cons_of_mem n hmem
  recent := by
    intro k e
    have hnew := h.notMem_of_fresh hfresh
    show ((m.recent.set n d).filter fun k _ => max m.highWater n < k + window).get? k = some e ↔
      (k, e) ∈ (n, d) :: accepted ∧ max m.highWater n < k + window
    rw [Dict.get?_filter, Option.filter_eq_some_iff, Dict.get?_set, List.mem_cons]
    by_cases hk : k = n
    · subst k
      have hnot : (n, e) ∉ accepted := fun hmem => hnew (List.mem_map.mpr ⟨_, hmem, rfl⟩)
      have hcomm : d = e ↔ e = d := eq_comm
      simp [hnot, hcomm]
    · -- an older number stays remembered exactly while it is in the window
      rw [if_neg hk, h.recent]
      simp only [decide_eq_true_eq, Prod.mk.injEq, hk, false_and, false_or]
      constructor
      · intro hmem
        exact ⟨hmem.1.1, hmem.2⟩
      · intro hmem
        exact ⟨⟨hmem.1, by omega⟩, hmem.2⟩

/-- An accepted observation that arrives again is a duplicate, or too old to tell. -/
theorem Remembers.again (h : Remembers window m accepted) (hmem : (n, d) ∈ accepted) :
    m.judge window n d = .duplicate ∨ m.judge window n d = .stale := by
  have hle : n ≤ m.highWater := h.below n (List.mem_map.mpr ⟨_, hmem, rfl⟩)
  unfold judge
  rw [if_pos hle]
  cases hget : m.recent.get? n with
  | none =>
    right
    have hout : ¬ m.highWater < n + window := by
      intro hin
      rw [(h.recent n d).mpr ⟨hmem, hin⟩] at hget
      cases hget
    exact if_pos (by omega)
  | some known =>
    left
    exact if_pos (h.unique ((h.recent n known).mp hget).1 hmem)

/-- Another observation under an accepted number conflicts, or is too old to tell. -/
theorem Remembers.other (h : Remembers window m accepted) (hmem : (n, d) ∈ accepted)
    (hne : d' ≠ d) : m.judge window n d' = .conflict ∨ m.judge window n d' = .stale := by
  have hle : n ≤ m.highWater := h.below n (List.mem_map.mpr ⟨_, hmem, rfl⟩)
  unfold judge
  rw [if_pos hle]
  cases hget : m.recent.get? n with
  | none =>
    right
    have hout : ¬ m.highWater < n + window := by
      intro hin
      rw [(h.recent n d).mpr ⟨hmem, hin⟩] at hget
      cases hget
    exact if_pos (by omega)
  | some known =>
    left
    have hsame := h.unique ((h.recent n known).mp hget).1 hmem
    exact if_neg fun heq => hne (heq.symm.trans hsame)

end Marks

section Sources

open Marks

variable {ι δ : Type*} [DecidableEq ι] {window : ℕ}

def marksOf (sources : Dict ι (Marks δ)) (i : ι) : Marks δ := (sources.get? i).getD .new

/-- The observations accepted from one source. -/
def acceptedFrom (i : ι) (accepted : List (ι × ℕ × δ)) : List (ℕ × δ) :=
  (accepted.filter fun e => e.1 = i).map Prod.snd

theorem mem_acceptedFrom {i : ι} {accepted : List (ι × ℕ × δ)} {n : ℕ} {d : δ} :
    (n, d) ∈ acceptedFrom i accepted ↔ (i, n, d) ∈ accepted := by
  simp [acceptedFrom]

/-- The marks of every source are what is to be remembered of it. -/
def Recalls (window : ℕ) (sources : Dict ι (Marks δ)) (accepted : List (ι × ℕ × δ)) : Prop :=
  ∀ i, Remembers window (marksOf sources i) (acceptedFrom i accepted)

variable {sources : Dict ι (Marks δ)} {accepted : List (ι × ℕ × δ)}

theorem recalls_empty : Recalls window (∅ : Dict ι (Marks δ)) [] := fun _ => remembers_new

theorem Recalls.record [DecidableEq δ] (h : Recalls window sources accepted) {i : ι} {n : ℕ} {d : δ}
    (hfresh : (marksOf sources i).judge window n d = .fresh) :
    Recalls window (sources.set i ((marksOf sources i).record window n d))
      ((i, n, d) :: accepted) := by
  intro j
  unfold marksOf
  rw [Dict.get?_set]
  by_cases hj : j = i
  · subst j
    have haccepted : acceptedFrom i ((i, n, d) :: accepted) =
        (n, d) :: acceptedFrom i accepted := by simp [acceptedFrom]
    rw [if_pos rfl, haccepted]
    exact (h i).record hfresh
  · have haccepted : acceptedFrom j ((i, n, d) :: accepted) = acceptedFrom j accepted := by
      simp [acceptedFrom, Ne.symm hj]
    rw [if_neg hj, haccepted]
    exact h j

/-- No number of a source was accepted twice. -/
theorem Recalls.once (h : Recalls window sources accepted) :
    (accepted.map fun e => (e.1, e.2.1)).Nodup := by
  have hfrom : ∀ l : List (ι × ℕ × δ), (∀ i, ((acceptedFrom i l).map Prod.fst).Nodup) →
      (l.map fun e => (e.1, e.2.1)).Nodup := by
    intro l hl
    induction l with
    | nil => exact List.nodup_nil
    | cons e rest ih =>
      obtain ⟨i, n, d⟩ := e
      have hi := hl i
      simp only [acceptedFrom, List.filter_cons, decide_true, if_true, List.map_cons,
        List.nodup_cons] at hi
      rw [List.map_cons, List.nodup_cons]
      refine ⟨?_, ih fun j => ?_⟩
      · intro hmem
        obtain ⟨⟨j, k, e⟩, he, heq⟩ := List.mem_map.mp hmem
        obtain ⟨rfl, rfl⟩ : j = i ∧ k = n := by simpa using heq
        apply hi.1
        exact List.mem_map.mpr ⟨(k, e), mem_acceptedFrom.mpr he, rfl⟩
      · have hj := hl j
        by_cases hij : i = j
        · subst j
          exact hi.2
        · simpa [acceptedFrom, hij] using hj
  exact hfrom accepted fun i => (h i).distinct

end Sources

end DirectTrade.Library
