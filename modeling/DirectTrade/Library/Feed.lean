import Mathlib.Data.List.Basic
import Mathlib.Data.List.Nodup

/-!
Positions in a growing log. Each entry has a key, and a base key stands before the first one:
a key then marks how much of the log lies before it, and keeps its place while the log grows.
A delivered entry names the key before it.
-/

namespace DirectTrade.Library.Feed

variable {E K D : Type*} (key : E → K) (f : E → K → D) {base k : K} {log longer : List E} {e : E}
  {n m : ℕ}

/-- The marks of a log, in order. -/
def marks (base : K) (log : List E) : List K := base :: log.map key

/-- The entries before a key. -/
def At (base : K) (log : List E) (k : K) (n : ℕ) : Prop := (marks key base log)[n]? = some k

/-- Every entry with the key before it. -/
def link (base : K) : List E → List D
  | [] => []
  | e :: rest => f e base :: link (key e) rest

variable {key f}

theorem at_zero (base : K) (log : List E) : At key base log base 0 := rfl

theorem At.le (h : At key base log k n) : n ≤ log.length := by
  have hlt := (List.getElem?_eq_some_iff.mp h).1
  rw [marks, List.length_cons, List.length_map] at hlt
  omega

theorem at_succ (h : log[n]? = some e) : At key base log (key e) (n + 1) := by
  rw [At, marks, List.getElem?_cons_succ, List.getElem?_map, h]
  rfl

theorem exists_at (hn : n ≤ log.length) : ∃ k, At key base log k n := by
  have hlt : n < (marks key base log).length := by
    rw [marks, List.length_cons, List.length_map]
    omega
  exact ⟨_, List.getElem?_eq_getElem hlt⟩

/-- Distinct marks have one place each. -/
theorem At.inj (hmarks : (marks key base log).Nodup) (hn : At key base log k n)
    (hm : At key base log k m) : n = m := by
  unfold At at hn hm
  exact (List.getElem?_inj (List.getElem?_eq_some_iff.mp hn).1 hmarks).mp (hn.trans hm.symm)

theorem marks_append (base : K) (log rest : List E) :
    marks key base (log ++ rest) = marks key base log ++ rest.map key := by
  rw [marks, marks, List.map_append, List.cons_append]

/-- A key that marks nothing yet can mark the next entry. -/
theorem nodup_marks_append (hmarks : (marks key base log).Nodup)
    (hfresh : key e ∉ marks key base log) : (marks key base (log ++ [e])).Nodup := by
  rw [marks_append, List.map_singleton]
  apply List.nodup_append.mpr
  refine ⟨hmarks, List.nodup_singleton _, ?_⟩
  intro k hk k' hk' heq
  rw [List.mem_singleton.mp hk'] at heq
  exact hfresh (heq ▸ hk)

theorem At.mono (h : At key base log k n) (hgrown : log <+: longer) : At key base longer k n := by
  obtain ⟨rest, rfl⟩ := hgrown
  have hlt := (List.getElem?_eq_some_iff.mp h).1
  rw [At, marks_append, List.getElem?_append_left hlt]
  exact h

/-- A new entry is marked after the others. -/
theorem at_append (log : List E) (e : E) : At key base (log ++ [e]) (key e) (log.length + 1) :=
  at_succ (by rw [List.getElem?_append_right (Nat.le_refl _), Nat.sub_self]; rfl)

@[simp] theorem length_link (base : K) (log : List E) :
    (link key f base log).length = log.length := by
  induction log generalizing base with
  | nil => rfl
  | cons e rest ih => rw [link, List.length_cons, List.length_cons, ih]

/-- What is delivered at a place is the entry there, after the mark of the place. -/
theorem getElem?_link {d : D} (h : (link key f base log)[n]? = some d) :
    ∃ e k, log[n]? = some e ∧ At key base log k n ∧ d = f e k := by
  induction log generalizing base n with
  | nil => exact nomatch h
  | cons e rest ih =>
    cases n with
    | zero => exact ⟨e, base, rfl, at_zero .., (Option.some.inj h).symm⟩
    | succ n =>
      obtain ⟨e', k, he, hk, hd⟩ := ih h
      exact ⟨e', k, he, hk, hd⟩

theorem link_append (hk : At key base log k log.length) (rest : List E) :
    link key f base (log ++ rest) = link key f base log ++ link key f k rest := by
  induction log generalizing base with
  | nil =>
    obtain rfl := Option.some.inj hk
    rfl
  | cons e tail ih => rw [List.cons_append, link, link, List.cons_append, ih hk]

theorem link_prefix (h : log <+: longer) : link key f base log <+: link key f base longer := by
  obtain ⟨rest, rfl⟩ := h
  obtain ⟨k, hk⟩ : ∃ k, At key base log k log.length := exists_at (Nat.le_refl _)
  exact ⟨link key f k rest, (link_append hk rest).symm⟩

/-- The last entry of a stretch that starts at a mark leads to the mark after the stretch. -/
theorem At.last {keyD : D → K} {ds : List D} (hkey : ∀ e k, keyD (f e k) = key e)
    (hk : At key base log k n) (hds : ds <+: (link key f base log).drop n) :
    At key base log ((ds.getLast?.map keyD).getD k) (n + ds.length) := by
  obtain rfl | ⟨init, d, rfl⟩ := List.eq_nil_or_concat' ds
  · exact hk
  · obtain ⟨rest, hrest⟩ := hds
    have hd : (link key f base log)[n + init.length]? = some d := by
      rw [← List.getElem?_drop, ← hrest, List.append_assoc,
        List.getElem?_append_right (Nat.le_refl _), Nat.sub_self]
      rfl
    obtain ⟨e, k', he, -, rfl⟩ := getElem?_link hd
    rw [List.getLast?_concat, Option.map_some, Option.getD_some, hkey, List.length_append,
      List.length_singleton, ← Nat.add_assoc]
    exact at_succ he

end DirectTrade.Library.Feed
