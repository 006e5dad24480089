import Mathlib.Algebra.GroupWithZero.Nat
import Mathlib.Data.List.Chain
import Mathlib.Data.List.Perm.Subperm
import Mathlib.Data.List.Range
import Mathlib.Algebra.BigOperators.Group.List.Basic
import Mathlib.Logic.Relation

/-!
Forests given by a parent for every node but the roots. Where a rank rises from a node to
its parent there is no cycle, a path is no longer than the ranks allow, and the nodes below
two children of one node are apart. Items that hang at the leaves load every node above
them, and the children of a node together carry no more than the node.
-/

namespace DirectTrade.Library.Forest

variable {ι : Type*} {parent : ι → Option ι} {rank : ι → ℕ} {a b c p : ι}

/-- A node at another or anywhere under it. -/
def Below (parent : ι → Option ι) : ι → ι → Prop :=
  Relation.ReflTransGen fun a b => parent a = some b

/-- The rank rises along every edge. -/
def Ranked (parent : ι → Option ι) (rank : ι → ℕ) : Prop :=
  ∀ a b, parent a = some b → rank a < rank b

theorem below_refl (a : ι) : Below parent a a := .refl

theorem below_parent (h : parent a = some b) : Below parent a b := .single h

theorem Below.trans (h : Below parent a b) (h' : Below parent b c) : Below parent a c :=
  Relation.ReflTransGen.trans h h'

theorem below_iff : Below parent a b ↔ a = b ∨ ∃ p, parent a = some p ∧ Below parent p b := by
  constructor
  · intro h
    rcases Relation.ReflTransGen.cases_head h with heq | ⟨p, hp, hrest⟩
    · exact .inl heq
    · exact .inr ⟨p, hp, hrest⟩
  · rintro (rfl | ⟨p, hp, hrest⟩)
    · exact .refl
    · exact (below_parent hp).trans hrest

/-- The nodes above a node form a line. -/
theorem Below.total (h : Below parent a b) (h' : Below parent a c) :
    Below parent b c ∨ Below parent c b :=
  Relation.ReflTransGen.total_of_right_unique
    (fun _ _ _ hab hac => Option.some.inj (hab.symm.trans hac)) h h'

theorem Below.rank_le (hrank : Ranked parent rank) (h : Below parent a b) : rank a ≤ rank b := by
  induction h with
  | refl => exact Nat.le_refl _
  | tail _ hstep ih =>
    have hlt := hrank _ _ hstep
    omega

/-- No node is strictly below itself. -/
theorem acyclic (hrank : Ranked parent rank) (a : ι) :
    ¬Relation.TransGen (fun a b => parent a = some b) a a := by
  intro h
  obtain ⟨b, hab, hba⟩ := Relation.TransGen.head'_iff.mp h
  have hlt := hrank _ _ hab
  have hle := Below.rank_le hrank hba
  omega

theorem length_le_of_rank (hrank : Ranked parent rank) {n : ℕ} {path : List ι}
    (hpath : path.IsChain fun a b => parent a = some b) (hbound : ∀ a ∈ path, rank a ≤ n) :
    path.length ≤ n + 1 := by
  have hrising : (path.map rank).IsChain (· < ·) := by
    rw [List.isChain_map]
    exact hpath.imp fun a b => hrank a b
  have hnodup : (path.map rank).Nodup :=
    (List.isChain_iff_pairwise.mp hrising).imp fun hlt => Nat.ne_of_lt hlt
  have hsub : path.map rank ⊆ List.range (n + 1) := by
    intro r hr
    obtain ⟨a, ha, rfl⟩ := List.mem_map.mp hr
    exact List.mem_range.mpr (Nat.lt_succ_of_le (hbound a ha))
  have hlength := (hnodup.subperm hsub).length_le
  simpa using hlength

/-- Nothing is below two children of one node. -/
theorem siblings_eq (hrank : Ranked parent rank) {d : ι} (hc : parent c = some p)
    (hd : parent d = some p) (hac : Below parent a c) (had : Below parent a d) : c = d := by
  -- of two nodes above `a`, the lower one has the other above its parent, which is `p`
  have hapart : ∀ {x y : ι}, parent x = some p → parent y = some p → Below parent x y →
      x = y := by
    intro x y hx hy hxy
    rcases below_iff.mp hxy with heq | ⟨q, hq, hqy⟩
    · exact heq
    · obtain rfl := Option.some.inj (hx.symm.trans hq)
      have hle := hqy.rank_le hrank
      have hlt := hrank _ _ hy
      omega
  rcases hac.total had with h | h
  · exact hapart hc hd h
  · exact (hapart hd hc h).symm

/-- Only the parents of a closed set matter below its nodes. -/
theorem below_congr {parent' : ι → Option ι} {S : Set ι}
    (hclosed : ∀ a ∈ S, ∀ b, parent a = some b → b ∈ S)
    (hagree : ∀ a ∈ S, parent' a = parent a) (ha : a ∈ S) :
    Below parent' a b ↔ Below parent a b := by
  constructor
  · intro h
    induction h using Relation.ReflTransGen.head_induction_on with
    | refl => exact .refl
    | head hstep _ ih =>
      rw [hagree _ ha] at hstep
      exact (below_parent hstep).trans (ih (hclosed _ ha _ hstep))
  · intro h
    induction h using Relation.ReflTransGen.head_induction_on with
    | refl => exact .refl
    | head hstep _ ih =>
      have hstep' := (hagree _ ha).trans hstep
      exact (below_parent hstep').trans (ih (hclosed _ ha _ hstep))

theorem Below.mem {S : Set ι} (hclosed : ∀ a ∈ S, ∀ b, parent a = some b → b ∈ S) (ha : a ∈ S)
    (h : Below parent a b) : b ∈ S := by
  induction h with
  | refl => exact ha
  | tail _ hstep ih => exact hclosed _ ih _ hstep

variable {α : Type*} {leaf : α → ι} {weight : α → ℕ}

open Classical in
/-- What the items at or under a node weigh together. -/
noncomputable def load (parent : ι → Option ι) (leaf : α → ι) (weight : α → ℕ) (items : List α)
    (b : ι) : ℕ :=
  ((items.filter fun x => Below parent (leaf x) b).map weight).sum

open Classical in
theorem load_append_singleton (items : List α) (x : α) (b : ι) :
    load parent leaf weight (items ++ [x]) b =
      load parent leaf weight items b + if Below parent (leaf x) b then weight x else 0 := by
  unfold load
  rw [List.filter_append, List.map_append, List.sum_append]
  by_cases h : Below parent (leaf x) b
  · simp [h]
  · simp [h]

theorem load_nil (b : ι) : load parent leaf weight [] b = 0 := by simp [load]

theorem load_congr {parent' : ι → Option ι} {items : List α}
    (h : ∀ x ∈ items, Below parent' (leaf x) b ↔ Below parent (leaf x) b) :
    load parent' leaf weight items b = load parent leaf weight items b := by
  unfold load
  congr 2
  apply List.filter_congr
  intro x hx
  rw [decide_eq_decide]
  exact h x hx

theorem load_eq_zero {items : List α} (h : ∀ x ∈ items, ¬Below parent (leaf x) b) :
    load parent leaf weight items b = 0 := by
  have hnone : (items.filter fun x => open Classical in decide (Below parent (leaf x) b)) = [] := by
    rw [List.filter_eq_nil_iff]
    intro x hx
    simpa using h x hx
  unfold load
  rw [hnone]
  rfl

open Classical in
/-- One item loads at most one child of a node. -/
theorem sum_children_single_le (hrank : Ranked parent rank) {children : List ι}
    (hnodup : children.Nodup) (hchildren : ∀ c ∈ children, parent c = some p) (a : ι) (w : ℕ) :
    (children.map fun c => if Below parent a c then w else 0).sum ≤
      if Below parent a p then w else 0 := by
  induction children with
  | nil => exact Nat.zero_le _
  | cons c rest ih =>
    have hrest := ih hnodup.of_cons fun d hd => hchildren d (List.mem_cons_of_mem _ hd)
    have hc := hchildren c (List.mem_cons_self ..)
    rw [List.map_cons, List.sum_cons]
    by_cases hac : Below parent a c
    · have hothers : (rest.map fun d => if Below parent a d then w else 0).sum = 0 := by
        apply List.sum_eq_zero
        intro n hn
        obtain ⟨d, hd, rfl⟩ := List.mem_map.mp hn
        refine if_neg fun had => ?_
        have heq := siblings_eq hrank hc (hchildren d (List.mem_cons_of_mem _ hd)) hac had
        exact (List.nodup_cons.mp hnodup).1 (heq ▸ hd)
      rw [if_pos hac, hothers, if_pos (hac.trans (below_parent hc))]
      exact Nat.le_refl _
    · rw [if_neg hac]
      omega

/-- The children of a node carry no more than the node. -/
theorem sum_children_le (hrank : Ranked parent rank) {children : List ι}
    (hnodup : children.Nodup) (hchildren : ∀ c ∈ children, parent c = some p)
    (items : List α) :
    (children.map (load parent leaf weight items)).sum ≤ load parent leaf weight items p := by
  classical
  induction items using List.reverseRecOn with
  | nil =>
    have hzero : (children.map (load parent leaf weight [])).sum = 0 := by
      apply List.sum_eq_zero
      intro n hn
      obtain ⟨c, -, rfl⟩ := List.mem_map.mp hn
      exact load_nil c
    omega
  | append_singleton items x ih =>
    have hone := sum_children_single_le hrank hnodup hchildren (leaf x) (weight x)
    have hsplit : (children.map (load parent leaf weight (items ++ [x]))).sum =
        (children.map (load parent leaf weight items)).sum +
          (children.map fun c => if Below parent (leaf x) c then weight x else 0).sum := by
      rw [← List.sum_map_add]
      congr 2
      funext c
      exact load_append_singleton items x c
    rw [hsplit, load_append_singleton]
    omega

end DirectTrade.Library.Forest
