import Mathlib.Algebra.GroupWithZero.Nat
import Mathlib.Data.List.Nodup
import Mathlib.Data.List.Sort
import Mathlib.Logic.Relation

/-!
Depth-first search over an explicit stack. A node is entered when it comes to the top of the
stack, stays marked as being visited while its successors are above it, and counts as visited
once it is left. Every move keeps the search sound: a search that ends has found neither a cycle
nor a missing node among what the roots reach, and one that is stuck has found one.
-/

namespace DirectTrade.Library.DepthFirst

variable {α : Type}

inductive Move (α : Type) where
  | enter (a : α)
  | exit (a : α)

def Move.node : Move α → α
  | .enter a => a
  | .exit a => a

structure Coloring (α : Type) where
  visiting : List α
  visited : List α

/-- A node whose successors include another. -/
def Edge (succ : α → Option (List α)) (a b : α) : Prop := ∃ l, succ a = some l ∧ b ∈ l

def Reaches (succ : α → Option (List α)) (roots : List α) (a : α) : Prop :=
  ∃ r ∈ roots, Relation.ReflTransGen (Edge succ) r a

/-- A node on a cycle can be reached. -/
def Cyclic (succ : α → Option (List α)) (roots : List α) : Prop :=
  ∃ a, Reaches succ roots a ∧ Relation.TransGen (Edge succ) a a

/-- A node without an entry can be reached. -/
def Missing (succ : α → Option (List α)) (roots : List α) : Prop :=
  ∃ a, Reaches succ roots a ∧ succ a = none

theorem Reaches.mono {succ : α → Option (List α)} {roots roots' : List α} (h : roots ⊆ roots')
    {a : α} (ha : Reaches succ roots a) : Reaches succ roots' a := by
  obtain ⟨r, hr, hpath⟩ := ha
  exact ⟨r, h hr, hpath⟩

theorem Cyclic.mono {succ : α → Option (List α)} {roots roots' : List α} (h : roots ⊆ roots')
    (hc : Cyclic succ roots) : Cyclic succ roots' := by
  obtain ⟨a, ha, hcycle⟩ := hc
  exact ⟨a, ha.mono h, hcycle⟩

theorem Missing.mono {succ : α → Option (List α)} {roots roots' : List α} (h : roots ⊆ roots')
    (hm : Missing succ roots) : Missing succ roots' := by
  obtain ⟨a, ha, hnone⟩ := hm
  exact ⟨a, ha.mono h, hnone⟩

/-- The nodes that the stack will leave, the innermost first. -/
def exits : List (Move α) → List α
  | [] => []
  | .enter _ :: rest => exits rest
  | .exit a :: rest => a :: exits rest

theorem exits_append (l l' : List (Move α)) : exits (l ++ l') = exits l ++ exits l' := by
  induction l with
  | nil => rfl
  | cons t rest ih => cases t <;> simp [exits, ih]

theorem exits_enters (l : List α) : exits (l.map Move.enter) = [] := by
  induction l with
  | nil => rfl
  | cons a rest ih => simpa [exits] using ih

variable (succ : α → Option (List α)) (roots : List α)

/-- A node comes from the innermost node that is being visited, or is a root. -/
def ComesFrom : Option α → α → Prop
  | none, b => b ∈ roots
  | some a, b => Edge succ a b

/-- Every node on the stack comes from the next node below it that the stack will leave. -/
def Framed : List (Move α) → Prop
  | [] => True
  | t :: rest => ComesFrom succ roots (exits rest).head? t.node ∧ Framed rest

/-- The successors of a node that the stack will leave are visited, or above it. -/
def Awaited (visited : List α) : List α → List (Move α) → Prop
  | _, [] => True
  | above, .enter a :: rest => Awaited visited (above ++ [a]) rest
  | above, .exit a :: rest =>
    (∀ b, Edge succ a b → b ∈ visited ∨ b ∈ above) ∧ Awaited visited (above ++ [a]) rest

/-- Every visited node has an entry and comes after its successors. -/
def Ordered (visited : List α) : Prop :=
  ∀ before a after, visited = before ++ a :: after →
    (succ a).isSome = true ∧ ∀ b, Edge succ a b → b ∈ before

/-- A search that has found neither a cycle nor a missing node. -/
structure Sound (m : Coloring α) (stack : List (Move α)) : Prop where
  framed : Framed succ roots stack
  visiting : m.visiting = (exits stack).reverse
  single : (exits stack).Nodup
  apart : ∀ a ∈ exits stack, a ∉ m.visited
  known : ∀ a ∈ exits stack, (succ a).isSome = true
  awaited : Awaited succ m.visited [] stack
  ordered : Ordered succ m.visited
  distinct : m.visited.Nodup
  pending : ∀ r ∈ roots, r ∈ m.visited ∨ r ∈ stack.map Move.node

variable {succ} {roots}

theorem reaches_of_framed {stack : List (Move α)} (h : Framed succ roots stack) :
    ∀ a ∈ exits stack, Reaches succ roots a := by
  induction stack with
  | nil => exact fun _ ha => nomatch ha
  | cons t rest ih =>
    have hrest := ih h.2
    cases t with
    | enter b => exact hrest
    | exit b =>
      intro a ha
      rcases List.mem_cons.mp ha with heq | ha
      · subst heq
        have hfrom := h.1
        cases hexits : exits rest with
        | nil =>
          rw [hexits] at hfrom
          exact ⟨a, hfrom, .refl⟩
        | cons c others =>
          rw [hexits] at hfrom
          obtain ⟨r, hr, hpath⟩ := hrest c (by simp [hexits])
          exact ⟨r, hr, hpath.tail hfrom⟩
      · exact hrest a ha

/-- The node on top of the stack can be reached. -/
theorem reaches_top {t : Move α} {rest : List (Move α)} (h : Framed succ roots (t :: rest)) :
    Reaches succ roots t.node := by
  have hfrom := h.1
  cases hexits : exits rest with
  | nil =>
    rw [hexits] at hfrom
    exact ⟨_, hfrom, .refl⟩
  | cons c others =>
    rw [hexits] at hfrom
    obtain ⟨r, hr, hpath⟩ := reaches_of_framed h.2 c (by simp [hexits])
    exact ⟨r, hr, hpath.tail hfrom⟩

/-- Each node that is being visited leads to the innermost one. -/
theorem leads_to_innermost {stack : List (Move α)} (h : Framed succ roots stack) {c : α}
    {others : List α} (hexits : exits stack = c :: others) :
    ∀ a ∈ exits stack, Relation.ReflTransGen (Edge succ) a c := by
  induction stack generalizing c others with
  | nil => exact nomatch hexits
  | cons t rest ih =>
    cases t with
    | enter b => exact ih h.2 hexits
    | exit b =>
      obtain ⟨hb, hothers⟩ := List.cons.inj hexits
      subst hb
      intro a ha
      rcases List.mem_cons.mp ha with heq | ha
      · subst heq
        exact .refl
      · have hfrom := h.1
        cases hrest : exits rest with
        | nil =>
          rw [hrest] at ha
          exact nomatch ha
        | cons d more =>
          rw [hrest] at hfrom
          exact (ih h.2 hrest a ha).tail hfrom

/-- Entering a node that is being visited closes a cycle. -/
theorem Sound.cycle {m : Coloring α} {a : α} {rest : List (Move α)}
    (h : Sound succ roots m (.enter a :: rest)) (ha : a ∈ m.visiting) : Cyclic succ roots := by
  have hexits : a ∈ exits rest := by
    rw [h.visiting, List.mem_reverse] at ha
    exact ha
  refine ⟨a, reaches_of_framed h.framed.2 a hexits, ?_⟩
  have hfrom := h.framed.1
  cases hrest : exits rest with
  | nil =>
    rw [hrest] at hexits
    exact nomatch hexits
  | cons c others =>
    rw [hrest] at hfrom
    exact Relation.TransGen.tail' (leads_to_innermost h.framed.2 hrest a hexits) hfrom

theorem Sound.missing {m : Coloring α} {a : α} {rest : List (Move α)}
    (h : Sound succ roots m (.enter a :: rest)) (ha : succ a = none) : Missing succ roots :=
  ⟨a, reaches_top h.framed, ha⟩

/-- A node that a visited node leads to was visited before it. -/
theorem Ordered.leads {visited : List α} (h : Ordered succ visited) {a b : α}
    (hpath : Relation.TransGen (Edge succ) a b) :
    ∀ before after, visited = before ++ a :: after → b ∈ before := by
  induction hpath with
  | single hedge => exact fun before after hsplit => (h before a after hsplit).2 _ hedge
  | tail _ hedge ih =>
    intro before after hsplit
    obtain ⟨early, late, hbefore⟩ := List.append_of_mem (ih before after hsplit)
    have hearly := (h early _ (late ++ a :: after) (by rw [hsplit, hbefore]; simp)).2 _ hedge
    rw [hbefore]
    exact List.mem_append_left _ hearly

/-- A search that has emptied its stack has visited everything that the roots reach. -/
theorem Sound.visits {m : Coloring α} (h : Sound succ roots m []) {a : α}
    (ha : Reaches succ roots a) : a ∈ m.visited := by
  obtain ⟨r, hr, hpath⟩ := ha
  have hroot : r ∈ m.visited := by simpa using h.pending r hr
  induction hpath with
  | refl => exact hroot
  | tail _ hedge ih =>
    obtain ⟨before, after, hsplit⟩ := List.append_of_mem ih
    rw [hsplit]
    exact List.mem_append_left _ ((h.ordered before _ after hsplit).2 _ hedge)

/-- A search that has emptied its stack has found neither a cycle nor a missing node. -/
theorem Sound.finished {m : Coloring α} (h : Sound succ roots m []) :
    ¬ Cyclic succ roots ∧ ¬ Missing succ roots := by
  constructor
  · intro ⟨a, ha, hcycle⟩
    obtain ⟨before, after, hsplit⟩ := List.append_of_mem (h.visits ha)
    have hbefore := h.ordered.leads hcycle before after hsplit
    have hsingle := h.distinct
    rw [hsplit] at hsingle
    have hapart := (List.nodup_append.mp hsingle).2.2 a hbefore a List.mem_cons_self
    exact hapart rfl
  · intro ⟨a, ha, hnone⟩
    obtain ⟨before, after, hsplit⟩ := List.append_of_mem (h.visits ha)
    have hknown := (h.ordered before a after hsplit).1
    rw [hnone] at hknown
    exact nomatch hknown

theorem Awaited.mono {visited visited' above above' : List α} {stack : List (Move α)}
    (h : Awaited succ visited above stack)
    (hmore : ∀ b, b ∈ visited ∨ b ∈ above → b ∈ visited' ∨ b ∈ above') :
    Awaited succ visited' above' stack := by
  have hnext : ∀ a b, b ∈ visited ∨ b ∈ above ++ [a] → b ∈ visited' ∨ b ∈ above' ++ [a] := by
    intro a b hb
    have hb' := hmore b
    simp only [List.mem_append, List.mem_singleton] at hb ⊢
    tauto
  induction stack generalizing above above' with
  | nil => trivial
  | cons t rest ih =>
    have hlater : ∀ a c b, b ∈ visited ∨ b ∈ above ++ [a] ++ [c] →
        b ∈ visited' ∨ b ∈ above' ++ [a] ++ [c] := by
      intro a c b hb
      have hb' := hnext a b
      simp only [List.mem_append, List.mem_singleton] at hb hb' ⊢
      tauto
    cases t with
    | enter a => exact ih h (hnext a) (hlater a)
    | exit a => exact ⟨fun b hb => hmore b (h.1 b hb), ih h.2 (hnext a) (hlater a)⟩

theorem awaited_enters {visited above l : List α} {rest : List (Move α)} :
    Awaited succ visited above (l.map Move.enter ++ rest) ↔
      Awaited succ visited (above ++ l) rest := by
  induction l generalizing above with
  | nil => simp
  | cons a l ih =>
    show Awaited succ visited (above ++ [a]) (l.map Move.enter ++ rest) ↔ _
    rw [ih, List.append_assoc, List.singleton_append]

theorem framed_enters {a : α} {l : List α} {rest : List (Move α)} (hl : ∀ b ∈ l, Edge succ a b)
    (h : Framed succ roots (.exit a :: rest)) :
    Framed succ roots (l.map Move.enter ++ .exit a :: rest) := by
  induction l with
  | nil => exact h
  | cons b l ih =>
    refine ⟨?_, ih fun c hc => hl c (List.mem_cons_of_mem _ hc)⟩
    have hexits : exits (l.map Move.enter ++ .exit a :: rest) = a :: exits rest := by
      rw [exits_append, exits_enters]
      rfl
    show ComesFrom succ roots (exits (l.map Move.enter ++ .exit a :: rest)).head? b
    rw [hexits]
    exact hl b List.mem_cons_self

theorem Ordered.snoc {visited : List α} (h : Ordered succ visited) {a : α}
    (hknown : (succ a).isSome = true) (hedges : ∀ b, Edge succ a b → b ∈ visited) :
    Ordered succ (visited ++ [a]) := by
  intro before c after hsplit
  rcases List.eq_nil_or_concat after with hnil | ⟨front, d, hafter⟩
  · subst hnil
    obtain ⟨hbefore, hc⟩ := List.append_inj' hsplit rfl
    obtain rfl : a = c := by simpa using hc
    rw [← hbefore]
    exact ⟨hknown, hedges⟩
  · subst hafter
    have hsplit' : visited ++ [a] = (before ++ c :: front) ++ [d] := by simpa using hsplit
    exact h before c front (List.append_inj' hsplit' rfl).1

/-- A search from one more root, once the earlier ones are done. -/
theorem Sound.start {m : Coloring α} (h : Sound succ roots m []) (r : α) :
    Sound succ (roots ++ [r]) m [.enter r] where
  framed := ⟨List.mem_append_right _ List.mem_cons_self, trivial⟩
  visiting := h.visiting
  single := h.single
  apart := h.apart
  known := h.known
  awaited := trivial
  ordered := h.ordered
  distinct := h.distinct
  pending := by
    intro a ha
    rcases List.mem_append.mp ha with ha | ha
    · have hvisited : a ∈ m.visited := by simpa using h.pending a ha
      exact .inl hvisited
    · exact .inr ha

theorem Sound.skip {m : Coloring α} {a : α} {rest : List (Move α)}
    (h : Sound succ roots m (.enter a :: rest)) (ha : a ∈ m.visited) : Sound succ roots m rest where
  framed := h.framed.2
  visiting := h.visiting
  single := h.single
  apart := h.apart
  known := h.known
  awaited := Awaited.mono h.awaited fun b hb => by
    rcases hb with hb | hb
    · exact .inl hb
    · have hb' : b = a := by simpa using hb
      exact .inl (hb' ▸ ha)
  ordered := h.ordered
  distinct := h.distinct
  pending := by
    intro r hr
    rcases h.pending r hr with hvisited | hstack
    · exact .inl hvisited
    · rcases List.mem_cons.mp hstack with heq | hrest
      · exact .inl (heq ▸ ha)
      · exact .inr hrest

def Coloring.enter (m : Coloring α) (a : α) : Coloring α := ⟨m.visiting ++ [a], m.visited⟩

/-- Entering a new node pushes its exit and then its successors. -/
theorem Sound.enter {m : Coloring α} {a : α} {l : List α} {rest : List (Move α)}
    (h : Sound succ roots m (.enter a :: rest)) (hvisiting : a ∉ m.visiting)
    (hvisited : a ∉ m.visited) (hsucc : succ a = some l) :
    Sound succ roots (m.enter a) (l.reverse.map Move.enter ++ .exit a :: rest) := by
  have hexits : exits (l.reverse.map Move.enter ++ .exit a :: rest) = a :: exits rest := by
    rw [exits_append, exits_enters]
    rfl
  have hnew : a ∉ exits rest := by
    intro ha
    have hmem : a ∈ m.visiting := by
      rw [h.visiting, List.mem_reverse]
      exact ha
    exact hvisiting hmem
  refine ⟨framed_enters (fun b hb => ⟨l, hsucc, List.mem_reverse.mp hb⟩) h.framed, ?_, ?_, ?_,
    ?_, ?_, h.ordered, h.distinct, ?_⟩
  · rw [hexits, List.reverse_cons]
    show m.visiting ++ [a] = (exits rest).reverse ++ [a]
    rw [h.visiting]
    rfl
  · rw [hexits]
    exact List.nodup_cons.mpr ⟨hnew, h.single⟩
  · rw [hexits]
    intro b hb
    rcases List.mem_cons.mp hb with heq | hb
    · exact heq ▸ hvisited
    · exact h.apart b hb
  · rw [hexits]
    intro b hb
    rcases List.mem_cons.mp hb with heq | hb
    · rw [heq, hsucc]
      rfl
    · exact h.known b hb
  · rw [awaited_enters]
    refine ⟨?_, Awaited.mono h.awaited ?_⟩
    · intro b hb
      obtain ⟨l', hl', hmem⟩ := hb
      obtain rfl : l = l' := Option.some.inj (hsucc.symm.trans hl')
      exact .inr (List.mem_append_right _ (List.mem_reverse.mpr hmem))
    · intro b hb
      rcases hb with hb | hb
      · exact .inl hb
      · exact .inr (List.mem_append_right _ hb)
  · intro r hr
    rcases h.pending r hr with hdone | hstack
    · exact .inl hdone
    · refine .inr ?_
      rw [List.map_append]
      exact List.mem_append_right _ hstack

section

variable [DecidableEq α]

def Coloring.leave (m : Coloring α) (a : α) : Coloring α :=
  ⟨m.visiting.filter (· ≠ a), m.visited ++ [a]⟩

theorem Sound.leave {m : Coloring α} {a : α} {rest : List (Move α)}
    (h : Sound succ roots m (.exit a :: rest)) : Sound succ roots (m.leave a) rest := by
  have hsingle : a ∉ exits rest ∧ (exits rest).Nodup := List.nodup_cons.mp h.single
  have hnew : a ∉ m.visited := h.apart a List.mem_cons_self
  have hawaited : ∀ b, Edge succ a b → b ∈ m.visited := by
    intro b hb
    have hb' := h.awaited.1 b hb
    simpa using hb'
  refine ⟨h.framed.2, ?_, hsingle.2, ?_, fun b hb => h.known b (List.mem_cons_of_mem _ hb), ?_,
    h.ordered.snoc (h.known a List.mem_cons_self) hawaited, ?_, ?_⟩
  · show m.visiting.filter (· ≠ a) = (exits rest).reverse
    have hothers : (exits rest).reverse.filter (· ≠ a) = (exits rest).reverse := by
      rw [List.filter_eq_self]
      intro b hb
      have hne : b ≠ a := fun heq => hsingle.1 (heq ▸ List.mem_reverse.mp hb)
      simpa using hne
    rw [h.visiting]
    show ((a :: exits rest).reverse).filter (· ≠ a) = _
    rw [List.reverse_cons, List.filter_append, hothers]
    simp
  · intro b hb hmem
    rcases List.mem_append.mp hmem with hmem | hmem
    · exact h.apart b (List.mem_cons_of_mem _ hb) hmem
    · have heq : b = a := by simpa using hmem
      exact hsingle.1 (heq ▸ hb)
  · apply Awaited.mono h.awaited.2
    intro b hb
    refine .inl ?_
    show b ∈ m.visited ++ [a]
    rw [List.mem_append]
    simpa using hb
  · exact List.nodup_append.mpr ⟨h.distinct, List.nodup_singleton a, fun b hb c hc => by
      have heq : c = a := by simpa using hc
      exact fun hbc => hnew (heq ▸ hbc ▸ hb)⟩
  · intro r hr
    show r ∈ m.visited ++ [a] ∨ _
    rcases h.pending r hr with hdone | hstack
    · exact .inl (List.mem_append_left _ hdone)
    · rcases List.mem_cons.mp hstack with heq | hrest
      · exact .inl (heq ▸ List.mem_append_right _ List.mem_cons_self)
      · exact .inr hrest

/-- The sizes of the nodes that are not marked yet. -/
def Coloring.potential (m : Coloring α) (sizes : List (α × ℕ)) : ℕ :=
  ((sizes.filter fun e => e.1 ∉ m.visiting ∧ e.1 ∉ m.visited).map Prod.snd).sum

theorem sum_filter_le {β : Type} (l : List (β × ℕ)) (p q : β × ℕ → Bool)
    (h : ∀ e ∈ l, q e = true → p e = true) :
    ((l.filter q).map Prod.snd).sum ≤ ((l.filter p).map Prod.snd).sum := by
  induction l with
  | nil => simp
  | cons e l ih =>
    have hl := ih fun e' he' => h e' (List.mem_cons_of_mem _ he')
    have he := h e List.mem_cons_self
    cases hq : q e <;> cases hp : p e <;> simp_all
    omega

theorem Coloring.potential_le (m : Coloring α) (sizes : List (α × ℕ)) :
    m.potential sizes ≤ (sizes.map Prod.snd).sum := by
  have hle := sum_filter_le sizes (fun _ => true)
    (fun e => e.1 ∉ m.visiting ∧ e.1 ∉ m.visited) fun _ _ _ => rfl
  rw [List.filter_true] at hle
  exact hle

theorem Coloring.potential_leave (m : Coloring α) (a : α) (sizes : List (α × ℕ)) :
    (m.leave a).potential sizes ≤ m.potential sizes := by
  apply sum_filter_le
  intro e _ he
  simp only [Coloring.leave, decide_eq_true_eq, List.mem_filter, List.mem_append,
    List.mem_singleton] at he ⊢
  tauto

/-- Entering a node takes its size off the potential. -/
theorem Coloring.potential_enter {m : Coloring α} {a : α} {n : ℕ} {sizes : List (α × ℕ)}
    (hsize : (a, n) ∈ sizes) (hvisiting : a ∉ m.visiting) (hvisited : a ∉ m.visited) :
    (m.enter a).potential sizes + n ≤ m.potential sizes := by
  have hrest : ∀ l : List (α × ℕ), (m.enter a).potential l ≤ m.potential l := by
    intro l
    apply sum_filter_le
    intro e _ he
    simp only [Coloring.enter, decide_eq_true_eq, List.mem_append] at he ⊢
    tauto
  obtain ⟨before, after, hsplit⟩ := List.append_of_mem hsize
  have hbefore := hrest before
  have hafter := hrest after
  have hsplits : ∀ m' : Coloring α, m'.potential sizes =
      m'.potential before + (m'.potential [(a, n)] + m'.potential after) := by
    intro m'
    rw [hsplit, ← List.singleton_append]
    simp only [Coloring.potential, List.filter_append, List.map_append, List.sum_append]
  have hnode : m.potential [(a, n)] = n := by simp [Coloring.potential, hvisiting, hvisited]
  rw [hsplits, hsplits m, hnode]
  have hgone : (m.enter a).potential [(a, n)] = 0 := by
    simp [Coloring.potential, Coloring.enter]
  omega

end

end DirectTrade.Library.DepthFirst
