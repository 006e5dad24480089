import Mathlib.Algebra.BigOperators.Group.List.Basic
import Mathlib.Algebra.Order.BigOperators.Group.List
import Mathlib.Algebra.Order.Ring.Int
import Mathlib.Data.List.Induction
import Mathlib.Data.List.Sort

/-!
A sweep over the ends of bookings. Each booking takes its weight from its start until its
stop. In the order of time, and at one instant the stops first, the running total of the ends
stays within a capacity exactly when what is booked does so at every instant.
-/

namespace DirectTrade.Library.Sweep

variable {T : Type*}

/-- A weight, taken from its start until its stop. -/
structure Booking (T : Type*) where
  start : T
  stop : T
  weight : ℕ

/-- The start of a booking adds its weight, and the stop takes it away. -/
def points : List (Booking T) → List (T × ℤ)
  | [] => []
  | b :: rest => (b.start, (b.weight : ℤ)) :: (b.stop, -(b.weight : ℤ)) :: points rest

def total (l : List (T × ℤ)) : ℤ := (l.map Prod.snd).sum

@[simp] theorem total_nil : total ([] : List (T × ℤ)) = 0 := rfl

@[simp] theorem total_cons (p : T × ℤ) (l : List (T × ℤ)) : total (p :: l) = p.2 + total l := by
  simp [total]

@[simp] theorem total_append (l r : List (T × ℤ)) : total (l ++ r) = total l + total r := by
  simp [total]

/-- Whether the running total stays within a capacity. -/
def within (capacity : ℤ) : ℤ → List (T × ℤ) → Bool
  | _, [] => true
  | used, p :: rest => if used + p.2 ≤ capacity then within capacity (used + p.2) rest else false

theorem within_iff {capacity used : ℤ} {l : List (T × ℤ)} (hused : used ≤ capacity) :
    within capacity used l = true ↔ ∀ p, p <+: l → used + total p ≤ capacity := by
  induction l generalizing used with
  | nil =>
    refine ⟨fun _ p hp => ?_, fun _ => rfl⟩
    obtain rfl := List.prefix_nil.mp hp
    simpa using hused
  | cons x rest ih =>
    rw [within]
    by_cases hx : used + x.2 ≤ capacity
    · rw [if_pos hx, ih hx]
      constructor
      · intro h p hp
        rcases List.prefix_cons_iff.mp hp with rfl | ⟨q, rfl, hq⟩
        · simpa using hused
        · have hq := h q hq
          rw [total_cons]
          omega
      · intro h p hp
        have hp := h (x :: p) (List.prefix_cons_iff.mpr (.inr ⟨p, rfl, hp⟩))
        rw [total_cons] at hp
        omega
    · rw [if_neg hx]
      refine ⟨nofun, fun h => absurd (h [x] ⟨rest, rfl⟩) ?_⟩
      simpa using hx

variable [LinearOrder T]

/-- What is booked at an instant. -/
def load (bookings : List (Booking T)) (t : T) : ℕ :=
  (bookings.map fun b => if b.start ≤ t ∧ t < b.stop then b.weight else 0).sum

/-- By time, and at one instant what takes away first. -/
def before (p q : T × ℤ) : Prop := p.1 < q.1 ∨ p.1 = q.1 ∧ p.2 ≤ q.2

instance (p q : T × ℤ) : Decidable (before p q) := inferInstanceAs (Decidable (_ ∨ _))

instance : Std.Total (before (T := T)) where
  total p q := by
    rcases lt_trichotomy p.1 q.1 with h | h | h
    · exact .inl (.inl h)
    · rcases le_total p.2 q.2 with hle | hle
      · exact .inl (.inr ⟨h, hle⟩)
      · exact .inr (.inr ⟨h.symm, hle⟩)
    · exact .inr (.inl h)

instance : IsTrans (T × ℤ) (before (T := T)) where
  trans p q r hpq hqr := by
    rcases hpq with hpq | ⟨hpq, hle⟩
    · rcases hqr with hqr | ⟨hqr, -⟩
      · exact .inl (hpq.trans hqr)
      · exact .inl (hqr ▸ hpq)
    · rcases hqr with hqr | ⟨hqr, hle'⟩
      · exact .inl (hpq ▸ hqr)
      · exact .inr ⟨hpq.trans hqr, hle.trans hle'⟩

theorem before.time_le {p q : T × ℤ} (h : before p q) : p.1 ≤ q.1 := by
  rcases h with h | ⟨h, -⟩
  · exact h.le
  · exact h.le

/-- Whether the bookings fit a capacity, by a sweep over their ends. -/
def sweep (capacity : ℤ) (bookings : List (Booking T)) : Bool :=
  within capacity 0 ((points bookings).insertionSort before)

/-- The points of a sorted list up to an instant come first. -/
theorem filter_before {l : List (T × ℤ)} (hsorted : l.Pairwise before) (t : T) :
    l.filter (fun p => p.1 ≤ t) <+: l := by
  induction l with
  | nil => exact List.prefix_rfl
  | cons x rest ih =>
    rw [List.pairwise_cons] at hsorted
    by_cases hx : x.1 ≤ t
    · rw [List.filter_cons_of_pos (by simpa using hx)]
      exact List.prefix_cons_iff.mpr (.inr ⟨_, rfl, ih hsorted.2⟩)
    · have hnone : (x :: rest).filter (fun p => p.1 ≤ t) = [] := by
        rw [List.filter_eq_nil_iff]
        intro p hp hle
        have hle : p.1 ≤ t := by simpa using hle
        rcases List.mem_cons.mp hp with rfl | hp
        · exact hx hle
        · exact hx ((hsorted.1 p hp).time_le.trans hle)
      rw [hnone]
      exact List.nil_prefix

/-- Up to an instant, the ends of a booking add up to what it takes then. -/
theorem total_points {bookings : List (Booking T)} (h : ∀ b ∈ bookings, b.start < b.stop) (t : T) :
    total ((points bookings).filter fun p => p.1 ≤ t) = load bookings t := by
  induction bookings with
  | nil => rfl
  | cons b rest ih =>
    have hb := h b (List.mem_cons_self ..)
    have hrest := ih fun c hc => h c (List.mem_cons_of_mem _ hc)
    rw [points, load, List.map_cons, List.sum_cons, ← load, Nat.cast_add, ← hrest]
    by_cases hstart : b.start ≤ t
    · by_cases hstop : b.stop ≤ t
      · rw [List.filter_cons_of_pos (by simpa using hstart),
          List.filter_cons_of_pos (by simpa using hstop), if_neg fun hin => hin.2.not_ge hstop]
        simp only [total_cons, Nat.cast_zero]
        omega
      · rw [List.filter_cons_of_pos (by simpa using hstart),
          List.filter_cons_of_neg (by simpa using hstop), if_pos ⟨hstart, lt_of_not_ge hstop⟩]
        simp only [total_cons]
    · have hstop : ¬b.stop ≤ t := fun hle => hstart (hb.le.trans hle)
      rw [List.filter_cons_of_neg (by simpa using hstart),
        List.filter_cons_of_neg (by simpa using hstop), if_neg fun hin => hstart hin.1]
      simp

/-- The running total exceeds what is booked at no point. -/
theorem total_prefix_le {l : List (T × ℤ)} (hsorted : l.Pairwise before) {capacity : ℤ}
    (hcapacity : 0 ≤ capacity) (h : ∀ t, total (l.filter fun p => p.1 ≤ t) ≤ capacity)
    (p : List (T × ℤ)) (hp : p <+: l) : total p ≤ capacity := by
  induction p using List.reverseRecOn with
  | nil => exact hcapacity
  | append_singleton p x ih =>
    have hshorter := ih ((List.prefix_append p [x]).trans hp)
    obtain ⟨rest, rfl⟩ := hp
    by_cases hx : x.2 < 0
    · -- a stop takes away from a total that was within the capacity
      simp only [total_append, total_cons, total_nil]
      omega
    · -- what follows at the same instant adds
      rw [List.append_assoc, List.pairwise_append, List.singleton_append,
        List.pairwise_cons] at hsorted
      obtain ⟨-, ⟨hafter, -⟩, hbefore⟩ := hsorted
      have hp : p.filter (fun y => y.1 ≤ x.1) = p := by
        rw [List.filter_eq_self]
        intro y hy
        exact decide_eq_true (hbefore y hy x (List.mem_cons_self ..)).time_le
      have hrest : 0 ≤ total (rest.filter fun y => y.1 ≤ x.1) := by
        refine List.sum_nonneg fun d hd => ?_
        obtain ⟨y, hy, rfl⟩ := List.mem_map.mp hd
        obtain ⟨hmem, hle⟩ := List.mem_filter.mp hy
        have hle : y.1 ≤ x.1 := by simpa using hle
        rcases hafter y hmem with hlt | ⟨-, hdelta⟩
        · exact absurd hle (not_le_of_gt hlt)
        · omega
      have hload := h x.1
      rw [List.filter_append, List.filter_append, hp,
        List.filter_cons_of_pos (by simp)] at hload
      simp only [total_append, total_cons, total_nil, List.filter_nil] at hload ⊢
      omega

/-- The sweep accepts exactly the bookings that are within the capacity at every instant. -/
theorem sweep_iff {capacity : ℕ} {bookings : List (Booking T)}
    (h : ∀ b ∈ bookings, b.start < b.stop) :
    sweep capacity bookings = true ↔ ∀ t, load bookings t ≤ capacity := by
  have hsorted : ((points bookings).insertionSort before).Pairwise before :=
    List.pairwise_insertionSort before _
  have hperm := List.perm_insertionSort before (points bookings)
  have htotal : ∀ t, total (((points bookings).insertionSort before).filter fun p => p.1 ≤ t) =
      load bookings t := by
    intro t
    rw [← total_points h t, total, total]
    exact ((hperm.filter _).map _).sum_eq
  rw [sweep, within_iff (by omega)]
  constructor
  · intro hwithin t
    have htake := hwithin _ (filter_before hsorted t)
    rw [htotal] at htake
    omega
  · intro hload p hp
    rw [Int.zero_add]
    refine total_prefix_le hsorted (by omega) (fun t => ?_) p hp
    have ht := hload t
    rw [htotal]
    omega

end DirectTrade.Library.Sweep
