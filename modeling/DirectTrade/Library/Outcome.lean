import Mathlib.Data.List.Basic
import Mathlib.Data.List.Induction
import Mathlib.Data.List.Nodup
import Mathlib.Tactic.Basic

/-!
Computations that either return a value or refuse with an error. A successful
sequence of steps is read back as the conjunction of its successful steps, and a
successful loop as the success of its body on every element.
-/

namespace DirectTrade.Library.Outcome

variable {ε α β σ : Type}

/-- Refuses with `e` unless the condition holds. -/
def demand (e : ε) (p : Prop) [Decidable p] : Except ε Unit :=
  if p then .ok () else .error e

/-- Returns the value that is present, or refuses with `e`. -/
def require (e : ε) : Option α → Except ε α
  | some a => .ok a
  | none => .error e

@[simp] theorem demand_eq_ok (e : ε) (p : Prop) [Decidable p] (u : Unit) :
    demand e p = .ok u ↔ p := by
  unfold demand
  split <;> simp_all

@[simp] theorem demand_true (e : ε) (p : Prop) [Decidable p] (h : p) :
    demand e p = .ok () := by
  simp [h]

@[simp] theorem require_eq_ok (e : ε) (o : Option α) (a : α) :
    require e o = .ok a ↔ o = some a := by
  cases o <;> simp [require]

@[simp] theorem require_some (e : ε) (a : α) : require e (some a) = .ok a := rfl

@[simp] theorem bind_eq_ok (x : Except ε α) (f : α → Except ε β) (b : β) :
    (x >>= f) = .ok b ↔ ∃ a, x = .ok a ∧ f a = .ok b := by
  cases x with
  | error e => simp [bind, Except.bind]
  | ok a => simp [bind, Except.bind]

@[simp] theorem ok_bind (a : α) (f : α → Except ε β) : (Except.ok a >>= f) = f a := rfl

@[simp] theorem pure_eq_ok (a b : α) : (pure a : Except ε α) = .ok b ↔ a = b := by
  simp [pure, Except.pure]

theorem pure_eq (a : α) : (pure a : Except ε α) = .ok a := rfl

theorem demand_eq_error (e e' : ε) (p : Prop) [Decidable p] :
    demand e p = .error e' ↔ ¬p ∧ e = e' := by
  unfold demand
  split <;> simp_all

theorem require_eq_error (e e' : ε) (o : Option α) :
    require e o = .error e' ↔ o = none ∧ e = e' := by
  cases o <;> simp [require]

/-- A sequence of two steps is refused by the first, or by the second after the first. -/
theorem bind_eq_error (x : Except ε α) (f : α → Except ε β) (e : ε) :
    (x >>= f) = .error e ↔ x = .error e ∨ ∃ a, x = .ok a ∧ f a = .error e := by
  cases x with
  | error e' => simp [bind, Except.bind]
  | ok a => simp [bind, Except.bind]

theorem pure_ne_error (a : α) (e : ε) : (pure a : Except ε α) ≠ .error e := nofun

theorem map_eq_ok (f : α → β) (x : Except ε α) (b : β) :
    f <$> x = .ok b ↔ ∃ a, x = .ok a ∧ f a = b := by
  cases x with
  | error e => simp [Functor.map, Except.map]
  | ok a => simp [Functor.map, Except.map]

/-- Runs a check on every element, in order. -/
def each (f : α → Except ε Unit) : List α → Except ε Unit
  | [] => .ok ()
  | a :: rest => do
    f a
    each f rest

@[simp] theorem each_eq_ok (f : α → Except ε Unit) (l : List α) (u : Unit) :
    each f l = .ok u ↔ ∀ a ∈ l, f a = .ok () := by
  induction l with
  | nil => simp [each]
  | cons a rest ih =>
    simp only [each, bind_eq_ok, List.mem_cons, forall_eq_or_imp, ih]
    exact ⟨fun ⟨_, h⟩ => h, fun h => ⟨(), h⟩⟩

/-- The value of a computation that succeeds. -/
def value (d : α) : Except ε α → α
  | .ok a => a
  | .error _ => d

theorem eq_value {x : Except ε α} (d : α) (h : x.toBool = true) : x = .ok (value d x) := by
  cases x with
  | ok a => rfl
  | error e => simp [Except.toBool] at h

/-- The elements a fallible test keeps, in order. -/
def keep (p : α → Except ε Bool) : List α → Except ε (List α)
  | [] => .ok []
  | a :: rest => do
    let chosen ← p a
    let kept ← keep p rest
    pure (if chosen then a :: kept else kept)

/-- Whether a fallible test holds of every element; the first failure ends the scan. -/
def every (p : α → Except ε Bool) : List α → Except ε Bool
  | [] => .ok true
  | a :: rest => do
    let holds ← p a
    if holds then every p rest else pure false

/-- A test that never refuses keeps what the plain filter keeps. -/
theorem keep_eq_filter (p : α → Except ε Bool) (q : α → Bool) (l : List α)
    (h : ∀ a ∈ l, p a = .ok (q a)) : keep p l = .ok (l.filter q) := by
  induction l with
  | nil => rfl
  | cons a rest ih =>
    have ha : p a = .ok (q a) := h a (List.mem_cons_self ..)
    have hrest : keep p rest = .ok (rest.filter q) :=
      ih fun b hb => h b (List.mem_cons_of_mem _ hb)
    cases hq : q a <;> simp [keep, ha, hrest, hq, pure, Except.pure]

theorem mem_of_keep {p : α → Except ε Bool} {l kept : List α} (h : keep p l = .ok kept) :
    ∀ a ∈ kept, a ∈ l ∧ p a = .ok true := by
  induction l generalizing kept with
  | nil =>
    obtain rfl := Except.ok.inj h
    exact fun a ha => nomatch ha
  | cons b rest ih =>
    simp only [keep, bind_eq_ok, pure_eq_ok] at h
    obtain ⟨chosen, hb, tail, hrest, rfl⟩ := h
    intro a ha
    cases chosen with
    | false =>
      obtain ⟨hmem, hp⟩ := ih hrest a ha
      exact ⟨List.mem_cons_of_mem b hmem, hp⟩
    | true =>
      rcases List.mem_cons.mp ha with rfl | ha
      · exact ⟨List.mem_cons_self .., hb⟩
      · obtain ⟨hmem, hp⟩ := ih hrest a ha
        exact ⟨List.mem_cons_of_mem b hmem, hp⟩

theorem every_eq_ok {p : α → Except ε Bool} {l : List α} (h : every p l = .ok true) :
    ∀ a ∈ l, p a = .ok true := by
  induction l with
  | nil => exact fun a ha => nomatch ha
  | cons b rest ih =>
    simp only [every, bind_eq_ok] at h
    obtain ⟨holds, hb, hrest⟩ := h
    cases holds with
    | false => simp at hrest
    | true =>
      intro a ha
      rcases List.mem_cons.mp ha with rfl | ha
      · exact hb
      · exact ih hrest a ha

theorem every_map {p : α → Except ε Bool} {f : α → α} (hf : ∀ a, p (f a) = p a) (l : List α) :
    every p (l.map f) = every p l := by
  induction l with
  | nil => rfl
  | cons a rest ih => simp only [List.map_cons, every, hf, ih]

theorem mapM_forall₂ {f : α → Except ε β} {l : List α} {l' : List β}
    (h : l.mapM f = .ok l') : List.Forall₂ (fun a b => f a = .ok b) l l' := by
  induction l generalizing l' with
  | nil =>
    obtain rfl := Except.ok.inj h
    exact .nil
  | cons a rest ih =>
    simp only [List.mapM_cons, bind_eq_ok, pure_eq_ok] at h
    obtain ⟨b, hb, tail, hrest, rfl⟩ := h
    exact .cons hb (ih hrest)

/-- What a step keeps of its element, the loop keeps of the list. -/
theorem map_of_mapM {f : α → Except ε β} {g : β → σ} {g₀ : α → σ} {l : List α} {l' : List β}
    (hstep : ∀ a b, f a = .ok b → g b = g₀ a) (h : l.mapM f = .ok l') : l'.map g = l.map g₀ := by
  have hall := mapM_forall₂ h
  clear h
  induction hall with
  | nil => rfl
  | cons hab _ ih => rw [List.map_cons, List.map_cons, hstep _ _ hab, ih]

theorem exists_of_mapM {f : α → Except ε β} {l : List α} {l' : List β}
    (h : l.mapM f = .ok l') :
    (∀ b ∈ l', ∃ a ∈ l, f a = .ok b) ∧ ∀ a ∈ l, ∃ b ∈ l', f a = .ok b := by
  have hall := mapM_forall₂ h
  clear h
  induction hall with
  | nil => simp
  | cons hab _ ih =>
    simp only [List.forall_mem_cons, List.exists_mem_cons_iff]
    refine ⟨⟨.inl hab, fun b hb => .inr (ih.1 b hb)⟩, .inl hab, fun a ha => .inr (ih.2 a ha)⟩

/-- A loop whose body returns `g a` exactly when `p a` holds. -/
theorem mapM_eq_ok_iff {f : α → Except ε β} {p : α → Prop} {g : α → β} {l : List α}
    (h : ∀ a ∈ l, ∀ b, f a = .ok b ↔ p a ∧ b = g a) (r : List β) :
    l.mapM f = .ok r ↔ (∀ a ∈ l, p a) ∧ r = l.map g := by
  induction l generalizing r with
  | nil =>
    rw [List.mapM_nil, pure_eq_ok]
    simp [eq_comm]
  | cons a rest ih =>
    have hrest := ih fun x hx => h x (List.mem_cons_of_mem _ hx)
    simp only [List.mapM_cons, bind_eq_ok, pure_eq_ok, h a (List.mem_cons_self ..), hrest,
      List.forall_mem_cons, List.map_cons]
    constructor
    · intro ⟨b, ⟨hp, hb⟩, bs, ⟨hps, hbs⟩, hr⟩
      exact ⟨⟨hp, hps⟩, by rw [← hr, hb, hbs]⟩
    · intro ⟨⟨hp, hps⟩, hr⟩
      exact ⟨g a, ⟨hp, rfl⟩, rest.map g, ⟨hps, rfl⟩, hr.symm⟩

theorem mapM_total {f : α → Except ε β} {l : List α} (h : ∀ a ∈ l, ∃ b, f a = .ok b) :
    ∃ l', l.mapM f = .ok l' := by
  induction l with
  | nil => exact ⟨[], rfl⟩
  | cons a rest ih =>
    obtain ⟨b, hb⟩ := h a (List.mem_cons_self ..)
    obtain ⟨tail, htail⟩ := ih fun c hc => h c (List.mem_cons_of_mem _ hc)
    refine ⟨b :: tail, ?_⟩
    simp only [List.mapM_cons, bind_eq_ok, pure_eq_ok]
    exact ⟨b, hb, tail, htail, rfl⟩

/-- What holds of the start and survives each successful step of a fold holds of
its result. -/
theorem foldlM_invariant (P : σ → Prop) (f : σ → α → Except ε σ) (l : List α)
    (hstep : ∀ a ∈ l, ∀ s t, P s → f s a = .ok t → P t) {s t : σ}
    (hs : P s) (h : l.foldlM f s = .ok t) : P t := by
  induction l generalizing s with
  | nil =>
    simp only [List.foldlM_nil, pure_eq_ok] at h
    exact h ▸ hs
  | cons a rest ih =>
    simp only [List.foldlM_cons, bind_eq_ok] at h
    obtain ⟨m, hm, hrest⟩ := h
    exact ih (fun b hb => hstep b (List.mem_cons_of_mem _ hb))
      (hstep a (List.mem_cons_self ..) s m hs hm) hrest

/-- A map of states that every step respects, the fold respects. -/
theorem foldlM_map_state {f : σ → α → Except ε σ} {g : σ → σ} {l : List α}
    (hstep : ∀ s a, f (g s) a = g <$> f s a) (s : σ) : l.foldlM f (g s) = g <$> l.foldlM f s := by
  induction l generalizing s with
  | nil => rfl
  | cons a rest ih =>
    simp only [List.foldlM_cons, hstep, map_bind]
    cases f s a with
    | error e => rfl
    | ok t => exact ih t

theorem foldlM_append_eq_ok (f : σ → α → Except ε σ) (l r : List α) (s t : σ) :
    (l ++ r).foldlM f s = .ok t ↔ ∃ m, l.foldlM f s = .ok m ∧ r.foldlM f m = .ok t := by
  simp [List.foldlM_append]

theorem foldlM_split {f : σ → α → Except ε σ} {l r : List α} {a : α} {s t : σ}
    (h : (l ++ a :: r).foldlM f s = .ok t) :
    ∃ m n, l.foldlM f s = .ok m ∧ f m a = .ok n ∧ r.foldlM f n = .ok t := by
  obtain ⟨m, hl, hr⟩ := (foldlM_append_eq_ok f l (a :: r) s t).mp h
  simp only [List.foldlM_cons, bind_eq_ok] at hr
  obtain ⟨n, ha, hr⟩ := hr
  exact ⟨m, n, hl, ha, hr⟩

/-- Every element of a loop that returns has had its step. -/
theorem foldlM_each {f : σ → α → Except ε σ} {l : List α} {s t : σ}
    (h : l.foldlM f s = .ok t) (a : α) (ha : a ∈ l) : ∃ m n, f m a = .ok n := by
  obtain ⟨l, r, rfl⟩ := List.append_of_mem ha
  obtain ⟨m, n, -, hstep, -⟩ := foldlM_split h
  exact ⟨m, n, hstep⟩

/-- A loop whose steps all return what a stricter loop's steps return. -/
theorem foldlM_of_steps {f g : σ → α → Except ε σ} {l : List α} {s t : σ}
    (hstep : ∀ a ∈ l, ∀ m n, f m a = .ok n → g m a = .ok n) (h : l.foldlM f s = .ok t) :
    l.foldlM g s = .ok t := by
  induction l generalizing s with
  | nil => exact h
  | cons a rest ih =>
    simp only [List.foldlM_cons, bind_eq_ok] at h ⊢
    obtain ⟨m, ha, hrest⟩ := h
    have hlater := fun b hb => hstep b (List.mem_cons_of_mem a hb)
    exact ⟨m, hstep a List.mem_cons_self s m ha, ih hlater hrest⟩

theorem foldlM_congr {f g : σ → α → Except ε σ} {l : List α}
    (h : ∀ a ∈ l, ∀ s, f s a = g s a) (s : σ) : l.foldlM f s = l.foldlM g s := by
  induction l generalizing s with
  | nil => rfl
  | cons a rest ih =>
    simp only [List.foldlM_cons, h a (List.mem_cons_self ..)]
    exact congrArg _ (funext (ih fun b hb => h b (List.mem_cons_of_mem _ hb)))

/-- A fold establishes what relates the elements it has consumed to the state it is in. -/
theorem foldlM_prefix {f : σ → α → Except ε σ} (P : List α → σ → Prop)
    (hstep : ∀ pre a s t, P pre s → f s a = .ok t → P (pre ++ [a]) t) {l : List α} {s t : σ}
    (hs : P [] s) (h : l.foldlM f s = .ok t) : P l t := by
  induction l using List.reverseRecOn generalizing t with
  | nil =>
    simp only [List.foldlM_nil, pure_eq_ok] at h
    exact h ▸ hs
  | append_singleton pre a ih =>
    obtain ⟨m, n, hpre, ha, hnil⟩ := foldlM_split h
    simp only [List.foldlM_nil, pure_eq_ok] at hnil
    exact hnil ▸ hstep pre a m n (ih hpre) ha

/-- A fold that remembers the keys of its elements and refuses a key it has seen. -/
theorem foldlM_distinct {κ : Type} {f : σ → α → Except ε σ} {seen : σ → List κ} (key : α → κ)
    (hstep : ∀ s a t, f s a = .ok t → seen t = seen s ++ [key a] ∧ key a ∉ seen s)
    {l : List α} {s t : σ} (hs : seen s = []) (h : l.foldlM f s = .ok t) :
    (l.map key).Nodup := by
  have hpre := foldlM_prefix (fun pre s => seen s = pre.map key ∧ (pre.map key).Nodup) ?_
    ⟨hs, List.nodup_nil⟩ h
  · exact hpre.2
  intro pre a s t hm hf
  obtain ⟨hadded, hfresh⟩ := hstep s a t hf
  rw [List.map_append, List.map_singleton]
  refine ⟨by rw [hadded, hm.1], ?_⟩
  rw [hm.1] at hfresh
  exact List.nodup_append_comm.mp (List.nodup_cons.mpr ⟨hfresh, hm.2⟩)

/-- A fold that collects the keys of its elements and refuses a key it has seen. -/
theorem foldlM_collect {κ : Type} {f : List κ → α → Except ε (List κ)} (key : α → κ)
    {P : α → Prop}
    (hstep : ∀ seen a out, f seen a = .ok out → out = seen ++ [key a] ∧ key a ∉ seen ∧ P a)
    {l : List α} {out : List κ} (h : l.foldlM f [] = .ok out) :
    out = l.map key ∧ out.Nodup ∧ ∀ a ∈ l, P a := by
  refine foldlM_prefix (fun pre s => s = pre.map key ∧ s.Nodup ∧ ∀ a ∈ pre, P a) ?_ ?_ h
  · rintro pre a s t ⟨rfl, hnodup, hpre⟩ hf
    obtain ⟨rfl, hfresh, ha⟩ := hstep _ a t hf
    refine ⟨by simp, ?_, ?_⟩
    · rw [List.nodup_append]
      exact ⟨hnodup, List.nodup_singleton _, fun x hx y hy hxy =>
        hfresh (List.mem_singleton.mp hy ▸ hxy ▸ hx)⟩
    · intro b hb
      rcases List.mem_append.mp hb with hb | hb
      · exact hpre b hb
      · exact List.mem_singleton.mp hb ▸ ha
  · exact ⟨rfl, List.nodup_nil, nofun⟩

end DirectTrade.Library.Outcome
