import DirectTrade.Library.Outcome
import Mathlib.Logic.Function.Basic
import Mathlib.Logic.Relation

/-!
Programs of statements against tables, and sessions that interleave them statement by statement.
A statement sees what is committed and what its own session has written. Writing sessions hold
one lock from before their first statement until they end, so that what is committed is what
the same programs would leave behind one after the other.
-/

namespace DirectTrade.Library.Serial

open Outcome

variable {ι S ε α β : Type}

/-- Statements that only read. -/
inductive Query (S ε α : Type) where
  | done (a : α)
  | fail (e : ε)
  | select (next : S → Query S ε α)

/-- Statements that read, write, or draw the next number of a sequence. -/
inductive Program (S ε α : Type) where
  | done (a : α)
  | fail (e : ε)
  | select (next : S → Program S ε α)
  | update (write : S → Except ε S) (next : Program S ε α)
  | draw (next : ℕ → Program S ε α)

namespace Query

def bind : Query S ε α → (α → Query S ε β) → Query S ε β
  | done a, f => f a
  | fail e, _ => fail e
  | select next, f => select fun s => (next s).bind f

instance : Monad (Query S ε) where
  pure := done
  bind := bind

def ofExcept : Except ε α → Query S ε α
  | .ok a => done a
  | .error e => fail e

/-- One statement that reads. -/
def read (f : S → α) : Query S ε α := select fun s => done (f s)

/-- The answer of a query if nothing changes meanwhile. -/
def eval : Query S ε α → S → Except ε α
  | done a, _ => .ok a
  | fail e, _ => .error e
  | select next, s => (next s).eval s

@[simp] theorem eval_pure (a : α) (s : S) : (pure a : Query S ε α).eval s = .ok a := rfl

@[simp] theorem eval_ofExcept (x : Except ε α) (s : S) : (ofExcept x).eval s = x := by
  cases x with
  | ok a => rfl
  | error e => rfl

@[simp] theorem eval_read (f : S → α) (s : S) : (read f : Query S ε α).eval s = .ok (f s) := rfl

@[simp] theorem eval_bind (q : Query S ε α) (f : α → Query S ε β) (s : S) :
    (q >>= f).eval s = q.eval s >>= fun a => (f a).eval s := by
  show (q.bind f).eval s = _
  induction q with
  | done a => rfl
  | fail e => rfl
  | select next ih => exact ih s

/-- The answers of a query whose statements see any states of a kind, each its own. -/
inductive Reads (P : S → Prop) : Query S ε α → α → Prop
  | done (a : α) : Reads P (.done a) a
  | select {next : S → Query S ε α} {a : α} (s : S) (hs : P s) (h : Reads P (next s) a) :
      Reads P (.select next) a

theorem Reads.mono {P Q : S → Prop} (hPQ : ∀ s, P s → Q s) {q : Query S ε α} {a : α}
    (h : Reads P q a) : Reads Q q a := by
  induction h with
  | done a => exact .done a
  | select s hs _ ih => exact .select s (hPQ s hs) ih

@[simp] theorem reads_pure {P : S → Prop} (a b : α) :
    Reads P (pure a : Query S ε α) b ↔ a = b := by
  constructor
  · intro h
    cases h
    rfl
  · rintro rfl
    exact .done a

@[simp] theorem reads_ofExcept {P : S → Prop} (x : Except ε α) (b : α) :
    Reads P (ofExcept x : Query S ε α) b ↔ x = .ok b := by
  cases x with
  | ok a =>
    rw [Except.ok.injEq]
    exact reads_pure a b
  | error e =>
    constructor
    · intro h
      cases h
    · intro h
      exact nomatch h

@[simp] theorem reads_read {P : S → Prop} (f : S → α) (b : α) :
    Reads P (read f : Query S ε α) b ↔ ∃ s, P s ∧ f s = b := by
  constructor
  · intro h
    cases h with
    | select s hs h =>
      cases h
      exact ⟨s, hs, rfl⟩
  · rintro ⟨s, hs, rfl⟩
    exact .select s hs (.done _)

@[simp] theorem reads_bind {P : S → Prop} (q : Query S ε α) (f : α → Query S ε β) (b : β) :
    Reads P (q >>= f) b ↔ ∃ a, Reads P q a ∧ Reads P (f a) b := by
  show Reads P (q.bind f) b ↔ _
  induction q with
  | done a =>
    constructor
    · intro h
      exact ⟨a, .done a, h⟩
    · rintro ⟨a', ha, h⟩
      cases ha
      exact h
  | fail e =>
    constructor
    · intro h
      cases h
    · rintro ⟨a, ha, -⟩
      cases ha
  | select next ih =>
    constructor
    · intro h
      cases h with
      | select s hs h =>
        obtain ⟨a, ha, hb⟩ := (ih s).mp h
        exact ⟨a, .select s hs ha, hb⟩
    · rintro ⟨a, ha, hb⟩
      cases ha with
      | select s hs ha => exact .select s hs ((ih s).mpr ⟨a, ha, hb⟩)

end Query

namespace Program

def bind : Program S ε α → (α → Program S ε β) → Program S ε β
  | done a, f => f a
  | fail e, _ => fail e
  | select next, f => select fun s => (next s).bind f
  | update write next, f => update write (next.bind f)
  | draw next, f => draw fun n => (next n).bind f

instance : Monad (Program S ε) where
  pure := done
  bind := bind

def ofExcept : Except ε α → Program S ε α
  | .ok a => done a
  | .error e => fail e

def query : Query S ε α → Program S ε α
  | .done a => done a
  | .fail e => fail e
  | .select next => select fun s => query (next s)

/-- One statement that writes. -/
def write (f : S → Except ε S) : Program S ε Unit := update f (done ())

/-- The next number of the sequence. -/
def next : Program S ε ℕ := draw done

/-- A program on its own: what it returns and leaves behind, or nothing; the numbers it drew are
gone either way. -/
def run : Program S ε α → S → ℕ → Except ε (α × S) × ℕ
  | done a, s, n => (.ok (a, s), n)
  | fail e, _, n => (.error e, n)
  | select next, s, n => (next s).run s n
  | update write next, s, n =>
    match write s with
    | .ok t => next.run t n
    | .error e => (.error e, n)
  | draw next, s, n => (next (n + 1)).run s (n + 1)

/-- The program succeeds. -/
def Runs (p : Program S ε α) (s : S) (n : ℕ) (a : α) (t : S) (m : ℕ) : Prop :=
  p.run s n = (.ok (a, t), m)

/-- A program that runs under a condition. -/
def onlyIf (c : Prop) [Decidable c] (p : Program S ε Unit) : Program S ε Unit :=
  if c then p else pure ()

/-- A program for each element, in order. -/
def forEach (f : α → Program S ε β) : List α → Program S ε (List β)
  | [] => pure []
  | a :: rest => do
    let b ← f a
    let bs ← forEach f rest
    pure (b :: bs)

variable {s t : S} {n m : ℕ}

@[simp] theorem runs_pure (a b : α) :
    (pure a : Program S ε α).Runs s n b t m ↔ a = b ∧ s = t ∧ n = m := by
  show (Except.ok (a, s), n) = _ ↔ _
  simp only [Prod.mk.injEq, Except.ok.injEq, and_assoc]

@[simp] theorem runs_ofExcept (x : Except ε α) (b : α) :
    (ofExcept x : Program S ε α).Runs s n b t m ↔ x = .ok b ∧ s = t ∧ n = m := by
  cases x with
  | ok a =>
    rw [Except.ok.injEq]
    exact runs_pure a b
  | error e =>
    show (Except.error e, n) = _ ↔ _
    simp

@[simp] theorem runs_query (q : Query S ε α) (b : α) :
    (query q).Runs s n b t m ↔ q.eval s = .ok b ∧ s = t ∧ n = m := by
  induction q with
  | done a => exact runs_ofExcept (.ok a) b
  | fail e => exact runs_ofExcept (.error e) b
  | select next ih => exact ih s

theorem runs_update (f : S → Except ε S) (p : Program S ε α) (a : α) :
    (update f p).Runs s n a t m ↔ ∃ s', f s = .ok s' ∧ p.Runs s' n a t m := by
  unfold Runs
  rw [run]
  cases f s with
  | ok s' => simp
  | error e => simp

@[simp] theorem runs_write (f : S → Except ε S) (u : Unit) :
    (write f).Runs s n u t m ↔ f s = .ok t ∧ n = m := by
  rw [write, runs_update]
  constructor
  · rintro ⟨s', hs', h⟩
    obtain ⟨-, rfl, rfl⟩ := (runs_pure ..).mp h
    exact ⟨hs', rfl⟩
  · rintro ⟨ht, rfl⟩
    exact ⟨t, ht, rfl⟩

@[simp] theorem runs_next (k : ℕ) :
    (next : Program S ε ℕ).Runs s n k t m ↔ n + 1 = k ∧ s = t ∧ n + 1 = m :=
  runs_pure (n + 1) k

@[simp] theorem runs_bind (p : Program S ε α) (f : α → Program S ε β) (b : β) :
    (p >>= f).Runs s n b t m ↔ ∃ a s' n', p.Runs s n a s' n' ∧ (f a).Runs s' n' b t m := by
  show (p.bind f).Runs s n b t m ↔ _
  induction p generalizing s n with
  | done a =>
    constructor
    · intro h
      exact ⟨a, s, n, rfl, h⟩
    · rintro ⟨a', s', n', ha, h⟩
      obtain ⟨rfl, rfl, rfl⟩ := (runs_pure ..).mp ha
      exact h
  | fail e =>
    constructor
    · intro h
      exact nomatch h
    · rintro ⟨a', s', n', ha, -⟩
      exact nomatch ha
  | select next ih => exact ih s
  | update write next ih =>
    rw [Program.bind, runs_update]
    constructor
    · rintro ⟨s', hs', h⟩
      obtain ⟨a, s₁, n₁, ha, hb⟩ := ih.mp h
      exact ⟨a, s₁, n₁, (runs_update ..).mpr ⟨s', hs', ha⟩, hb⟩
    · rintro ⟨a, s₁, n₁, ha, hb⟩
      obtain ⟨s', hs', ha⟩ := (runs_update ..).mp ha
      exact ⟨s', hs', ih.mpr ⟨a, s₁, n₁, ha, hb⟩⟩
  | draw next ih => exact ih (n + 1)

theorem runs_ofExcept_bind (x : Except ε α) (f : α → Program S ε β) (b : β) :
    (ofExcept x >>= f).Runs s n b t m ↔ ∃ a, x = .ok a ∧ (f a).Runs s n b t m := by
  rw [runs_bind]
  constructor
  · rintro ⟨a, _, _, hrun, hf⟩
    obtain ⟨hx, rfl, rfl⟩ := (runs_ofExcept x a).mp hrun
    exact ⟨a, hx, hf⟩
  · rintro ⟨a, hx, hf⟩
    exact ⟨a, s, n, (runs_ofExcept x a).mpr ⟨hx, rfl, rfl⟩, hf⟩

theorem runs_query_bind (q : Query S ε α) (f : α → Program S ε β) (b : β) :
    (query q >>= f).Runs s n b t m ↔ ∃ a, q.eval s = .ok a ∧ (f a).Runs s n b t m := by
  rw [runs_bind]
  constructor
  · rintro ⟨a, _, _, hrun, hf⟩
    obtain ⟨hq, rfl, rfl⟩ := (runs_query q a).mp hrun
    exact ⟨a, hq, hf⟩
  · rintro ⟨a, hq, hf⟩
    exact ⟨a, s, n, (runs_query q a).mpr ⟨hq, rfl, rfl⟩, hf⟩

theorem runs_write_bind (g : S → Except ε S) (f : Unit → Program S ε β) (b : β) :
    (write g >>= f).Runs s n b t m ↔ ∃ s', g s = .ok s' ∧ (f ()).Runs s' n b t m := by
  rw [runs_bind]
  constructor
  · rintro ⟨a, s', _, hrun, hf⟩
    obtain ⟨hg, rfl⟩ := (runs_write g a).mp hrun
    exact ⟨s', hg, hf⟩
  · rintro ⟨s', hg, hf⟩
    exact ⟨(), s', n, (runs_write g ()).mpr ⟨hg, rfl⟩, hf⟩

theorem runs_onlyIf (c : Prop) [Decidable c] (p : Program S ε Unit) (u : Unit) :
    (onlyIf c p).Runs s n u t m ↔ (c ∧ p.Runs s n u t m) ∨ (¬ c ∧ s = t ∧ n = m) := by
  unfold onlyIf
  by_cases hc : c
  · simp [hc]
  · simp [hc]

@[simp] theorem runs_forEach_nil (f : α → Program S ε β) (bs : List β) :
    (forEach f []).Runs s n bs t m ↔ [] = bs ∧ s = t ∧ n = m := runs_pure [] bs

@[simp] theorem runs_forEach_cons (f : α → Program S ε β) (a : α) (rest : List α) (bs : List β) :
    (forEach f (a :: rest)).Runs s n bs t m ↔ ∃ b s' n', (f a).Runs s n b s' n' ∧
      ∃ bs' s'' n'', (forEach f rest).Runs s' n' bs' s'' n'' ∧
        b :: bs' = bs ∧ s'' = t ∧ n'' = m := by
  rw [forEach]
  simp only [runs_bind, runs_pure]

end Program

/-- What a session does. A program that runs is kept with the writes of its own; a program or a
query that ended, with what it returned. -/
inductive Session (S ε α β : Type) where
  | idle
  | waiting (p : Program S ε α)
  | running (p : Program S ε α) (writes : List (S → Except ε S)) (rest : Program S ε α)
  | written (p : Program S ε α) (a : α)
  | reading (q rest : Query S ε β)
  | answered (q : Query S ε β) (b : β)
  | refused

/-- What is committed and has been, the last number drawn, and who holds the lock. -/
structure World (ι S ε α β : Type) where
  committed : S
  past : List S
  drawn : ℕ
  lock : Option ι
  sessions : ι → Session S ε α β

namespace World

variable [DecidableEq ι]

/-- A world before its first request. -/
def start (s : S) (n : ℕ) : World ι S ε α β := ⟨s, [], n, none, fun _ => .idle⟩

def put (w : World ι S ε α β) (i : ι) (session : Session S ε α β) : World ι S ε α β :=
  { w with sessions := Function.update w.sessions i session }

/-- What a statement of a session sees: what is committed now, and its own writes. -/
def view (w : World ι S ε α β) (writes : List (S → Except ε S)) : Except ε S :=
  writes.foldlM (fun s write => write s) w.committed

/-- Every state that is or was committed. -/
def History (w : World ι S ε α β) (s : S) : Prop := s ∈ w.committed :: w.past

@[simp] theorem sessions_put (w : World ι S ε α β) (i : ι) (session : Session S ε α β) :
    (w.put i session).sessions i = session := Function.update_self ..

theorem sessions_put_of_ne (w : World ι S ε α β) {i j : ι} (session : Session S ε α β) (h : j ≠ i) :
    (w.put i session).sessions j = w.sessions j := Function.update_of_ne h ..

end World

/-- One statement of one session. -/
inductive Step [DecidableEq ι] (writers : Program S ε α → Prop)
    (readers : Query S ε β → Prop) : World ι S ε α β → World ι S ε α β → Prop
  | write {w : World ι S ε α β} {i : ι} {p : Program S ε α} (hi : w.sessions i = .idle)
      (hp : writers p) : Step writers readers w (w.put i (.waiting p))
  | read {w : World ι S ε α β} {i : ι} {q : Query S ε β} (hi : w.sessions i = .idle)
      (hq : readers q) : Step writers readers w (w.put i (.reading q q))
  | lock {w : World ι S ε α β} {i : ι} {p : Program S ε α} (hi : w.sessions i = .waiting p)
      (hfree : w.lock = none) :
      Step writers readers w ({ w with lock := some i }.put i (.running p [] p))
  | select {w : World ι S ε α β} {i : ι} {p : Program S ε α} {writes : List (S → Except ε S)}
      {next : S → Program S ε α} {s : S} (hi : w.sessions i = .running p writes (.select next))
      (hs : w.view writes = .ok s) : Step writers readers w (w.put i (.running p writes (next s)))
  | update {w : World ι S ε α β} {i : ι} {p : Program S ε α} {writes : List (S → Except ε S)}
      {write : S → Except ε S} {next : Program S ε α} {s t : S}
      (hi : w.sessions i = .running p writes (.update write next))
      (hs : w.view writes = .ok s) (ht : write s = .ok t) :
      Step writers readers w (w.put i (.running p (writes ++ [write]) next))
  | draw {w : World ι S ε α β} {i : ι} {p : Program S ε α} {writes : List (S → Except ε S)}
      {next : ℕ → Program S ε α} (hi : w.sessions i = .running p writes (.draw next)) :
      Step writers readers w ({ w with drawn := w.drawn + 1 }.put i
        (.running p writes (next (w.drawn + 1))))
  | commit {w : World ι S ε α β} {i : ι} {p : Program S ε α} {writes : List (S → Except ε S)}
      {a : α} {s : S} (hi : w.sessions i = .running p writes (.done a))
      (hs : w.view writes = .ok s) :
      Step writers readers w
        ({ w with committed := s, past := w.committed :: w.past, lock := none }.put i
          (.written p a))
  | abort {w : World ι S ε α β} {i : ι} {p rest : Program S ε α}
      {writes : List (S → Except ε S)} (hi : w.sessions i = .running p writes rest) :
      Step writers readers w ({ w with lock := none }.put i .refused)
  | cancel {w : World ι S ε α β} {i : ι} {p : Program S ε α} (hi : w.sessions i = .waiting p) :
      Step writers readers w (w.put i .refused)
  | look {w : World ι S ε α β} {i : ι} {q : Query S ε β} {next : S → Query S ε β}
      (hi : w.sessions i = .reading q (.select next)) :
      Step writers readers w (w.put i (.reading q (next w.committed)))
  | answer {w : World ι S ε α β} {i : ι} {q : Query S ε β} {b : β}
      (hi : w.sessions i = .reading q (.done b)) : Step writers readers w (w.put i (.answered q b))
  | refuse {w : World ι S ε α β} {i : ι} {q rest : Query S ε β}
      (hi : w.sessions i = .reading q rest) : Step writers readers w (w.put i .refused)

abbrev Reaches [DecidableEq ι] (writers : Program S ε α → Prop) (readers : Query S ε β → Prop)
    (w w' : World ι S ε α β) : Prop :=
  Relation.ReflTransGen (Step writers readers) w w'

section
variable (writers : Program S ε α → Prop) (readers : Query S ε β → Prop)

/-- The same programs, one after the other; numbers may be lost between them. -/
inductive Serially : S → ℕ → S → ℕ → Prop
  | refl (s : S) (n : ℕ) : Serially s n s n
  | commit {s t t' : S} {n m m' : ℕ} {p : Program S ε α} {a : α} (h : Serially s n t m)
      (hp : writers p) (hrun : p.Runs t m a t' m') : Serially s n t' m'
  | lost {s t : S} {n m m' : ℕ} (h : Serially s n t m) (hle : m ≤ m') : Serially s n t m'

variable {writers readers}

theorem Serially.trans {s t u : S} {n m k : ℕ} (h : Serially writers s n t m)
    (h' : Serially writers t m u k) : Serially writers s n u k := by
  induction h' with
  | refl => exact h
  | commit _ hp hrun ih => exact .commit (ih h) hp hrun
  | lost _ hle ih => exact .lost (ih h) hle

/-- What holds at the start and is kept by each program holds of all that is committed. -/
theorem Serially.invariant {P : S → ℕ → Prop} {s t : S} {n m : ℕ}
    (hrun : ∀ p s n a t m, writers p → p.Runs s n a t m → P s n → P t m)
    (hlost : ∀ s n m, n ≤ m → P s n → P s m) (h : Serially writers s n t m) (hs : P s n) :
    P t m := by
  induction h with
  | refl => exact hs
  | commit _ hp hruns ih => exact hrun _ _ _ _ _ _ hp hruns (ih hs)
  | lost _ hle ih => exact hlost _ _ _ hle (ih hs)

/-- What a session has done so far. The program that holds the lock has done, on what is
committed, what it would have done on its own, `n` being the last number drawn before it; a query
has seen what is or was committed. -/
def Fits (writers : Program S ε α → Prop) (readers : Query S ε β → Prop) (w : World ι S ε α β)
    (n : ℕ) (i : ι) : Session S ε α β → Prop
  | .idle | .refused => True
  | .waiting p => writers p
  | .running p writes rest => w.lock = some i ∧ writers p ∧
      ∃ s, w.view writes = .ok s ∧ p.run w.committed n = rest.run s w.drawn
  | .written p _ => writers p
  | .reading q rest => readers q ∧
      ∀ P : S → Prop, (∀ s, w.History s → P s) → ∀ a, rest.Reads P a → q.Reads P a
  | .answered q a => readers q ∧ q.Reads w.History a

structure Atomic (writers : Program S ε α → Prop) (readers : Query S ε β → Prop)
    (w : World ι S ε α β) (n : ℕ) : Prop where
  drawn : n ≤ w.drawn
  fits : ∀ i, Fits writers readers w n i (w.sessions i)

/-- A session that does not hold the lock keeps what it has done while others go on. -/
theorem Fits.other {w w' : World ι S ε α β} {n n' : ℕ} {j : ι} {session : Session S ε α β}
    (h : Fits writers readers w n j session) (hlock : w.lock ≠ some j)
    (hhistory : ∀ s, w.History s → w'.History s) : Fits writers readers w' n' j session := by
  cases session with
  | idle | refused => trivial
  | waiting p => exact h
  | running p writes rest => exact absurd h.1 hlock
  | written p a => exact h
  | reading q rest => exact ⟨h.1, fun P hP => h.2 P fun s hs => hP s (hhistory s hs)⟩
  | answered q a => exact ⟨h.1, h.2.mono hhistory⟩

theorem atomic_start (s : S) (n : ℕ) :
    Atomic writers readers (World.start s n : World ι S ε α β) n :=
  ⟨Nat.le_refl n, fun _ => trivial⟩

end

section
variable [DecidableEq ι] {writers : Program S ε α → Prop} {readers : Query S ε β → Prop}

theorem Atomic.put {w : World ι S ε α β} {n : ℕ} {i : ι} {session : Session S ε α β}
    (hdrawn : n ≤ w.drawn) (hi : Fits writers readers w n i session)
    (hothers : ∀ j, j ≠ i → Fits writers readers w n j (w.sessions j)) :
    Atomic writers readers (w.put i session) n := by
  refine ⟨hdrawn, ?_⟩
  intro j
  by_cases hj : j = i
  · subst hj
    rw [World.sessions_put]
    exact hi
  · rw [World.sessions_put_of_ne w session hj]
    exact hothers j hj

/-- Each statement keeps the programs apart, and only a commit changes what is committed, to
what the program leaves behind on its own. -/
theorem Step.atomic {w w' : World ι S ε α β} (hstep : Step writers readers w w') {n : ℕ}
    (h : Atomic writers readers w n) : ∃ n', Atomic writers readers w' n' ∧
      Serially writers w.committed n w'.committed n' ∧ ∀ s, w.History s → w'.History s := by
  cases hstep with
  | @write i p hi hp => exact ⟨n, .put h.drawn hp fun j _ => h.fits j, .refl .., fun _ hs => hs⟩
  | @read i q hi hq =>
    exact ⟨n, .put h.drawn ⟨hq, fun _ _ _ ha => ha⟩ fun j _ => h.fits j, .refl .., fun _ hs => hs⟩
  | @lock i p hi hfree =>
    have hp : writers p := by
      have hfits := h.fits i
      rwa [hi] at hfits
    refine ⟨w.drawn, .put (Nat.le_refl _) ⟨rfl, hp, w.committed, rfl, rfl⟩ ?_,
      .lost (.refl ..) h.drawn, fun _ hs => hs⟩
    intro j _
    exact (h.fits j).other (by rw [hfree]; exact nofun) fun _ hs => hs
  | @select i p writes next s hi hs =>
    have hfits := h.fits i
    rw [hi] at hfits
    obtain ⟨hlock, hp, s', hs', hrun⟩ := hfits
    obtain rfl := Except.ok.inj (hs.symm.trans hs')
    exact ⟨n, .put h.drawn ⟨hlock, hp, s, hs, hrun⟩ fun j _ => h.fits j, .refl .., fun _ hs => hs⟩
  | @update i p writes write next s t hi hs ht =>
    have hfits := h.fits i
    rw [hi] at hfits
    obtain ⟨hlock, hp, s', hs', hrun⟩ := hfits
    obtain rfl := Except.ok.inj (hs.symm.trans hs')
    have hview : w.view (writes ++ [write]) = .ok t :=
      (foldlM_append_eq_ok ..).mpr ⟨s, hs, by rw [List.foldlM_cons, ht]; rfl⟩
    rw [Program.run, ht] at hrun
    exact ⟨n, .put h.drawn ⟨hlock, hp, t, hview, hrun⟩ fun j _ => h.fits j, .refl ..,
      fun _ hs => hs⟩
  | @draw i p writes next hi =>
    have hfits := h.fits i
    rw [hi] at hfits
    obtain ⟨hlock, hp, s, hs, hrun⟩ := hfits
    refine ⟨n, .put (Nat.le_succ_of_le h.drawn) ⟨hlock, hp, s, hs, hrun⟩ ?_, .refl ..,
      fun _ hs => hs⟩
    intro j hj
    exact (h.fits j).other (by rw [hlock]; exact fun heq => hj (Option.some.inj heq).symm)
      fun _ hs => hs
  | @commit i p writes a s hi hs =>
    have hfits := h.fits i
    rw [hi] at hfits
    obtain ⟨hlock, hp, s', hs', hrun⟩ := hfits
    obtain rfl := Except.ok.inj (hs.symm.trans hs')
    refine ⟨w.drawn, .put (Nat.le_refl _) hp ?_, .commit (.refl ..) hp hrun,
      fun _ hs => List.mem_cons_of_mem _ hs⟩
    intro j hj
    exact (h.fits j).other (by rw [hlock]; exact fun heq => hj (Option.some.inj heq).symm)
      fun _ hs => List.mem_cons_of_mem _ hs
  | @abort i p rest writes hi =>
    have hfits := h.fits i
    rw [hi] at hfits
    refine ⟨n, .put h.drawn trivial ?_, .refl .., fun _ hs => hs⟩
    intro j hj
    exact (h.fits j).other (by rw [hfits.1]; exact fun heq => hj (Option.some.inj heq).symm)
      fun _ hs => hs
  | @cancel i p hi => exact ⟨n, .put h.drawn trivial fun j _ => h.fits j, .refl .., fun _ hs => hs⟩
  | @look i q next hi =>
    have hfits := h.fits i
    rw [hi] at hfits
    refine ⟨n, .put h.drawn ⟨hfits.1, ?_⟩ fun j _ => h.fits j, .refl .., fun _ hs => hs⟩
    intro P hP a ha
    exact hfits.2 P hP a (.select w.committed (hP _ (List.mem_cons_self ..)) ha)
  | @answer i q a hi =>
    have hfits := h.fits i
    rw [hi] at hfits
    exact ⟨n, .put h.drawn ⟨hfits.1, hfits.2 _ (fun _ hs => hs) a (.done a)⟩ fun j _ => h.fits j,
      .refl .., fun _ hs => hs⟩
  | @refuse i q rest hi =>
    exact ⟨n, .put h.drawn trivial fun j _ => h.fits j, .refl .., fun _ hs => hs⟩

/-- What is committed changes only as a program ends, to what it leaves behind on its own. -/
theorem Step.committed {w w' : World ι S ε α β} (hstep : Step writers readers w w') {n : ℕ}
    (h : Atomic writers readers w n) : w'.committed = w.committed ∨
      ∃ i p a, writers p ∧ p.Runs w.committed n a w'.committed w'.drawn ∧
        w'.sessions i = .written p a := by
  cases hstep with
  | @commit i p writes a s hi hs =>
    have hfits := h.fits i
    rw [hi] at hfits
    obtain ⟨hlock, hp, s', hs', hrun⟩ := hfits
    obtain rfl := Except.ok.inj (hs.symm.trans hs')
    exact .inr ⟨i, p, a, hp, hrun, World.sessions_put ..⟩
  | _ => exact .inl rfl

theorem Reaches.atomic {w w' : World ι S ε α β} (hreach : Reaches writers readers w w') {n : ℕ}
    (h : Atomic writers readers w n) : ∃ n', Atomic writers readers w' n' ∧
      Serially writers w.committed n w'.committed n' ∧ ∀ s, w.History s → w'.History s := by
  induction hreach with
  | refl => exact ⟨n, h, .refl .., fun _ hs => hs⟩
  | tail _ hstep ih =>
    obtain ⟨m, hm, hserial, hhistory⟩ := ih
    obtain ⟨k, hk, hserial', hhistory'⟩ := hstep.atomic hm
    exact ⟨k, hk, hserial.trans hserial', fun s hs => hhistory' s (hhistory s hs)⟩

/-- Every state that was committed was so at a moment of the run. -/
theorem Reaches.history {s₀ : S} {n : ℕ} {w : World ι S ε α β}
    (h : Reaches writers readers (World.start s₀ n) w) {s : S} (hs : w.History s) :
    ∃ v, Reaches writers readers (World.start s₀ n) v ∧ Reaches writers readers v w ∧
      v.committed = s := by
  induction h with
  | refl => exact ⟨_, .refl, .refl, (List.mem_singleton.mp hs).symm⟩
  | @tail u u' hreach hstep ih =>
    have hsplit : s = u'.committed ∨ u.History s := by
      cases hstep with
      | commit => exact List.mem_cons.mp hs
      | _ => exact .inr hs
    rcases hsplit with rfl | hs
    · exact ⟨u', hreach.tail hstep, .refl, rfl⟩
    · obtain ⟨v, hv, hv', hcommitted⟩ := ih hs
      exact ⟨v, hv, hv'.tail hstep, hcommitted⟩

/-- What a query has done since its first statement, if its statements saw states of a kind. -/
def Session.Since (P : S → Prop) (q : Query S ε β) : Session S ε α β → Prop
  | .reading q' rest => q' = q ∧
      ∀ Q : S → Prop, (∀ s, P s → Q s) → ∀ b, rest.Reads Q b → q.Reads Q b
  | .answered q' b => q' = q ∧ q.Reads P b
  | .refused => True
  | .idle | .waiting _ | .running _ _ _ | .written _ _ => False

theorem Session.Since.mono {P Q : S → Prop} (hPQ : ∀ s, P s → Q s) {q : Query S ε β}
    {session : Session S ε α β} (h : session.Since P q) : session.Since Q q := by
  cases session with
  | reading q' rest => exact ⟨h.1, fun R hQR => h.2 R fun s hs => hQR s (hPQ s hs)⟩
  | answered q' b => exact ⟨h.1, h.2.mono hPQ⟩
  | refused => trivial
  | idle | waiting | running | written => exact h

/-- A statement of any session keeps what a query has done. -/
theorem Step.since {w w' : World ι S ε α β} (hstep : Step writers readers w w') {P : S → Prop}
    (hP : P w.committed) {q : Query S ε β} {i : ι} (h : (w.sessions i).Since P q) :
    (w'.sessions i).Since P q := by
  -- the session takes the step itself, or keeps its place
  have hput : ∀ (v : World ι S ε α β) (j : ι) (session : Session S ε α β),
      v.sessions = w.sessions → (j = i → session.Since P q) →
        ((v.put j session).sessions i).Since P q := by
    intro v j session hv hself
    by_cases hj : i = j
    · subst hj
      rw [World.sessions_put]
      exact hself rfl
    · rw [World.sessions_put_of_ne _ _ hj, hv]
      exact h
  cases hstep with
  | @look j q' next hj =>
    refine hput _ _ _ rfl fun heq => ?_
    subst heq
    rw [hj] at h
    exact ⟨h.1, fun Q hPQ b hb => h.2 Q hPQ b (.select w.committed (hPQ _ hP) hb)⟩
  | @answer j q' b hj =>
    refine hput _ _ _ rfl fun heq => ?_
    subst heq
    rw [hj] at h
    exact ⟨h.1, h.2 P (fun _ hs => hs) b (.done b)⟩
  | refuse => exact hput _ _ _ rfl fun _ => trivial
  | write hj | read hj | lock hj | select hj | update hj | draw hj | commit hj | abort hj
  | cancel hj =>
    refine hput _ _ _ rfl fun heq => ?_
    subst heq
    rw [hj] at h
    exact h.elim

/-- What is committed from one moment of a run to another. -/
def Between (writers : Program S ε α → Prop) (readers : Query S ε β → Prop)
    (w w' : World ι S ε α β) (s : S) : Prop :=
  ∃ v, Reaches writers readers w v ∧ Reaches writers readers v w' ∧ v.committed = s

/-- A query that was answered saw what was committed while it ran. -/
theorem Reaches.answered {w w' : World ι S ε α β} (h : Reaches writers readers w w') {i : ι}
    {q q' : Query S ε β} {b : β} (hw : w.sessions i = .reading q q)
    (hw' : w'.sessions i = .answered q' b) :
    q' = q ∧ q.Reads (Between writers readers w w') b := by
  have hsince : (w'.sessions i).Since (Between writers readers w w') q := by
    clear hw'
    induction h with
    | refl =>
      rw [hw]
      exact ⟨rfl, fun Q _ b hb => hb⟩
    | @tail u u' hreach hstep ih =>
      refine hstep.since ⟨u, hreach, .single hstep, rfl⟩ (ih.mono ?_)
      rintro s ⟨v, hv, hv', hcommitted⟩
      exact ⟨v, hv, hv'.tail hstep, hcommitted⟩
  rw [hw'] at hsince
  exact hsince

/-- What holds first and not at the end stops holding at one step. -/
theorem Reaches.stops {w w' : World ι S ε α β} (h : Reaches writers readers w w')
    {P : World ι S ε α β → Prop} (hw : P w) (hw' : ¬ P w') : ∃ u u', Reaches writers readers w u ∧
      Step writers readers u u' ∧ Reaches writers readers u' w' ∧ P u ∧ ¬ P u' := by
  induction h with
  | refl => exact absurd hw hw'
  | @tail u u' hreach hstep ih =>
    by_cases hu : P u
    · exact ⟨u, u', hreach, hstep, .refl, hu, hw'⟩
    · obtain ⟨v, v', hv, hv', hreach', hPv, hPv'⟩ := ih hu
      exact ⟨v, v', hv, hv', hreach'.tail hstep, hPv, hPv'⟩

/-- A program that holds the lock reaches its end where it would on its own. -/
theorem reaches_done {i : ι} {p rest : Program S ε α} {w : World ι S ε α β}
    {writes : List (S → Except ε S)} {s t : S} {a : α} {m : ℕ}
    (hi : w.sessions i = .running p writes rest) (hs : w.view writes = .ok s)
    (hrun : rest.Runs s w.drawn a t m) :
    ∃ w' writes', Reaches writers readers w w' ∧ w'.sessions i = .running p writes' (.done a) ∧
      w'.view writes' = .ok t ∧ w'.committed = w.committed ∧ w'.drawn = m ∧
      ∀ j, j ≠ i → w'.sessions j = w.sessions j := by
  induction rest generalizing w writes s with
  | done b =>
    obtain ⟨rfl, rfl, rfl⟩ := (Program.runs_pure ..).mp hrun
    exact ⟨w, writes, .refl, hi, hs, rfl, rfl, fun _ _ => rfl⟩
  | fail e => exact nomatch hrun
  | select next ih =>
    have hstep : Step writers readers w (w.put i (.running p writes (next s))) := .select hi hs
    obtain ⟨w', writes', hreach, hdone, hview, hcommitted, hdrawn, hothers⟩ :=
      ih s (World.sessions_put ..) hs hrun
    refine ⟨w', writes', .head hstep hreach, hdone, hview, hcommitted, hdrawn, fun j hj => ?_⟩
    rw [hothers j hj, World.sessions_put_of_ne _ _ hj]
  | update write next ih =>
    obtain ⟨s', hs', hrun⟩ := (Program.runs_update ..).mp hrun
    have hstep : Step writers readers w (w.put i (.running p (writes ++ [write]) next)) :=
      .update hi hs hs'
    have hview' : w.view (writes ++ [write]) = .ok s' :=
      (foldlM_append_eq_ok ..).mpr ⟨s, hs, by rw [List.foldlM_cons, hs']; rfl⟩
    obtain ⟨w', writes', hreach, hdone, hview, hcommitted, hdrawn, hothers⟩ :=
      ih (World.sessions_put ..) hview' hrun
    refine ⟨w', writes', .head hstep hreach, hdone, hview, hcommitted, hdrawn, fun j hj => ?_⟩
    rw [hothers j hj, World.sessions_put_of_ne _ _ hj]
  | draw next ih =>
    have hstep : Step writers readers w ({ w with drawn := w.drawn + 1 }.put i
        (.running p writes (next (w.drawn + 1)))) := .draw hi
    have hrun : (next (w.drawn + 1)).Runs s (w.drawn + 1) a t m := hrun
    obtain ⟨w', writes', hreach, hdone, hview, hcommitted, hdrawn, hothers⟩ :=
      ih (w.drawn + 1) (w := { w with drawn := w.drawn + 1 }.put i _) (World.sessions_put ..) hs
        hrun
    refine ⟨w', writes', .head hstep hreach, hdone, hview, hcommitted, hdrawn, fun j hj => ?_⟩
    rw [hothers j hj, World.sessions_put_of_ne _ _ hj]

/-- A session may run its program to the end before any other goes on. -/
theorem reaches_of_runs {i : ι} {p : Program S ε α} {w : World ι S ε α β} {t : S} {a : α} {m : ℕ}
    (hi : w.sessions i = .idle) (hlock : w.lock = none) (hp : writers p)
    (hrun : p.Runs w.committed w.drawn a t m) :
    ∃ w', Reaches writers readers w w' ∧ w'.committed = t ∧ w'.drawn = m ∧ w'.lock = none ∧
      w'.sessions i = .written p a ∧ ∀ j, j ≠ i → w'.sessions j = w.sessions j := by
  have hwrite : Step writers readers w (w.put i (.waiting p)) := .write hi hp
  have hlocked : Step writers readers (w.put i (.waiting p))
      ({ w.put i (.waiting p) with lock := some i }.put i (.running p [] p)) :=
    .lock (World.sessions_put ..) hlock
  obtain ⟨w', writes', hreach, hdone, hview, hcommitted, hdrawn, hothers⟩ :=
    reaches_done (w := { w.put i (.waiting p) with lock := some i }.put i (.running p [] p))
      (World.sessions_put ..) rfl hrun
  have hcommit : Step writers readers w'
      ({ w' with committed := t, past := w'.committed :: w'.past, lock := none }.put i
        (.written p a)) := .commit hdone hview
  refine ⟨_, .head hwrite (.head hlocked (hreach.tail hcommit)), rfl, hdrawn, rfl,
    World.sessions_put .., fun j hj => ?_⟩
  rw [World.sessions_put_of_ne _ _ hj]
  show w'.sessions j = w.sessions j
  rw [hothers j hj, World.sessions_put_of_ne _ _ hj]
  exact World.sessions_put_of_ne w (.waiting p) hj

/-- A session may have its query answered before any other goes on. -/
theorem reaches_answered {i : ι} {q rest : Query S ε β} {w : World ι S ε α β} {b : β}
    (hi : w.sessions i = .reading q rest) (hrest : rest.eval w.committed = .ok b) :
    ∃ w', Reaches writers readers w w' ∧ w'.sessions i = .answered q b := by
  induction rest generalizing w with
  | done a =>
    obtain rfl := Except.ok.inj hrest
    exact ⟨_, .single (.answer hi), World.sessions_put ..⟩
  | fail e => exact nomatch hrest
  | select next ih =>
    obtain ⟨w', hreach, hanswered⟩ := ih w.committed
      (w := w.put i (.reading q (next w.committed))) (World.sessions_put ..) hrest
    exact ⟨w', .head (.look hi) hreach, hanswered⟩

/-- Programs one after the other, each of which succeeds. -/
def runAll : List (Program S ε α) → S → ℕ → Except ε (S × ℕ)
  | [], s, n => .ok (s, n)
  | p :: rest, s, n =>
    match p.run s n with
    | (.ok (_, t), m) => runAll rest t m
    | (.error e, _) => .error e

/-- What programs do one after the other is one way to interleave them. -/
theorem reaches_of_runAll {writers : Program S ε α → Prop} {readers : Query S ε β → Prop}
    {ps : List (Program S ε α)} (hps : ∀ p ∈ ps, writers p) {s t : S} {n m : ℕ}
    (h : runAll ps s n = .ok (t, m)) :
    ∃ w : World ℕ S ε α β, Reaches writers readers (World.start s n) w ∧ w.committed = t ∧
      w.drawn = m ∧ ∃ k, ∀ j, k ≤ j → w.sessions j = .idle := by
  -- sessions from `k` on have not begun
  have hgeneral : ∀ (k : ℕ) (w : World ℕ S ε α β), (∀ j, k ≤ j → w.sessions j = .idle) →
      w.lock = none → w.committed = s → w.drawn = n → ∃ w' : World ℕ S ε α β,
        Reaches writers readers w w' ∧ w'.committed = t ∧ w'.drawn = m ∧
          ∃ k, ∀ j, k ≤ j → w'.sessions j = .idle := by
    induction ps generalizing s n with
    | nil =>
      intro k w hidle _ hs hn
      rw [runAll, Except.ok.injEq, Prod.mk.injEq] at h
      exact ⟨w, .refl, hs.trans h.1, hn.trans h.2, k, hidle⟩
    | cons p rest ih =>
      intro k w hidle hlock hs hn
      rw [runAll] at h
      cases hrun : p.run s n with
      | mk result n' =>
        rw [hrun] at h
        cases result with
        | error e => exact nomatch h
        | ok result =>
          obtain ⟨a, s'⟩ := result
          subst hs hn
          obtain ⟨w₁, hreach, hs₁, hn₁, hlock₁, -, hothers⟩ := reaches_of_runs (i := k)
            (hidle k (Nat.le_refl k)) hlock (hps p (List.mem_cons_self ..)) hrun
          have hidle₁ : ∀ j, k + 1 ≤ j → w₁.sessions j = .idle := by
            intro j hj
            rw [hothers j (by omega)]
            exact hidle j (by omega)
          obtain ⟨w', hreach', hdone⟩ := ih (fun q hq => hps q (List.mem_cons_of_mem _ hq)) h
            (k + 1) w₁ hidle₁ hlock₁ hs₁ hn₁
          exact ⟨w', hreach.trans hreach', hdone⟩
  exact hgeneral 0 _ (fun _ _ => rfl) rfl rfl rfl

end

end DirectTrade.Library.Serial
