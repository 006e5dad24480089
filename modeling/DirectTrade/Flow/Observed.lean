import DirectTrade.Flow.Stock

/-!
What the marks of a ledger say of the facts applied to it. A fact that is applied is
remembered under its observation; from then on the same fact is met as a duplicate and
any other under that observation as a conflict, or both as too old to tell.
-/

namespace DirectTrade.Flow

open Library Outcome

variable {σ φ : Type}

/-- The facts applied so far, the latest first, after one more was given. -/
def Result.noted (fact : φ) (done : List φ) : Result σ → List φ
  | .ok false _ => fact :: done
  | _ => done

def Result.isNew : Result σ → Bool
  | .ok false _ => true
  | _ => false

theorem Result.eq_of_isNew {r : Result σ} (h : r.isNew = true) : r = .ok false r.state := by
  cases r with
  | failed code message state => cases h
  | ok duplicate state =>
    cases duplicate with
    | true => cases h
    | false => rfl

/-- Met as known: a duplicate, or too old to tell, and nothing changed. -/
def Result.IsRepeat (state : σ) : Result σ → Prop
  | .ok duplicate next => duplicate = true ∧ next = state
  | .failed code _ next => code = .staleObservation ∧ next = state

/-- Met as another fact under a known observation, unless it was not looked up at all. -/
def Result.IsConflict (state : σ) (admitted : Checked Unit) : Result σ → Prop
  | .ok _ _ => False
  | .failed code message next => next = state ∧
      (code = .observationConflict ∨ code = .staleObservation ∨ admitted = .error ⟨code, message⟩)

/-- The marks of every source are those of the facts applied: none twice, and in the window
below the greatest sequence exactly those accepted, with their digests. -/
structure Observed (observation : φ → Observation) (digest : φ → Digest)
    (sources : Dict String Source) (done : List φ) : Prop where
  once : (done.map observation).Nodup
  greatest : ∀ f ∈ done,
    (observation f).sequence ≤ (marksOf sources (observation f).sourceId).highWater
  reached : ∀ i, (∀ f ∈ done, (observation f).sourceId ≠ i) ∧ (marksOf sources i).highWater = 0 ∨
    ∃ f ∈ done, observation f = ⟨i, (marksOf sources i).highWater⟩
  recent : ∀ i n d, (marksOf sources i).recent.get? n = some d ↔
    (∃ f ∈ done, observation f = ⟨i, n⟩ ∧ digest f = d) ∧
      (marksOf sources i).highWater < n + observationWindow

/-- A fact as it is remembered. -/
def seen (observation : φ → Observation) (digest : φ → Digest) (f : φ) : String × ℕ × Digest :=
  ((observation f).sourceId, (observation f).sequence, digest f)

variable {observation : φ → Observation} {digest : φ → Digest} {sources next : Dict String Source}
  {done : List φ} {fact other : φ}

theorem mem_seen {i : String} {n : ℕ} {d : Digest} :
    (i, n, d) ∈ done.map (seen observation digest) ↔
      ∃ f ∈ done, observation f = ⟨i, n⟩ ∧ digest f = d := by
  rw [List.mem_map]
  apply exists_congr
  intro f
  unfold seen
  obtain ⟨source, sequence⟩ := observation f
  simp only [Prod.mk.injEq, Observation.mk.injEq, and_assoc]

theorem acceptedFrom_seen (observation : φ → Observation) (digest : φ → Digest)
    (hfact : fact ∈ done) :
    ((observation fact).sequence, digest fact) ∈
      acceptedFrom (observation fact).sourceId (done.map (seen observation digest)) := by
  rw [mem_acceptedFrom]
  exact List.mem_map_of_mem hfact

/-- What is recalled of the facts applied is what the marks say of them. -/
theorem observed_of_recalls
    (h : Recalls observationWindow sources (done.map (seen observation digest))) :
    Observed observation digest sources done where
  once := by
    have honce := h.once
    rw [List.map_map] at honce
    have hpairs : (fun e : String × ℕ × Digest => (e.1, e.2.1)) ∘ seen observation digest =
        (fun o : Observation => (o.sourceId, o.sequence)) ∘ observation := rfl
    rw [hpairs, ← List.map_map] at honce
    exact honce.of_map _
  greatest := by
    intro f hf
    apply (h (observation f).sourceId).below
    exact List.mem_map_of_mem (acceptedFrom_seen observation digest hf)
  reached := by
    intro i
    cases (h i).reached with
    | inl hnone =>
      left
      refine ⟨?_, hnone.2⟩
      intro f hf hi
      have hmem := acceptedFrom_seen observation digest hf
      rw [hi, hnone.1] at hmem
      cases hmem
    | inr hmem =>
      right
      obtain ⟨e, he, heq⟩ := List.mem_map.mp hmem
      obtain ⟨f, hf, hobservation, -⟩ := mem_seen.mp (mem_acceptedFrom.mp he)
      refine ⟨f, hf, ?_⟩
      rw [hobservation, ← heq]
  recent := by
    intro i n d
    rw [(h i).recent, mem_acceptedFrom, mem_seen]

/-- An applied fact is remembered. -/
theorem Recalls.observed (observation : φ → Observation) (digest : φ → Digest) (fact : φ)
    (h : Recalls observationWindow sources (done.map (seen observation digest)))
    (hfresh : observe sources (observation fact) (digest fact) = .ok .fresh)
    (hmark : mark sources (observation fact) (digest fact) = .ok next) :
    Recalls observationWindow next ((fact :: done).map (seen observation digest)) := by
  unfold mark at hmark
  simp only [bind_eq_ok, pure_eq_ok] at hmark
  obtain ⟨_, -, rfl⟩ := hmark
  apply h.record
  unfold observe at hfresh
  split at hfresh
  next hjudge => exact hjudge
  all_goals cases hfresh

/-- An applied fact that arrives again. -/
theorem observe_again
    (h : Recalls observationWindow sources (done.map (seen observation digest)))
    (hfact : fact ∈ done) :
    observe sources (observation fact) (digest fact) = .ok .duplicate ∨
      ∃ message, observe sources (observation fact) (digest fact) =
        .error ⟨.staleObservation, message⟩ := by
  unfold observe
  cases (h (observation fact).sourceId).again (acceptedFrom_seen observation digest hfact) with
  | inl hduplicate =>
    left
    rw [hduplicate]
  | inr hstale =>
    right
    rw [hstale]
    exact ⟨_, rfl⟩

/-- Another fact that arrives under the observation of an applied one. -/
theorem observe_other
    (h : Recalls observationWindow sources (done.map (seen observation digest)))
    (hfact : fact ∈ done) (hsame : observation other = observation fact)
    (hdigest : digest other ≠ digest fact) :
    ∃ code message, observe sources (observation other) (digest other) = .error ⟨code, message⟩ ∧
      (code = .observationConflict ∨ code = .staleObservation) := by
  have hmem := acceptedFrom_seen observation digest hfact
  unfold observe
  rw [hsame]
  cases (h (observation fact).sourceId).other hmem hdigest with
  | inl hconflict =>
    rw [hconflict]
    exact ⟨_, _, rfl, .inl rfl⟩
  | inr hstale =>
    rw [hstale]
    exact ⟨_, _, rfl, .inr rfl⟩

section Answers

variable {state : σ} {admitted : Checked Unit} {change : Checked σ}

/-- How a reducer answers: what it admits is looked up before anything is changed. -/
def respond (state : σ) (admitted : Checked Unit) (sighting : Checked Sighting)
    (change : Checked σ) : Result σ :=
  answer state do
    admitted
    match ← sighting with
    | .duplicate => pure (true, state)
    | .fresh => do
      let next ← change
      pure (false, next)

theorem respond_eq_new {sighting : Checked Sighting} {t : σ}
    (h : respond state admitted sighting change = .ok false t) :
    admitted = .ok () ∧ sighting = .ok .fresh ∧ change = .ok t := by
  unfold respond at h
  rw [answer_eq_ok, bind_eq_ok] at h
  obtain ⟨_, hadmitted, h⟩ := h
  rw [bind_eq_ok] at h
  obtain ⟨s, hs, h⟩ := h
  cases s with
  | duplicate => cases h
  | fresh =>
    simp only [bind_eq_ok, pure_eq_ok, Prod.mk.injEq, true_and] at h
    obtain ⟨t', ht, rfl⟩ := h
    exact ⟨hadmitted, hs, ht⟩

/-- Unless a fact is new, the state stays as it was. -/
theorem respond_cases (state : σ) (admitted : Checked Unit) (sighting : Checked Sighting)
    (change : Checked σ) :
    (∃ t, respond state admitted sighting change = .ok false t) ∨
      ((respond state admitted sighting change).state = state ∧
        ∀ (fact : φ) done, (respond state admitted sighting change).noted fact done = done) := by
  unfold respond
  cases hadmitted : admitted with
  | error refusal => exact .inr ⟨rfl, fun _ _ => rfl⟩
  | ok _ =>
    cases hsighting : sighting with
    | error refusal => exact .inr ⟨rfl, fun _ _ => rfl⟩
    | ok s =>
      cases s with
      | duplicate => exact .inr ⟨rfl, fun _ _ => rfl⟩
      | fresh =>
        cases hchange : change with
        | error refusal => exact .inr ⟨rfl, fun _ _ => rfl⟩
        | ok t => exact .inl ⟨t, rfl⟩

theorem respond_again (observation : φ → Observation) (digest : φ → Digest) (fact : φ)
    (h : Recalls observationWindow sources (done.map (seen observation digest)))
    (hfact : fact ∈ done) (hadmitted : admitted = .ok ()) :
    (respond state admitted (observe sources (observation fact) (digest fact))
      change).IsRepeat state := by
  subst hadmitted
  unfold respond
  cases observe_again h hfact with
  | inl hduplicate =>
    rw [hduplicate]
    exact ⟨rfl, rfl⟩
  | inr hstale =>
    obtain ⟨message, hstale⟩ := hstale
    rw [hstale]
    exact ⟨rfl, rfl⟩

theorem respond_other (observation : φ → Observation) (digest : φ → Digest) (fact other : φ)
    (h : Recalls observationWindow sources (done.map (seen observation digest)))
    (hfact : fact ∈ done) (hsame : observation other = observation fact)
    (hdigest : digest other ≠ digest fact) :
    (respond state admitted (observe sources (observation other) (digest other))
      change).IsConflict state admitted := by
  obtain ⟨code, message, hobserve, hcode⟩ := observe_other h hfact hsame hdigest
  unfold respond
  rw [hobserve]
  cases admitted with
  | error refusal => exact ⟨rfl, .inr (.inr rfl)⟩
  | ok _ =>
    refine ⟨rfl, ?_⟩
    cases hcode with
    | inl hconflict => exact .inl hconflict
    | inr hstale => exact .inr (.inl hstale)

end Answers

end DirectTrade.Flow
