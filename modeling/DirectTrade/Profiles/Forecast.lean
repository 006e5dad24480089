import DirectTrade.Profiles.Fields
import Mathlib.Data.String.Basic

/-!
Forecasts: the rules of a body, and what a revision must keep of the one before it. A revision
projects the same thing at no earlier time, and its status never moves back.
-/

namespace DirectTrade.Profiles

open Library Outcome

inductive ForecastStatus where
  | draft
  | published
  | withdrawn
  deriving DecidableEq

def ForecastStatus.text : ForecastStatus → String
  | .draft => "draft"
  | .published => "published"
  | .withdrawn => "withdrawn"

def forecastStatuses : List ForecastStatus := [.draft, .published, .withdrawn]

def checkSubject (s : Option Json) : List Issue :=
  let field := fun name => s.bind (·.member? name)
  if exact s ["product_id", "description"] && uuidOrNull (field "product_id") &&
      orNull (isText 500) (field "description") then
    issueUnless (field "product_id" ≠ some .null || field "description" ≠ some .null) "$.subject"
      "a product root or a description is required"
  else [⟨"$.subject", "product root and description, each or null, required"⟩]

def checkHorizon (horizon : Option Json) : List Issue :=
  let field := fun name => horizon.bind (·.member? name)
  if exact horizon ["start", "end"] && isLocalDate (field "start") &&
      isLocalDate (field "end") then
    match field "start", field "end" with
    | some (.str start), some (.str last) =>
      issueUnless (decide (start < last)) "$.horizon" "horizon must end after it starts"
    | _, _ => []
  else [⟨"$.horizon", "start and end dates required"⟩]

def checkForecastQuantity (q : Option Json) : List Issue :=
  let field := fun name => q.bind (·.member? name)
  if exact q ["amount", "unit"] then
    (match amount 3 (field "amount") with
      | none => [⟨"$.quantity.amount", "three-place decimal required"⟩]
      | some n => issueUnless (0 ≤ n) "$.quantity.amount" "nonnegative quantity required") ++
    checkUnit (field "unit") "$.quantity.unit"
  else [⟨"$.quantity", "amount and unit required"⟩]

def validateForecast (b : Json) : Attempt (List Issue) :=
  if exact b ["subject", "party_id", "direction", "horizon", "as_of", "method", "quantity",
      "confidence", "scenario", "status"] then do
    let asOf ← isInstant (b.member? "as_of")
    pure (checkSubject (b.member? "subject") ++
      issueUnless (uuidOrNull (b.member? "party_id")) "$.party_id"
        "party root or null required" ++
      issueUnless (oneOf ["demand", "supply"] (b.member? "direction")) "$.direction"
        "demand or supply required" ++
      checkHorizon (b.member? "horizon") ++
      issueUnless asOf "$.as_of" "UTC millisecond instant required" ++
      issueUnless (isText 120 (b.member? "method")) "$.method"
        "the method that produced the figure is required" ++
      checkForecastQuantity (b.member? "quantity") ++
      issueUnless (orNull (isIntegerIn 0 100) (b.member? "confidence")) "$.confidence"
        "0-100 or null required" ++
      issueUnless (orNull (isText 120) (b.member? "scenario")) "$.scenario"
        "bounded scenario or null required" ++
      issueUnless (oneOf (forecastStatuses.map (·.text)) (b.member? "status")) "$.status"
        "draft, published or withdrawn required")
  else pure [⟨"$", "exact forecast fields required"⟩]

/-- The members of a forecast that no revision changes. -/
def forecastConstants : List String := ["subject", "party_id", "direction", "horizon"]

/-- `FORECAST_STATUSES.indexOf(status)`. -/
def forecastRank (status : String) : ℤ :=
  match (forecastStatuses.map (·.text)).idxOf? status with
  | some i => i
  | none => -1

/-- Both bodies are assumed valid, so what is read here are texts. -/
def checkProgress (previous next : Json) : Attempt (List Issue) :=
  match previous.member? "as_of", next.member? "as_of", previous.member? "status",
    next.member? "status" with
  | some (.str asOf), some (.str newer), some (.str before), some (.str after) =>
    pure (issueUnless (!decide (newer < asOf)) "$.as_of"
        "a revision is never older than what it revises" ++
      issueUnless (!decide (forecastRank after < forecastRank before)) "$.status"
        ("no transition from " ++ before ++ " to " ++ after))
  | _, _, _, _ => .error .fault

def checkForecastContinuity (previous next : Json) : Attempt (List Issue) := do
  let progress ← checkProgress previous next
  pure (forecastConstants.flatMap (fun key =>
      issueUnless (sameMember previous next key) ("$." ++ key)
        (key ++ " is immutable; a different one is a new forecast")) ++ progress)

/-- The status of a body, when it is one of the profile's. -/
def forecastStatus (b : Json) : Option ForecastStatus :=
  ((b.member? "status").bind Json.str?).bind fun s => forecastStatuses.find? (·.text = s)

/-- The place of a status on the way from a draft to its withdrawal. -/
def ForecastStatus.rank : ForecastStatus → ℕ
  | .draft => 0
  | .published => 1
  | .withdrawn => 2

theorem forecastRank_text (status : ForecastStatus) : forecastRank status.text = status.rank := by
  cases status <;> decide

theorem forecastStatus_eq_some {b : Json} {status : ForecastStatus} :
    forecastStatus b = some status ↔ b.member? "status" = some (.str status.text) := by
  have htext : ∀ s, forecastStatuses.find? (·.text = s) = some status ↔ s = status.text := by
    intro s
    constructor
    · intro h
      have hfound : status.text = s := by simpa using List.find?_some h
      exact hfound.symm
    · intro h
      subst h
      cases status <;> decide
  unfold forecastStatus
  cases hmember : b.member? "status" with
  | none => simp
  | some v => cases v <;> simp [Json.str?, htext]

/-- A body without issues has one of the statuses. -/
theorem forecastStatus_of_valid {b : Json} (h : validateForecast b = .ok []) :
    ∃ status, forecastStatus b = some status := by
  unfold validateForecast at h
  split at h
  next =>
    simp only [bind_eq_ok, pure_eq_ok, List.append_eq_nil_iff, issueUnless_eq_nil] at h
    obtain ⟨asOf, -, -, hstatus⟩ := h
    unfold oneOf textOf at hstatus
    split at hstatus
    next s hs =>
      have hmem : s ∈ forecastStatuses.map (·.text) := by simpa using hstatus
      obtain ⟨status, -, htext⟩ := List.mem_map.mp hmem
      exact ⟨status, forecastStatus_eq_some.mpr (by rw [hs, htext])⟩
    next => exact absurd hstatus Bool.false_ne_true
  next => exact absurd (Except.ok.inj h) (List.cons_ne_nil _ _)

/-- What a later revision keeps of a forecast: its time and its status never move back. -/
structure KeepsForecast (previous next : Json) : Prop where
  constant : ∀ key ∈ forecastConstants,
    canonical (next.member? key) = canonical (previous.member? key)
  asOf : ∃ older newer, previous.member? "as_of" = some (.str older) ∧
    next.member? "as_of" = some (.str newer) ∧ older ≤ newer
  status : ∃ before after, forecastStatus previous = some before ∧
    forecastStatus next = some after ∧ before.rank ≤ after.rank

theorem keepsForecast_of_continuity {previous next : Json}
    (valid : validateForecast previous = .ok []) (valid' : validateForecast next = .ok [])
    (h : checkForecastContinuity previous next = .ok []) : KeepsForecast previous next := by
  simp only [checkForecastContinuity, bind_eq_ok, pure_eq_ok, List.append_eq_nil_iff,
    List.flatMap_eq_nil_iff, issueUnless_eq_nil] at h
  obtain ⟨progress, hprogress, hconstant, rfl⟩ := h
  obtain ⟨before, hbefore⟩ := forecastStatus_of_valid valid
  obtain ⟨after, hafter⟩ := forecastStatus_of_valid valid'
  have hbeforeText := forecastStatus_eq_some.mp hbefore
  have hafterText := forecastStatus_eq_some.mp hafter
  unfold checkProgress at hprogress
  rw [hbeforeText, hafterText] at hprogress
  split at hprogress
  next older newer _ _ holder hnewer hfirst hsecond =>
    injection hfirst with hfirst
    injection hsecond with hsecond
    injection hfirst with hfirst
    injection hsecond with hsecond
    subst hfirst hsecond
    simp only [pure_eq_ok, List.append_eq_nil_iff, issueUnless_eq_nil, Bool.not_eq_true',
      decide_eq_false_iff_not, not_lt, forecastRank_text, Nat.cast_le] at hprogress
    refine ⟨?_, ⟨older, newer, holder, hnewer, hprogress.1⟩,
      ⟨before, after, hbefore, hafter, hprogress.2⟩⟩
    intro key hkey
    have hsame := hconstant key hkey
    rw [sameMember, decide_eq_true_eq] at hsame
    exact hsame.symm
  next => cases hprogress

theorem KeepsForecast.trans {a b c : Json} (h : KeepsForecast a b) (h' : KeepsForecast b c) :
    KeepsForecast a c where
  constant key hkey := (h'.constant key hkey).trans (h.constant key hkey)
  asOf := by
    obtain ⟨first, second, hfirst, hsecond, hle⟩ := h.asOf
    obtain ⟨second', third, hsecond', hthird, hle'⟩ := h'.asOf
    have hmiddle : second = second' := by
      rw [hsecond] at hsecond'
      injection hsecond' with hsame
      injection hsame
    subst hmiddle
    exact ⟨first, third, hfirst, hthird, hle.trans hle'⟩
  status := by
    obtain ⟨first, second, hfirst, hsecond, hle⟩ := h.status
    obtain ⟨second', third, hsecond', hthird, hle'⟩ := h'.status
    have hmiddle : second = second' := Option.some.inj (hsecond.symm.trans hsecond')
    subst hmiddle
    exact ⟨first, third, hfirst, hthird, hle.trans hle'⟩

/-- A forecast from its first revision on. -/
def ForecastHistory (revisions : List Json) : Prop := revisions.Pairwise KeepsForecast

theorem forecastHistory {revisions : List Json}
    (valid : ∀ b ∈ revisions, validateForecast b = .ok [])
    (linked : revisions.IsChain fun a b => checkForecastContinuity a b = .ok []) :
    ForecastHistory revisions := by
  have : Trans KeepsForecast KeepsForecast KeepsForecast := ⟨KeepsForecast.trans⟩
  apply List.isChain_iff_pairwise.mp
  refine linked.imp_of_mem_imp ?_
  intro a b ha hb h
  exact keepsForecast_of_continuity (valid a ha) (valid b hb) h

end DirectTrade.Profiles
