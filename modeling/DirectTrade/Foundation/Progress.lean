import DirectTrade.Foundation.Coordinator
import DirectTrade.Foundation.Reservations

/-!
What a coordinator knows of its legs. Whatever it plans and hears in any order, each request it
sent belongs to a leg, nothing is undone before compensation, and a leg's progress is backed
by the receipt of its provider.
-/

namespace DirectTrade.Foundation.Commitments

open Library Outcome

structure Parsed (s : CoordinatorState) : Prop where
  legIds : (s.legs.map fun l => l.legId).Nodup
  holdIds : (s.legs.map fun l => l.holdId).Nodup
  phase : parsePhase s = .ok ()
  pending : ∀ r ∈ s.pending.toList, parsePending s r = .ok ()

theorem parsed_of_parseCoordinator {s : CoordinatorState} {u : Unit}
    (h : parseCoordinator s = .ok u) : Parsed s := by
  simp only [parseCoordinator, unique, bind_eq_ok, each_eq_ok, demand_eq_ok] at h
  obtain ⟨_, -, _, -, _, -, _, hlegs, _, -, _, hholds, _, -, _, -, _, -, _, hphase, _, hpending,
    -⟩ := h
  exact ⟨hlegs, hholds, hphase, hpending⟩

theorem Parsed.committed {s : CoordinatorState} (h : Parsed s) (hphase : s.phase = .committed) :
    s.pending = none ∧ ∀ l ∈ s.legs, l.status = .accepted := by
  have hparsed := h.phase
  simp only [parsePhase, bind_eq_ok, demand_eq_ok] at hparsed
  obtain ⟨_, -, _, -, _, hcommitted, -⟩ := hparsed
  exact hcommitted hphase

theorem Parsed.compensated {s : CoordinatorState} (h : Parsed s)
    (hphase : s.phase = .compensated) : s.pending = none ∧ ∀ l ∈ s.legs,
      l.status ∈ [LegStatus.planned, .released, .cancelled, .rejected] := by
  have hparsed := h.phase
  simp only [parsePhase, bind_eq_ok, demand_eq_ok] at hparsed
  obtain ⟨_, -, _, -, _, -, _, hcompensated, -⟩ := hparsed
  exact hcompensated hphase

/-- The hold that a command is about. -/
def ProviderPayload.holdId? : ProviderPayload → Option Uuid
  | .quotePublish _ => none
  | .hold holdId _ _ => some holdId
  | .confirm holdId _ => some holdId
  | .release holdId _ => some holdId
  | .cancel holdId _ => some holdId
  | .fulfill holdId _ _ _ _ _ => some holdId
  | .dispute holdId _ _ _ => some holdId

@[simp] theorem legAction_legPayload (l : CoordinatorLegSpec) (a : LegAction) :
    (legPayload l a).action.legAction? = some a := by
  cases a <;> rfl

@[simp] theorem holdId_legPayload (l : CoordinatorLegSpec) (a : LegAction) :
    (legPayload l a).holdId? = some l.holdId := by
  cases a <;> rfl

/-- A request tells its action and its hold. -/
theorem legRequest_inj {l d : CoordinatorLegSpec} {a b : LegAction}
    (h : legRequest l a = legRequest d b) : a = b ∧ l.holdId = d.holdId := by
  have hpayload : legPayload l a = legPayload d b := congrArg (fun r => r.command.payload) h
  have haction := congrArg (fun p => p.action.legAction?) hpayload
  have hhold := congrArg ProviderPayload.holdId? hpayload
  rw [legAction_legPayload, legAction_legPayload] at haction
  rw [holdId_legPayload, holdId_legPayload] at hhold
  exact ⟨Option.some.inj haction, Option.some.inj hhold⟩

/-- No two legs have one hold, so a request belongs to one leg. -/
theorem Parsed.leg_unique {s : CoordinatorState} (h : Parsed s) {l d : CoordinatorLeg}
    {a b : LegAction} (hl : l ∈ s.legs) (hd : d ∈ s.legs)
    (heq : legRequest l.toCoordinatorLegSpec a = legRequest d.toCoordinatorLegSpec b) :
    a = b ∧ l = d := by
  obtain ⟨haction, hhold⟩ := legRequest_inj heq
  exact ⟨haction, List.inj_on_of_nodup_map h.holdIds hl hd hhold⟩

theorem exactLeg_eq_ok {legs : List CoordinatorLeg} {request : CoordinatorRequest}
    {action : LegAction} {refusal : Refusal} {l : CoordinatorLeg}
    (h : exactLeg legs request action refusal = .ok l) :
    l ∈ legs ∧ legRequest l.toCoordinatorLegSpec action = request := by
  simp only [exactLeg, bind_eq_ok, require_eq_ok, demand_eq_ok, pure_eq_ok] at h
  obtain ⟨d, hfound, _, hrequest, rfl⟩ := h
  exact ⟨List.mem_of_find?_eq_some hfound, hrequest⟩

/-- The leg of the pending request is as far as the request says. -/
theorem Parsed.pendingIn {s : CoordinatorState} (h : Parsed s) {l : CoordinatorLeg}
    {action : LegAction} (hl : l ∈ s.legs)
    (hpending : s.pending = some (legRequest l.toCoordinatorLegSpec action)) :
    action.pendingIn s.phase l.status := by
  have hparsed := h.pending _ (by rw [hpending]; exact List.mem_singleton_self _)
  simp only [parsePending, bind_eq_ok, require_eq_ok, demand_eq_ok] at hparsed
  obtain ⟨a, ha, d, hd, hstatus⟩ := hparsed
  have hasked : (legPayload l.toCoordinatorLegSpec action).action.legAction? = some a := ha
  rw [legAction_legPayload] at hasked
  obtain rfl := Option.some.inj hasked
  obtain ⟨hmem, hrequest⟩ := exactLeg_eq_ok hd
  obtain ⟨-, rfl⟩ := h.leg_unique hmem hl hrequest
  exact hstatus

/-- A provider's receipt for the request of a leg. -/
structure Receipted (l : CoordinatorLegSpec) (action : LegAction) (receipt : ProviderReceipt) :
    Prop where
  operation : receipt.operationId = l.operationIds.get action
  asked : receipt.action.legAction? = some action
  hold : receipt.holdId = some l.holdId
  quote : receipt.quote = l.quote.revision
  status : receipt.status = .hold action.receiptStatus

/-- The provider of a leg answered a request of it with a receipt. -/
def Evidence (answers : List CoordinatorResponse) (l : CoordinatorLegSpec) (action : LegAction) :
    Prop :=
  ∃ r ∈ answers, r.providerId = l.quote.provider.id ∧
    ∃ receipt, r.outcome = .accepted receipt ∧ Receipted l action receipt

theorem Evidence.mono {answers answers' : List CoordinatorResponse} {l : CoordinatorLegSpec}
    {action : LegAction} (h : Evidence answers l action) (hsub : answers ⊆ answers') :
    Evidence answers' l action := by
  obtain ⟨r, hr, hevidence⟩ := h
  exact ⟨r, hsub hr, hevidence⟩

/-- The progress of a leg, backed by what was sent and answered. -/
structure Backed (sent : List CoordinatorRequest) (answers : List CoordinatorResponse)
    (l : CoordinatorLeg) : Prop where
  confirmed : legRequest l.toCoordinatorLegSpec .confirm ∈ sent →
    l.status ≠ .planned ∧ l.status ≠ .rejected
  receipted : ∀ action, action ≠ .hold → l.status = action.accepted →
    Evidence answers l.toCoordinatorLegSpec action

/-- A leg that is no further than held, or an exception, needs no receipt. -/
theorem backed_of_status {sent : List CoordinatorRequest} {answers : List CoordinatorResponse}
    {l : CoordinatorLeg} (status : LegStatus) (hstatus : l.status = status)
    (hplain : status ∈ [LegStatus.planned, .held, .rejected, .exception])
    (hconfirmed : legRequest l.toCoordinatorLegSpec .confirm ∈ sent →
      status ≠ .planned ∧ status ≠ .rejected) : Backed sent answers l := by
  subst hstatus
  refine ⟨hconfirmed, fun action haction heq => ?_⟩
  rw [heq] at hplain
  cases action with
  | hold => exact absurd rfl haction
  | confirm => simp [LegAction.accepted] at hplain
  | release => simp [LegAction.accepted] at hplain
  | cancel => simp [LegAction.accepted] at hplain

/-- A leg that an accepted request moved has the receipt of that request. -/
theorem backed_of_accepted {sent : List CoordinatorRequest} {answers : List CoordinatorResponse}
    {l : CoordinatorLeg} {action : LegAction} (hstatus : l.status = action.accepted)
    (hevidence : Evidence answers l.toCoordinatorLegSpec action) : Backed sent answers l := by
  constructor
  · intro _
    rw [hstatus]
    cases action <;> decide
  · intro b _ heq
    have hsame : action = b := by
      rw [hstatus] at heq
      cases action <;> cases b <;> first | rfl | exact nomatch heq
    exact hsame ▸ hevidence

/-- The phases in which a commitment may have been undone. -/
def Phase.undone (p : Phase) : Prop := p = .compensating ∨ p = .compensated ∨ p = .exception

/-- What a coordinator knows, from what it sent and what was answered. -/
structure Known (s : CoordinatorState) (sent : List CoordinatorRequest)
    (answers : List CoordinatorResponse) : Prop where
  parsed : Parsed s
  pending : ∀ r ∈ s.pending, r ∈ sent
  requests : ∀ r ∈ sent, ∃ l ∈ s.legs, ∃ action, r = legRequest l.toCoordinatorLegSpec action
  undoing : ∀ r ∈ sent, r.command.payload.action = .release ∨ r.command.payload.action = .cancel →
    s.phase.undone
  legs : ∀ l ∈ s.legs, Backed sent answers l

theorem known_create {coordinationId : Uuid} {customer : EntityReference}
    {legs : List CoordinatorLegSpec} {s : CoordinatorState}
    (h : createCoordinator coordinationId customer legs = .ok s) : Known s [] [] := by
  simp only [createCoordinator, bind_eq_ok, pure_eq_ok] at h
  obtain ⟨_, hparse, rfl⟩ := h
  refine ⟨parsed_of_parseCoordinator hparse, (by intro _ hr; cases hr), (by intro _ hr; cases hr),
    (by intro _ hr; cases hr), fun l hl => ?_⟩
  obtain ⟨spec, -, rfl⟩ := List.mem_map.mp hl
  refine backed_of_status .planned rfl (by decide) ?_
  intro hsent
  cases hsent

theorem Known.hear {s : CoordinatorState} {sent : List CoordinatorRequest}
    {answers answers' : List CoordinatorResponse} (h : Known s sent answers)
    (hsub : answers ⊆ answers') : Known s sent answers' := by
  refine ⟨h.parsed, h.pending, h.requests, h.undoing, fun l hl => ?_⟩
  have hleg := h.legs l hl
  exact ⟨hleg.confirmed, fun action haction hs => (hleg.receipted action haction hs).mono hsub⟩

/-- A request of a leg that may be sent in its progress. -/
theorem Known.send {s : CoordinatorState} {sent : List CoordinatorRequest}
    {answers : List CoordinatorResponse} {l : CoordinatorLeg} (h : Known s sent answers)
    (hl : l ∈ s.legs) (action : LegAction)
    (hconfirm : action = .confirm → l.status ≠ .planned ∧ l.status ≠ .rejected)
    (hundo : action = .release ∨ action = .cancel → s.phase.undone) :
    Known s (sent ++ [legRequest l.toCoordinatorLegSpec action]) answers := by
  refine ⟨h.parsed, fun r hr => List.mem_append_left _ (h.pending r hr), ?_, ?_, ?_⟩
  · intro r hr
    rcases List.mem_append.mp hr with hr | hr
    · exact h.requests r hr
    · exact ⟨l, hl, action, List.mem_singleton.mp hr⟩
  · intro r hr haction
    rcases List.mem_append.mp hr with hr | hr
    · exact h.undoing r hr haction
    · rw [List.mem_singleton.mp hr] at haction
      refine hundo ?_
      cases action with
      | hold => exact nomatch haction
      | confirm => exact nomatch haction
      | release => exact .inl rfl
      | cancel => exact .inr rfl
  · intro d hd
    have hleg := h.legs d hd
    refine ⟨fun hsent => ?_, hleg.receipted⟩
    rcases List.mem_append.mp hsent with hsent | hsent
    · exact hleg.confirmed hsent
    · obtain ⟨rfl, rfl⟩ := h.parsed.leg_unique hd hl (List.mem_singleton.mp hsent)
      exact hconfirm rfl

/-- A coordinator that moves on, with the same legs and their progress backed. -/
theorem Known.move {s t : CoordinatorState} {sent : List CoordinatorRequest}
    {answers : List CoordinatorResponse} (h : Known s sent answers) (hparsed : Parsed t)
    (hpending : ∀ r ∈ t.pending, r ∈ sent) (hphase : s.phase.undone → t.phase.undone)
    (hforth : ∀ l ∈ s.legs, ∃ l' ∈ t.legs, l'.toCoordinatorLegSpec = l.toCoordinatorLegSpec)
    (hlegs : ∀ l' ∈ t.legs, Backed sent answers l') : Known t sent answers := by
  refine ⟨hparsed, hpending, ?_, fun r hr hundo => hphase (h.undoing r hr hundo), hlegs⟩
  intro r hr
  obtain ⟨l, hl, action, rfl⟩ := h.requests r hr
  obtain ⟨l', hl', hspec⟩ := hforth l hl
  exact ⟨l', hl', action, by rw [hspec]⟩

/-- Compensation gives up the commitments that cannot be undone, and changes nothing else. -/
theorem compensate_legs {sent : List CoordinatorRequest} {answers : List CoordinatorResponse}
    {legs : List CoordinatorLeg} (h : ∀ l ∈ legs, Backed sent answers l) :
    (∀ l ∈ legs, ∃ l' ∈ (compensate legs).1,
      l'.toCoordinatorLegSpec = l.toCoordinatorLegSpec) ∧
    ∀ l' ∈ (compensate legs).1, Backed sent answers l' := by
  induction legs with
  | nil => exact ⟨(fun _ hl => nomatch hl), (fun _ hl => nomatch hl)⟩
  | cons l rest ih =>
    obtain ⟨hforth, hback⟩ := ih fun d hd => h d (List.mem_cons_of_mem _ hd)
    have hsame : ∀ l₀ : CoordinatorLeg, l₀.toCoordinatorLegSpec = l.toCoordinatorLegSpec →
        Backed sent answers l₀ →
        (∀ d ∈ l :: rest, ∃ d' ∈ l₀ :: (compensate rest).1,
          d'.toCoordinatorLegSpec = d.toCoordinatorLegSpec) ∧
        ∀ d' ∈ l₀ :: (compensate rest).1, Backed sent answers d' := by
      intro l₀ hspec hbacked
      constructor
      · intro d hd
        rcases List.mem_cons.mp hd with rfl | hd
        · exact ⟨l₀, List.mem_cons_self .., hspec⟩
        · obtain ⟨d', hd', hspec'⟩ := hforth d hd
          exact ⟨d', List.mem_cons_of_mem _ hd', hspec'⟩
      · intro d' hd'
        rcases List.mem_cons.mp hd' with rfl | hd'
        · exact hbacked
        · exact hback d' hd'
    have hl := h l (List.mem_cons_self ..)
    rw [compensate]
    by_cases hheld : l.status = .held
    · rw [if_pos hheld]
      exact ⟨fun d hd => ⟨d, hd, rfl⟩, h⟩
    · rw [if_neg hheld]
      by_cases haccepted : l.status = .accepted
      · rw [if_pos haccepted]
        by_cases hterms : l.quote.terms.cancellation = .beforeFulfillment
        · rw [if_pos hterms]
          exact ⟨fun d hd => ⟨d, hd, rfl⟩, h⟩
        · rw [if_neg hterms]
          exact hsame { l with status := .exception } rfl
            (backed_of_status .exception rfl (by decide) fun _ => by decide)
      · rw [if_neg haccepted]
        exact hsame l rfl hl

theorem compensate_request {legs : List CoordinatorLeg} {r : CoordinatorRequest}
    (h : (compensate legs).2 = some r) : ∃ l ∈ legs, ∃ action,
      (action = .release ∨ action = .cancel) ∧ r = legRequest l.toCoordinatorLegSpec action := by
  induction legs with
  | nil => exact nomatch h
  | cons l rest ih =>
    have hlater : (compensate rest).2 = some r → ∃ d ∈ l :: rest, ∃ action,
        (action = .release ∨ action = .cancel) ∧ r = legRequest d.toCoordinatorLegSpec action := by
      intro h
      obtain ⟨d, hd, hrequest⟩ := ih h
      exact ⟨d, List.mem_cons_of_mem _ hd, hrequest⟩
    rw [compensate] at h
    by_cases hheld : l.status = .held
    · rw [if_pos hheld] at h
      exact ⟨l, List.mem_cons_self .., .release, .inl rfl, (Option.some.inj h).symm⟩
    · rw [if_neg hheld] at h
      by_cases haccepted : l.status = .accepted
      · rw [if_pos haccepted] at h
        by_cases hterms : l.quote.terms.cancellation = .beforeFulfillment
        · rw [if_pos hterms] at h
          exact ⟨l, List.mem_cons_self .., .cancel, .inr rfl, (Option.some.inj h).symm⟩
        · rw [if_neg hterms] at h
          exact hlater h
      · rw [if_neg haccepted] at h
        exact hlater h

theorem requestFor_eq_some {s : CoordinatorState} {status : LegStatus} {action : LegAction}
    {r : CoordinatorRequest} (h : requestFor s status action = some r) :
    ∃ l ∈ s.legs, l.status = status ∧ r = legRequest l.toCoordinatorLegSpec action := by
  obtain ⟨l, hl, rfl⟩ := Option.map_eq_some_iff.mp h
  have hstatus := List.find?_some hl
  exact ⟨l, List.mem_of_find?_eq_some hl, of_decide_eq_true hstatus, rfl⟩

/-- What a planned step is stored as. -/
def CoordinatorState.planned (t : CoordinatorState) (request : Option CoordinatorRequest) :
    CoordinatorState :=
  { t with pending := request, uncertain := false, revision := t.revision + 1 }

theorem not_undone {p : Phase} (h : p = .holding ∨ p = .confirming) : ¬p.undone := by
  rintro (hundone | hundone | hundone)
  · rcases h with rfl | rfl <;> exact nomatch hundone
  · rcases h with rfl | rfl <;> exact nomatch hundone
  · rcases h with rfl | rfl <;> exact nomatch hundone

/-- A step that sends the request of a leg and leaves the legs as they are. -/
theorem Known.request {s t : CoordinatorState} {sent : List CoordinatorRequest}
    {answers : List CoordinatorResponse} {l : CoordinatorLeg} (h : Known s sent answers)
    (hl : l ∈ s.legs) (action : LegAction)
    (hconfirm : action = .confirm → l.status ≠ .planned ∧ l.status ≠ .rejected)
    (hundo : ¬(action = .release ∨ action = .cancel)) (hlegs : t.legs = s.legs)
    (hphase : s.phase.undone → t.phase.undone)
    (hparsed : Parsed (t.planned (some (legRequest l.toCoordinatorLegSpec action)))) :
    Known (t.planned (some (legRequest l.toCoordinatorLegSpec action)))
      (sent ++ [legRequest l.toCoordinatorLegSpec action]) answers := by
  have hsent := h.send hl _ hconfirm fun haction => absurd haction hundo
  refine hsent.move hparsed ?_ hphase ?_ ?_
  · intro r hr
    obtain rfl := Option.some.inj hr
    exact List.mem_append_right _ (List.mem_singleton_self _)
  · intro d hd
    exact ⟨d, hlegs.symm ▸ hd, rfl⟩
  · intro d hd
    exact hsent.legs d (hlegs ▸ hd)

theorem Known.confirming {s t : CoordinatorState} {sent : List CoordinatorRequest}
    {answers : List CoordinatorResponse} {request : Option CoordinatorRequest}
    (h : Known s sent answers) (hphase : s.phase = .holding ∨ s.phase = .confirming)
    (hadvance : advanceConfirming s = .ok (t, request)) (hparsed : Parsed (t.planned request)) :
    Known (t.planned request) (sent ++ request.toList) answers := by
  rw [advanceConfirming] at hadvance
  cases hrequest : requestFor s .held .confirm with
  | some r =>
    rw [hrequest] at hadvance
    obtain ⟨rfl, rfl⟩ := Prod.mk.inj (Except.ok.inj hadvance)
    obtain ⟨l, hl, hheld, rfl⟩ := requestFor_eq_some hrequest
    refine h.request hl _ (fun _ => ?_) (by simp) rfl
      (fun hundone => absurd hundone (not_undone hphase)) hparsed
    rw [hheld]
    decide
  | none =>
    rw [hrequest] at hadvance
    simp only [bind_eq_ok, demand_eq_ok, pure_eq_ok] at hadvance
    obtain ⟨_, -, hadvance⟩ := hadvance
    obtain ⟨rfl, rfl⟩ := Prod.mk.inj hadvance
    rw [Option.toList_none, List.append_nil]
    exact h.move hparsed (by intro _ hr; cases hr)
      (fun hundone => absurd hundone (not_undone hphase)) (fun l hl => ⟨l, hl, rfl⟩) h.legs

theorem Known.compensating {s : CoordinatorState} {sent : List CoordinatorRequest}
    {answers : List CoordinatorResponse} (h : Known s sent answers)
    (hphase : s.phase = .compensating)
    (hparsed : Parsed ((advanceCompensating s).1.planned (advanceCompensating s).2)) :
    Known ((advanceCompensating s).1.planned (advanceCompensating s).2)
      (sent ++ (advanceCompensating s).2.toList) answers := by
  obtain ⟨hforth, -⟩ := compensate_legs h.legs
  rw [advanceCompensating] at hparsed ⊢
  cases hrequest : (compensate s.legs).2 with
  | some r =>
    simp only [hrequest] at hparsed ⊢
    obtain ⟨l, hl, action, haction, rfl⟩ := compensate_request hrequest
    have hsent := h.send hl action (fun hconfirm => by simp [hconfirm] at haction)
      fun _ => .inl hphase
    obtain ⟨-, hbacked⟩ := compensate_legs hsent.legs
    refine hsent.move hparsed ?_ id hforth hbacked
    intro r hr
    obtain rfl := Option.some.inj hr
    exact List.mem_append_right _ (List.mem_singleton_self _)
  | none =>
    simp only [hrequest] at hparsed ⊢
    obtain ⟨-, hbacked⟩ := compensate_legs h.legs
    rw [Option.toList_none, List.append_nil]
    refine h.move hparsed (fun _ hr => nomatch hr) (fun _ => ?_) hforth hbacked
    show Phase.undone (if _ then _ else _)
    by_cases hleft : ∃ l ∈ (compensate s.legs).1, l.status = .exception ∨ l.status = .accepted
    · rw [if_pos hleft]
      exact .inr (.inr rfl)
    · rw [if_neg hleft]
      exact .inr (.inl rfl)

/-- Planning sends what it stores as pending. -/
theorem Known.plan {s t : CoordinatorState} {sent : List CoordinatorRequest}
    {answers : List CoordinatorResponse} {request : Option CoordinatorRequest} {revision : ℕ}
    (h : Known s sent answers) (hplan : planCoordinator s revision = .ok (t, request)) :
    Known t (sent ++ request.toList) answers := by
  simp only [planCoordinator, bind_eq_ok] at hplan
  obtain ⟨_, -, _, -, hplan⟩ := hplan
  by_cases hpending : s.pending.isSome = true
  · rw [if_pos hpending] at hplan
    obtain ⟨rfl, rfl⟩ := Prod.mk.inj (Except.ok.inj hplan)
    obtain ⟨r, hr⟩ := Option.isSome_iff_exists.mp hpending
    have hsent : r ∈ sent := h.pending r hr
    obtain ⟨l, hl, action, rfl⟩ := h.requests r hsent
    have hmem : ∀ x, x ∈ sent ++ [legRequest l.toCoordinatorLegSpec action] → x ∈ sent := by
      intro x hx
      rcases List.mem_append.mp hx with hx | hx
      · exact hx
      · exact List.mem_singleton.mp hx ▸ hsent
    rw [hr, Option.toList_some]
    refine ⟨h.parsed, fun x hx => List.mem_append_left _ (h.pending x hx),
      fun x hx => h.requests x (hmem x hx), fun x hx => h.undoing x (hmem x hx), fun d hd => ?_⟩
    have hleg := h.legs d hd
    exact ⟨fun hx => hleg.confirmed (hmem _ hx), hleg.receipted⟩
  · rw [if_neg hpending] at hplan
    by_cases hterminal : s.phase ∈ [Phase.committed, .compensated, .exception]
    · rw [if_pos hterminal] at hplan
      obtain ⟨rfl, rfl⟩ := Prod.mk.inj (Except.ok.inj hplan)
      rw [Option.toList_none, List.append_nil]
      exact h
    · rw [if_neg hterminal] at hplan
      simp only [bind_eq_ok, pure_eq_ok] at hplan
      obtain ⟨⟨u, request'⟩, hadvance, _, hparse, hout⟩ := hplan
      obtain ⟨rfl, rfl⟩ := Prod.mk.inj hout
      have hparsed : Parsed (u.planned request') := parsed_of_parseCoordinator hparse
      rw [advance] at hadvance
      cases hphase : s.phase with
      | holding =>
        simp only [hphase] at hadvance
        cases hrequest : requestFor s .planned .hold with
        | some r =>
          rw [hrequest] at hadvance
          obtain ⟨rfl, rfl⟩ := Prod.mk.inj (Except.ok.inj hadvance)
          obtain ⟨l, hl, -, rfl⟩ := requestFor_eq_some hrequest
          exact h.request hl _ (by intro hother; cases hother) (by simp) rfl id hparsed
        | none =>
          rw [hrequest] at hadvance
          exact h.confirming (.inl hphase) hadvance hparsed
      | confirming =>
        simp only [hphase] at hadvance
        exact h.confirming (.inr hphase) hadvance hparsed
      | compensating =>
        simp only [hphase] at hadvance
        obtain ⟨rfl, rfl⟩ := Prod.mk.inj (Except.ok.inj hadvance)
        exact h.compensating hphase hparsed
      | committed => simp [hphase] at hterminal
      | compensated => simp [hphase] at hterminal
      | exception => simp [hphase] at hterminal

theorem Known.timeout {s t : CoordinatorState} {sent : List CoordinatorRequest}
    {answers : List CoordinatorResponse} {operationId : Uuid} {revision : ℕ}
    (h : Known s sent answers)
    (htimeout : recordCoordinatorTimeout s operationId revision = .ok t) :
    Known t sent answers := by
  simp only [recordCoordinatorTimeout, bind_eq_ok, pure_eq_ok] at htimeout
  obtain ⟨_, -, _, -, _, -, rfl⟩ := htimeout
  exact ⟨⟨h.parsed.legIds, h.parsed.holdIds, h.parsed.phase, h.parsed.pending⟩, h.pending,
    h.requests, h.undoing, h.legs⟩

/-- The outcome of a request, recorded at its leg. -/
theorem settle_eq_ok {s t : CoordinatorState} {l : CoordinatorLeg} {action : LegAction}
    {r : CoordinatorResponse} (h : settle s l action r = .ok t) :
    (∃ receipt, r.outcome = .accepted receipt ∧ receipt.operationId = r.operationId ∧
      receipt.action.legAction? = some action ∧ receipt.holdId = some l.holdId ∧
      receipt.quote = l.quote.revision ∧ receipt.status = .hold action.receiptStatus ∧
      t = s.withLeg l.legId action.accepted) ∨
    t = { s.withLeg l.legId action.refused with phase := .compensating } := by
  cases houtcome : r.outcome with
  | accepted receipt =>
    simp only [settle, houtcome, bind_eq_ok, demand_eq_ok, pure_eq_ok] at h
    obtain ⟨_, ⟨hoperation, -, haction, hhold, hquote, hstatus⟩, rfl⟩ := h
    exact .inl ⟨receipt, rfl, hoperation, haction, hhold, hquote, hstatus, rfl⟩
  | rejected why =>
    simp only [settle, houtcome, pure_eq_ok] at h
    exact .inr h.symm

/-- A leg that is backed, in its place. -/
theorem Known.legs_withLeg {s : CoordinatorState} {sent : List CoordinatorRequest}
    {answers : List CoordinatorResponse} {l : CoordinatorLeg} {status : LegStatus}
    (h : Known s sent answers) (hl : l ∈ s.legs) (hbacked : Backed sent answers { l with status }) :
    (∀ d ∈ s.legs, ∃ d' ∈ (s.withLeg l.legId status).legs,
      d'.toCoordinatorLegSpec = d.toCoordinatorLegSpec) ∧
    ∀ d' ∈ (s.withLeg l.legId status).legs, Backed sent answers d' := by
  constructor
  · intro d hd
    refine ⟨_, List.mem_map.mpr ⟨d, hd, rfl⟩, ?_⟩
    by_cases hid : d.legId = l.legId
    · rw [if_pos hid]
    · rw [if_neg hid]
  · intro d' hd'
    obtain ⟨d, hd, rfl⟩ := List.mem_map.mp hd'
    by_cases hid : d.legId = l.legId
    · obtain rfl : d = l := List.inj_on_of_nodup_map h.parsed.legIds hd hl hid
      rw [if_pos hid]
      exact hbacked
    · rw [if_neg hid]
      exact h.legs d hd

/-- A leg whose hold may be refused has not been confirmed. -/
theorem Known.unconfirmed {s : CoordinatorState} {sent : List CoordinatorRequest}
    {answers : List CoordinatorResponse} {l : CoordinatorLeg} (h : Known s sent answers)
    (hl : l ∈ s.legs) (hplanned : l.status = .planned) :
    legRequest l.toCoordinatorLegSpec .confirm ∉ sent := fun hsent =>
  ((h.legs l hl).confirmed hsent).1 hplanned

/-- The leg of the pending request after its outcome. -/
theorem Known.backed_settle {s : CoordinatorState} {sent : List CoordinatorRequest}
    {answers : List CoordinatorResponse} {l : CoordinatorLeg} {action : LegAction}
    (h : Known s sent answers) (hl : l ∈ s.legs)
    (hpending : s.pending = some (legRequest l.toCoordinatorLegSpec action)) :
    (Evidence answers l.toCoordinatorLegSpec action →
      Backed sent answers { l with status := action.accepted }) ∧
    Backed sent answers { l with status := action.refused } := by
  have hin := h.parsed.pendingIn hl hpending
  refine ⟨fun hevidence => backed_of_accepted rfl hevidence, ?_⟩
  cases action with
  | hold =>
    have hfresh := h.unconfirmed hl hin.2
    exact backed_of_status .rejected rfl (by decide) fun hsent => absurd hsent hfresh
  | confirm => exact backed_of_status .held rfl (by decide) fun _ => by decide
  | release => exact backed_of_status .exception rfl (by decide) fun _ => by decide
  | cancel => exact backed_of_status .exception rfl (by decide) fun _ => by decide

section
variable [CommandDigest]

/-- A new answer is recorded at the leg of the pending request. -/
theorem Known.respond {s t : CoordinatorState} {sent : List CoordinatorRequest}
    {answers : List CoordinatorResponse} {r : CoordinatorResponse} {revision : ℕ}
    (h : Known s sent answers) (hr : r ∈ answers)
    (hrespond : recordCoordinatorResponse s r revision = .ok t) : Known t sent answers := by
  simp only [recordCoordinatorResponse, bind_eq_ok] at hrespond
  obtain ⟨_, -, _, -, hrespond⟩ := hrespond
  cases hprior : s.responses.find? fun p =>
      p.providerId = r.providerId ∧ p.operationId = r.operationId with
  | some prior =>
    rw [hprior] at hrespond
    simp only [bind_eq_ok, pure_eq_ok] at hrespond
    obtain ⟨_, -, rfl⟩ := hrespond
    exact h
  | none =>
    rw [hprior] at hrespond
    simp only [answered, bind_eq_ok, require_eq_ok, demand_eq_ok, pure_eq_ok] at hrespond
    obtain ⟨_, -, _, ⟨pending, hpending, _, ⟨hprovider, hoperation, -⟩, rfl⟩, action, -, l, hleg, u,
      hsettle, _, hparse, rfl⟩ := hrespond
    have hparsed := parsed_of_parseCoordinator hparse
    obtain ⟨hl, rfl⟩ := exactLeg_eq_ok hleg
    obtain ⟨haccepted, hrefused⟩ := h.backed_settle hl hpending
    rcases settle_eq_ok hsettle with
      ⟨receipt, houtcome, hreceipt, hasked, hhold, hquote, hstatus, rfl⟩ | rfl
    · have hevidence : Evidence answers l.toCoordinatorLegSpec action :=
        ⟨r, hr, hprovider.symm, receipt, houtcome, hreceipt.trans hoperation.symm, hasked, hhold,
          hquote, hstatus⟩
      obtain ⟨hforth, hlegs⟩ := h.legs_withLeg hl (haccepted hevidence)
      exact h.move hparsed (by intro _ hr; cases hr) id hforth hlegs
    · obtain ⟨hforth, hlegs⟩ := h.legs_withLeg hl hrefused
      exact h.move hparsed (by intro _ hr; cases hr) (fun _ => .inl rfl) hforth hlegs

end

end DirectTrade.Foundation.Commitments
