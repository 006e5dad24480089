import DirectTrade.Foundation.Progress
import Mathlib.Logic.Function.Basic

/-!
A coordinator and its providers over a network that loses, repeats, delays and reorders
messages. A request that was sent may be delivered at any time, also after it was answered or
refused; others command the providers too. Whatever the order, a committed coordinator has
every provider's acceptance, and a compensated one has left no commitment behind.
-/

namespace DirectTrade.Foundation.Commitments

open Library Outcome

/-- A command that changed a provider, and whether it was the coordinator's. -/
structure Effected where
  provider : Uuid
  command : ProviderCommand
  ours : Bool
  deriving DecidableEq

/-- What was sent and answered stays in the network: it may arrive late, again or never. -/
structure World where
  coordinator : CoordinatorState
  providers : Uuid → Option ProviderState
  sent : List CoordinatorRequest
  answers : List CoordinatorResponse
  effects : List Effected

/-- A provider after a command, with the command among the effects if it was new. -/
def World.provide (w : World) (p : Uuid) (c : ProviderCommand) (ours : Bool) (out : Applied) :
    World :=
  { w with
    providers := Function.update w.providers p (some out.state)
    effects := w.effects ++ if out.duplicate then [] else [⟨p, c, ours⟩] }

@[simp] theorem provide_providers (w : World) (p : Uuid) (c : ProviderCommand) (ours : Bool)
    (out : Applied) : (w.provide p c ours out).providers p = some out.state := by
  simp [World.provide]

def World.answer (w : World) (r : CoordinatorResponse) : World :=
  { w with answers := w.answers ++ [r] }

/-- One coordinator, and providers with new pools. -/
structure World.Initial (w : World) : Prop where
  coordinator : ∃ coordinationId customer legs,
    createCoordinator coordinationId customer legs = .ok w.coordinator
  providers : ∀ p s, w.providers p = some s → ∃ configuration acceptedAt,
    createProviderState configuration acceptedAt = .ok s ∧ configuration.provider.id = p
  sent : w.sent = []
  answers : w.answers = []
  effects : w.effects = []

section
variable [CommandDigest]

/-- The answer of a provider to a delivered request. -/
def CoordinatorRequest.answered (r : CoordinatorRequest) (outcome : ProviderOutcome) :
    CoordinatorResponse :=
  { providerId := r.providerId, operationId := r.command.operationId
    commandDigest := CommandDigest.digest r.command, outcome }

/-- What may happen next: the coordinator plans, gives up waiting or hears an answer; a provider
takes or refuses a delivered request; someone else commands a provider. -/
inductive World.Step : World → World → Prop where
  | plan {w : World} {revision : ℕ} {t : CoordinatorState} {request : Option CoordinatorRequest}
      (planned : planCoordinator w.coordinator revision = .ok (t, request)) :
      Step w { w with coordinator := t, sent := w.sent ++ request.toList }
  | timeout {w : World} {operationId : Uuid} {revision : ℕ} {t : CoordinatorState}
      (recorded : recordCoordinatorTimeout w.coordinator operationId revision = .ok t) :
      Step w { w with coordinator := t }
  | respond {w : World} {r : CoordinatorResponse} {revision : ℕ} {t : CoordinatorState}
      (mem : r ∈ w.answers)
      (recorded : recordCoordinatorResponse w.coordinator r revision = .ok t) :
      Step w { w with coordinator := t }
  | deliver {w : World} {r : CoordinatorRequest} {s : ProviderState} {x : ExecutionContext}
      {out : Applied} (mem : r ∈ w.sent) (provider : w.providers r.providerId = some s)
      (applied : applyProviderCommand s r.command x = .ok out) :
      Step w ((w.provide r.providerId r.command true out).answer
        (r.answered (.accepted out.receipt)))
  | refuse {w : World} {r : CoordinatorRequest} {s : ProviderState} {x : ExecutionContext}
      {refusal : Refusal} {why : String} (mem : r ∈ w.sent)
      (provider : w.providers r.providerId = some s)
      (refused : applyProviderCommand s r.command x = .error refusal) :
      Step w (w.answer (r.answered (.rejected why)))
  | foreign {w : World} {p : Uuid} {s : ProviderState} {c : ProviderCommand}
      {x : ExecutionContext} {out : Applied} (provider : w.providers p = some s)
      (applied : applyProviderCommand s c x = .ok out) : Step w (w.provide p c false out)

def World.Later : World → World → Prop := Relation.ReflTransGen World.Step

def World.Reached (w : World) : Prop := ∃ w₀, World.Initial w₀ ∧ w₀.Later w

end

/-- A hold that its provider is committed to. -/
def CommitmentStatus.obliges : CommitmentStatus → Bool
  | .accepted | .fulfilling | .completed | .disputed => true
  | .held | .expired | .released | .cancelled => false

theorem reserves_of_obliges {status : CommitmentStatus} (h : status.obliges = true) :
    status.reserves = true := by
  cases status with
  | held => rfl
  | expired => exact nomatch h
  | accepted => rfl
  | released => exact nomatch h
  | cancelled => exact nomatch h
  | fulfilling => rfl
  | completed => rfl
  | disputed => rfl

theorem mem_withHold {s : ProviderState} {h x : CapacityHold} (hx : x ∈ (s.withHold h).holds) :
    x ∈ s.holds ∨ x = h := by
  obtain ⟨y, hy, rfl⟩ := List.mem_map.mp hx
  by_cases hid : y.id = h.id
  · rw [if_pos hid]
    exact .inr rfl
  · rw [if_neg hid]
    exact .inl hy

/-- A change that a command other than a confirmation makes commits to nothing new. -/
theorem obliged_changeHold {s : ProviderState} {holdId : Uuid} {ref : RevisionReference}
    {change : Quote → CapacityHold → Settled CapacityHold} {e : Effect}
    (h : changeHold s holdId ref change = .ok e)
    (hchange : ∀ q d d', change q d = .ok d' → d'.id = d.id ∧ d'.quote = d.quote ∧
      (d'.status.obliges = true → d.status.obliges = true))
    {d' : CapacityHold} (hd' : d' ∈ e.state.holds) (hobliged : d'.status.obliges = true) :
    ∃ d ∈ s.holds, d.id = d'.id ∧ d.quote = d'.quote ∧ d.status.obliges = true := by
  obtain ⟨q, d, d₁, -, hd, -, -, hok, rfl⟩ := changeHold_eq_ok h
  rcases mem_withHold hd' with hd' | rfl
  · exact ⟨d', hd', rfl, rfl, hobliged⟩
  · obtain ⟨hid, hquote, hback⟩ := hchange q d d' hok
    exact ⟨d, hd, hid.symm, hquote.symm, hback hobliged⟩

theorem obliged_release {h h' : CapacityHold} (hok : release h = .ok h') : h'.id = h.id ∧
    h'.quote = h.quote ∧ (h'.status.obliges = true → h.status.obliges = true) := by
  simp only [release, bind_eq_ok, pure_eq_ok] at hok
  obtain ⟨_, -, rfl⟩ := hok
  refine ⟨rfl, rfl, ?_⟩
  intro hobliged
  cases hobliged

theorem obliged_cancel {q : Quote} {h h' : CapacityHold} (hok : cancel q h = .ok h') :
    h'.id = h.id ∧ h'.quote = h.quote ∧ (h'.status.obliges = true → h.status.obliges = true) := by
  simp only [cancel, bind_eq_ok, pure_eq_ok] at hok
  obtain ⟨_, -, rfl⟩ := hok
  refine ⟨rfl, rfl, ?_⟩
  intro hobliged
  cases hobliged

theorem obliged_fulfill {q : Quote} {h h' : CapacityHold} {f : Fulfillment}
    (hok : fulfill q h f = .ok h') : h'.id = h.id ∧ h'.quote = h.quote ∧
      (h'.status.obliges = true → h.status.obliges = true) := by
  simp only [fulfill, bind_eq_ok, demand_eq_ok, pure_eq_ok] at hok
  obtain ⟨_, ⟨hopen, -⟩, _, -, rfl⟩ := hok
  refine ⟨rfl, rfl, fun _ => ?_⟩
  rcases hopen with hopen | hopen | hopen
  · rw [hopen]
    rfl
  · rw [hopen]
    rfl
  · rw [hopen]
    rfl

theorem obliged_contest {h h' : CapacityHold} {d : Dispute} (hok : contest h d = .ok h') :
    h'.id = h.id ∧ h'.quote = h.quote ∧ (h'.status.obliges = true → h.status.obliges = true) := by
  simp only [contest, bind_eq_ok, demand_eq_ok, pure_eq_ok] at hok
  obtain ⟨_, ⟨hopen, -⟩, rfl⟩ := hok
  refine ⟨rfl, rfl, fun _ => ?_⟩
  rcases hopen with hopen | hopen | hopen | hopen
  · rw [hopen]
    rfl
  · rw [hopen]
    rfl
  · rw [hopen]
    rfl
  · rw [hopen]
    rfl

/-- Only a confirmation commits a provider to a hold. -/
theorem obliged_perform {s : ProviderState} {c : ProviderCommand} {now : ℤ} {e : Effect}
    (h : perform s c now = .ok e) {d' : CapacityHold} (hd' : d' ∈ e.state.holds)
    (hobliged : d'.status.obliges = true) :
    (∃ d ∈ s.holds, d.id = d'.id ∧ d.quote = d'.quote ∧ d.status.obliges = true) ∨
      c.payload = .confirm d'.id d'.quote := by
  obtain ⟨operationId, payload⟩ := c
  cases payload with
  | quotePublish q =>
    simp only [perform, bind_eq_ok, pure_eq_ok] at h
    obtain ⟨t, ht, rfl⟩ := h
    obtain rfl := publish_eq_ok ht
    exact .inl ⟨d', hd', rfl, rfl, hobliged⟩
  | hold holdId ref expiresAt =>
    simp only [perform, exactQuote, bind_eq_ok, require_eq_ok, pure_eq_ok] at h
    obtain ⟨q, -, d, hd, rfl⟩ := h
    obtain ⟨-, -, -, rfl⟩ := reserve_eq_ok hd
    rcases List.mem_append.mp hd' with hd' | hd'
    · exact .inl ⟨d', hd', rfl, rfl, hobliged⟩
    · obtain rfl := List.mem_singleton.mp hd'
      cases hobliged
  | confirm holdId ref =>
    obtain ⟨q, d, d₁, -, hd, rfl, rfl, hok, rfl⟩ := changeHold_eq_ok h
    rcases mem_withHold hd' with hd' | rfl
    · exact .inl ⟨d', hd', rfl, rfl, hobliged⟩
    · have hprogress := progress_confirm hok
      exact .inr (by rw [hprogress.id, hprogress.quote])
  | release holdId ref =>
    exact .inl (obliged_changeHold h (fun _ _ _ => obliged_release) hd' hobliged)
  | cancel holdId ref =>
    exact .inl (obliged_changeHold h (fun _ _ _ => obliged_cancel) hd' hobliged)
  | fulfill holdId ref good damaged final evidence =>
    exact .inl (obliged_changeHold h (fun _ _ _ => obliged_fulfill) hd' hobliged)
  | dispute holdId ref why evidence =>
    exact .inl (obliged_changeHold h (fun _ _ _ => obliged_contest) hd' hobliged)

theorem obliged_lapse {now : ℤ} {h : CapacityHold}
    (hobliged : (h.lapse now).status.obliges = true) :
    h.status.obliges = true := by
  rw [CapacityHold.lapse] at hobliged
  by_cases hlapsed : h.status = .held ∧ h.expiresAt ≤ now
  · rw [if_pos hlapsed] at hobliged
    cases hobliged
  · rw [if_neg hlapsed] at hobliged
    exact hobliged

/-- The hold of an effect is in its state. -/
theorem mem_of_performed {s : ProviderState} {e : Effect} (h : Performed s e) {d : CapacityHold}
    (hd : e.hold = some d) : d ∈ e.state.holds := by
  cases h with
  | published _ => exact nomatch hd
  | reserved _ _ _ _ =>
    obtain rfl := Option.some.inj hd
    exact List.mem_append_right _ (List.mem_singleton_self _)
  | changed mem progress =>
    obtain rfl := Option.some.inj hd
    exact List.mem_map.mpr ⟨_, mem, if_pos progress.id.symm⟩

/-- A receipt of a release or a cancellation is of a hold that has ended. -/
structure Truthful (s : ProviderState) : Prop where
  valid : Valid s
  ended : ∀ r ∈ s.receipts, r.status = .hold .released ∨ r.status = .hold .cancelled →
    ∃ d ∈ s.holds, r.holdId = some d.id ∧ d.status.reserves = false

theorem truthful_create {configuration : ProviderConfiguration} {acceptedAt : ℤ}
    {s : ProviderState} (h : createProviderState configuration acceptedAt = .ok s) :
    Truthful s ∧ s.holds = [] := by
  obtain ⟨hvalid, -, hholds, hreceipts⟩ := createProviderState_eq_ok h
  refine ⟨⟨hvalid, fun r hr => ?_⟩, hholds⟩
  rw [hreceipts] at hr
  exact nomatch hr

structure Agreeing (w : World) : Prop where
  known : Known w.coordinator w.sent w.answers
  truthful : ∀ p s, w.providers p = some s → Truthful s
  answered : ∀ r ∈ w.answers, ∀ receipt, r.outcome = .accepted receipt →
    ∃ s, w.providers r.providerId = some s ∧ receipt ∈ s.receipts
  ours : ∀ e ∈ w.effects, e.ours = true → ⟨e.provider, e.command⟩ ∈ w.sent
  obliged : ∀ p s, w.providers p = some s → ∀ d ∈ s.holds, d.status.obliges = true →
    ∃ e ∈ w.effects, e.provider = p ∧ e.command.payload = .confirm d.id d.quote

/-- An answer that is what its provider's receipts say. -/
theorem Agreeing.answer {w : World} {r : CoordinatorResponse} (h : Agreeing w)
    (hanswer : ∀ receipt, r.outcome = .accepted receipt →
      ∃ s, w.providers r.providerId = some s ∧ receipt ∈ s.receipts) : Agreeing (w.answer r) := by
  refine ⟨h.known.hear (List.subset_append_left _ _), h.truthful, ?_, h.ours, h.obliged⟩
  intro a ha receipt hreceipt
  rcases List.mem_append.mp ha with ha | ha
  · exact h.answered a ha receipt hreceipt
  · obtain rfl := List.mem_singleton.mp ha
    exact hanswer receipt hreceipt

theorem agreeing_initial {w : World} (h : w.Initial) : Agreeing w := by
  obtain ⟨⟨coordinationId, customer, legs, hcreate⟩, hproviders, hsent, hanswers, heffects⟩ := h
  refine ⟨?_, ?_, ?_, ?_, ?_⟩
  · rw [hsent, hanswers]
    exact known_create hcreate
  · intro p s hp
    obtain ⟨configuration, acceptedAt, hs, -⟩ := hproviders p s hp
    exact (truthful_create hs).1
  · rw [hanswers]
    exact fun r hr => nomatch hr
  · rw [heffects]
    exact fun e he => nomatch he
  · intro p s hp d hd
    obtain ⟨configuration, acceptedAt, hs, -⟩ := hproviders p s hp
    rw [(truthful_create hs).2] at hd
    exact nomatch hd

/-- The evidence of a leg is among its provider's receipts. -/
theorem Agreeing.receipt {w : World} (h : Agreeing w) {l : CoordinatorLegSpec} {action : LegAction}
    (hevidence : Evidence w.answers l action) : ∃ s, w.providers l.quote.provider.id = some s ∧
      ∃ receipt ∈ s.receipts, Receipted l action receipt := by
  obtain ⟨r, hr, hprovider, receipt, hreceipt, hreceipted⟩ := hevidence
  obtain ⟨s, hs, hmem⟩ := h.answered r hr receipt hreceipt
  exact ⟨s, hprovider ▸ hs, receipt, hmem, hreceipted⟩

/-- A leg that was undone has a hold that has ended. -/
theorem Agreeing.undone {w : World} (h : Agreeing w) {l : CoordinatorLeg}
    (hl : l ∈ w.coordinator.legs) (hstatus : l.status = .released ∨ l.status = .cancelled)
    {s : ProviderState} (hs : w.providers l.quote.provider.id = some s) {d : CapacityHold}
    (hd : d ∈ s.holds) (hid : d.id = l.holdId) : d.status.reserves = false := by
  have hbacked := h.known.legs l hl
  have hreceipt : ∃ receipt ∈ s.receipts, receipt.holdId = some l.holdId ∧
      (receipt.status = .hold .released ∨ receipt.status = .hold .cancelled) := by
    rcases hstatus with hstatus | hstatus
    · obtain ⟨t, ht, receipt, hmem, hreceipted⟩ := h.receipt (hbacked.receipted .release (by decide)
        hstatus)
      obtain rfl : s = t := Option.some.inj (hs.symm.trans ht)
      exact ⟨receipt, hmem, hreceipted.hold, .inl hreceipted.status⟩
    · obtain ⟨t, ht, receipt, hmem, hreceipted⟩ := h.receipt (hbacked.receipted .cancel (by decide)
        hstatus)
      obtain rfl : s = t := Option.some.inj (hs.symm.trans ht)
      exact ⟨receipt, hmem, hreceipted.hold, .inr hreceipted.status⟩
  obtain ⟨receipt, hmem, hhold, hended⟩ := hreceipt
  have htruthful := h.truthful _ s hs
  obtain ⟨d', hd', hid', hended'⟩ := htruthful.ended receipt hmem hended
  have hsame : d'.id = d.id := (Option.some.inj (hid'.symm.trans hhold)).trans hid.symm
  obtain rfl : d' = d := List.inj_on_of_nodup_map htruthful.valid.ids hd' hd hsame
  exact hended'

/-- The coordinator's own confirmation is what committed a provider to a hold. -/
def World.ConfirmedByCoordinator (w : World) (p : Uuid) (d : CapacityHold) : Prop :=
  ∃ e ∈ w.effects, e.ours = true ∧ e.provider = p ∧ e.command.payload = .confirm d.id d.quote

theorem Agreeing.unconfirmed {w : World} (h : Agreeing w)
    (hphase : w.coordinator.phase = .compensated) {l : CoordinatorLeg}
    (hl : l ∈ w.coordinator.legs) {s : ProviderState}
    (hs : w.providers l.quote.provider.id = some s) {d : CapacityHold} (hd : d ∈ s.holds)
    (hid : d.id = l.holdId) (hobliges : d.status.obliges = true) :
    ¬w.ConfirmedByCoordinator l.quote.provider.id d := by
  rintro ⟨e, he, hours, hprovider, hpayload⟩
  have hsent := h.ours e he hours
  obtain ⟨l', hl', action, hrequest⟩ := h.known.requests _ hsent
  -- the confirmation was sent for this leg
  have hcommand : e.command.payload = legPayload l'.toCoordinatorLegSpec action :=
    congrArg (fun r => r.command.payload) hrequest
  have haction := congrArg (fun p => p.action.legAction?) (hpayload.symm.trans hcommand)
  have hhold := congrArg ProviderPayload.holdId? (hpayload.symm.trans hcommand)
  rw [legAction_legPayload] at haction
  rw [holdId_legPayload] at hhold
  obtain rfl : LegAction.confirm = action := Option.some.inj haction
  have hholds : l'.holdId = l.holdId := (Option.some.inj hhold).symm.trans hid
  obtain rfl : l' = l := List.inj_on_of_nodup_map h.known.parsed.holdIds hl' hl hholds
  have hconfirmed := (h.known.legs l' hl).confirmed (hrequest ▸ hsent)
  have hstatus := (h.known.parsed.compensated hphase).2 l' hl
  have hundone : l'.status = .released ∨ l'.status = .cancelled := by
    simp only [List.mem_cons, List.not_mem_nil, or_false] at hstatus
    rcases hstatus with hstatus | hstatus | hstatus | hstatus
    · exact absurd hstatus hconfirmed.1
    · exact .inl hstatus
    · exact .inr hstatus
    · exact absurd hstatus hconfirmed.2
  have hended := h.undone hl hundone hs hd hid
  rw [reserves_of_obliges hobliges] at hended
  cases hended

section
variable [CommandDigest]

/-- The receipt of an effect that ended a hold. -/
theorem ended_of_receipt {s : ProviderState} {e : Effect} (h : Performed s e) {c : ProviderCommand}
    {revision : ℕ} (hstatus : (e.receipt c revision).status = .hold .released ∨
      (e.receipt c revision).status = .hold .cancelled) :
    ∃ d ∈ e.state.holds, (e.receipt c revision).holdId = some d.id ∧
      d.status.reserves = false := by
  cases hhold : e.hold with
  | none =>
    simp only [Effect.receipt, hhold, Option.map_none, Option.getD_none] at hstatus
    rcases hstatus with hstatus | hstatus
    · exact nomatch hstatus
    · exact nomatch hstatus
  | some d =>
    simp only [Effect.receipt, hhold, Option.map_some, Option.getD_some,
      ReceiptStatus.hold.injEq] at hstatus ⊢
    refine ⟨d, mem_of_performed h hhold, rfl, ?_⟩
    rcases hstatus with hstatus | hstatus
    · rw [hstatus]
      rfl
    · rw [hstatus]
      rfl

/-- Receipts are kept by every command, which adds its own. -/
theorem receipts_apply {s : ProviderState} {c : ProviderCommand} {x : ExecutionContext}
    {out : Applied} (h : applyProviderCommand s c x = .ok out) :
    s.receipts ⊆ out.state.receipts ∧ out.receipt ∈ out.state.receipts := by
  cases answered_of_apply h with
  | duplicate _ mem _ _ => exact ⟨List.Subset.refl _, mem⟩
  | fresh _ _ _ performed _ =>
    obtain ⟨hreceipts, -⟩ := receipts_perform (performed_of_perform performed)
    have hold : s.receipts = _ := hreceipts.symm
    refine ⟨fun r hr => List.mem_append_left _ (hold ▸ hr), List.mem_append_right _ ?_⟩
    exact List.mem_singleton_self _

theorem Truthful.apply {s : ProviderState} {c : ProviderCommand} {x : ExecutionContext}
    {out : Applied} (h : Truthful s) (happly : applyProviderCommand s c x = .ok out) :
    Truthful out.state := by
  refine ⟨valid_apply happly, fun r hr hstatus => ?_⟩
  have hkept : r ∈ s.receipts → ∃ d ∈ out.state.holds, r.holdId = some d.id ∧
      d.status.reserves = false := by
    intro hr
    obtain ⟨d, hd, hid, hended⟩ := h.ended r hr hstatus
    obtain ⟨d', hd', hid', hended'⟩ := ended_apply happly hd hended
    exact ⟨d', hd', hid.trans (congrArg some hid'.symm), hended'⟩
  cases answered_of_apply happly with
  | duplicate _ _ _ _ => exact hkept hr
  | fresh _ _ _ performed _ =>
    have hperformed := performed_of_perform performed
    obtain ⟨hreceipts, -⟩ := receipts_perform hperformed
    rcases List.mem_append.mp hr with hr | hr
    · rw [hreceipts] at hr
      exact hkept hr
    · obtain rfl := List.mem_singleton.mp hr
      exact ended_of_receipt hperformed hstatus

/-- A provider that is committed to a hold was so before, or has just been told to be. -/
theorem obliged_apply {s : ProviderState} {c : ProviderCommand} {x : ExecutionContext}
    {out : Applied} (h : applyProviderCommand s c x = .ok out) {d' : CapacityHold}
    (hd' : d' ∈ out.state.holds) (hobliged : d'.status.obliges = true) :
    (∃ d ∈ s.holds, d.id = d'.id ∧ d.quote = d'.quote ∧ d.status.obliges = true) ∨
      out.duplicate = false ∧ c.payload = .confirm d'.id d'.quote := by
  cases answered_of_apply h with
  | duplicate _ _ _ _ => exact .inl ⟨d', hd', rfl, rfl, hobliged⟩
  | fresh _ _ _ performed _ =>
    rcases obliged_perform performed hd' hobliged with ⟨d, hd, hid, hquote, hobliged⟩ | hpayload
    · obtain ⟨d₀, hd₀, rfl⟩ := List.mem_map.mp hd
      have hlapse := progress_lapse x.acceptedAt d₀
      exact .inl ⟨d₀, hd₀, hlapse.id.symm.trans hid, hlapse.quote.symm.trans hquote,
        obliged_lapse hobliged⟩
    · exact .inr ⟨rfl, hpayload⟩

/-- A command at one provider, from whomever. -/
theorem Agreeing.provide {w : World} {p : Uuid} {s : ProviderState} {c : ProviderCommand}
    {x : ExecutionContext} {out : Applied} {ours : Bool} (h : Agreeing w)
    (hp : w.providers p = some s) (happly : applyProviderCommand s c x = .ok out)
    (hours : ours = true → ⟨p, c⟩ ∈ w.sent) : Agreeing (w.provide p c ours out) := by
  have hproviders : ∀ q t, (w.provide p c ours out).providers q = some t →
      (q = p ∧ t = out.state) ∨ (q ≠ p ∧ w.providers q = some t) := by
    intro q t hq
    by_cases heq : q = p
    · obtain rfl := heq
      have hself : (w.provide q c ours out).providers q = some out.state := Function.update_self ..
      exact .inl ⟨rfl, (Option.some.inj (hself.symm.trans hq)).symm⟩
    · have hother : (w.provide p c ours out).providers q = w.providers q :=
        Function.update_of_ne heq ..
      exact .inr ⟨heq, hother.symm.trans hq⟩
  refine ⟨h.known, ?_, ?_, ?_, ?_⟩
  · intro q t hq
    rcases hproviders q t hq with ⟨-, rfl⟩ | ⟨-, hq⟩
    · exact (h.truthful p s hp).apply happly
    · exact h.truthful q t hq
  · intro r hr receipt hreceipt
    obtain ⟨t, ht, hmem⟩ := h.answered r hr receipt hreceipt
    by_cases heq : r.providerId = p
    · obtain rfl : s = t := Option.some.inj (hp.symm.trans (heq ▸ ht))
      refine ⟨out.state, ?_, (receipts_apply happly).1 hmem⟩
      rw [heq]
      exact Function.update_self ..
    · exact ⟨t, (Function.update_of_ne heq _ _).trans ht, hmem⟩
  · intro e he heours
    rcases List.mem_append.mp he with he | he
    · exact h.ours e he heours
    · cases hduplicate : out.duplicate with
      | true =>
        rw [hduplicate] at he
        exact nomatch he
      | false =>
        rw [hduplicate] at he
        obtain rfl := List.mem_singleton.mp he
        exact hours heours
  · intro q t hq d hd hobliged
    rcases hproviders q t hq with ⟨rfl, rfl⟩ | ⟨-, hq⟩
    · rcases obliged_apply happly hd hobliged with
        ⟨d₀, hd₀, hid, hquote, hobliged₀⟩ | ⟨hfresh, hpayload⟩
      · obtain ⟨e, he, hprovider, hpayload⟩ := h.obliged q s hp d₀ hd₀ hobliged₀
        exact ⟨e, List.mem_append_left _ he, hprovider, by rw [hpayload, hid, hquote]⟩
      · refine ⟨⟨q, c, ours⟩, List.mem_append_right _ ?_, rfl, hpayload⟩
        rw [hfresh]
        exact List.mem_singleton_self _
    · obtain ⟨e, he, hconfirm⟩ := h.obliged q t hq d hd hobliged
      exact ⟨e, List.mem_append_left _ he, hconfirm⟩

theorem Agreeing.step {w w' : World} (h : Agreeing w) (hstep : w.Step w') : Agreeing w' := by
  cases hstep with
  | plan planned =>
    exact ⟨h.known.plan planned, h.truthful, h.answered,
      fun e he heours => List.mem_append_left _ (h.ours e he heours), h.obliged⟩
  | timeout recorded => exact ⟨h.known.timeout recorded, h.truthful, h.answered, h.ours, h.obliged⟩
  | respond mem recorded =>
    exact ⟨h.known.respond mem recorded, h.truthful, h.answered, h.ours, h.obliged⟩
  | deliver mem provider applied =>
    refine (h.provide provider applied fun _ => mem).answer fun receipt hreceipt => ?_
    obtain rfl := ProviderOutcome.accepted.inj hreceipt
    exact ⟨_, Function.update_self .., (receipts_apply applied).2⟩
  | refuse _ _ _ => exact h.answer fun receipt hreceipt => nomatch hreceipt
  | foreign provider applied => exact h.provide provider applied nofun

theorem World.Later.agreeing {w w' : World} (hlater : w.Later w') (h : Agreeing w) :
    Agreeing w' := by
  induction hlater with
  | refl => exact h
  | tail _ hstep ih => exact ih.step hstep

theorem World.Reached.agreeing {w : World} (h : w.Reached) : Agreeing w := by
  obtain ⟨w₀, hinitial, hlater⟩ := h
  exact hlater.agreeing (agreeing_initial hinitial)

/-- Nothing moves a coordinator that is done. -/
theorem coordinator_step {w w' : World} (h : Agreeing w)
    (hphase : w.coordinator.phase = .committed ∨ w.coordinator.phase = .compensated)
    (hstep : w.Step w') : w'.coordinator = w.coordinator := by
  have hpending : w.coordinator.pending = none := by
    rcases hphase with hphase | hphase
    · exact (h.known.parsed.committed hphase).1
    · exact (h.known.parsed.compensated hphase).1
  cases hstep with
  | plan planned =>
    simp only [planCoordinator, bind_eq_ok, hpending, Option.isSome_none, Bool.false_eq_true,
      if_false] at planned
    obtain ⟨_, -, _, -, planned⟩ := planned
    have hterminal : w.coordinator.phase ∈ [Phase.committed, .compensated, .exception] := by
      rcases hphase with hphase | hphase
      · rw [hphase]
        decide
      · rw [hphase]
        decide
    rw [if_pos hterminal] at planned
    exact (Prod.mk.inj (Except.ok.inj planned)).1.symm
  | timeout recorded =>
    simp only [recordCoordinatorTimeout, bind_eq_ok, demand_eq_ok, hpending] at recorded
    obtain ⟨_, -, _, -, _, hnone, -⟩ := recorded
    exact nomatch hnone
  | @respond r revision t mem recorded =>
    simp only [recordCoordinatorResponse, bind_eq_ok] at recorded
    obtain ⟨_, -, _, -, recorded⟩ := recorded
    cases hprior : w.coordinator.responses.find? fun p =>
        p.providerId = r.providerId ∧ p.operationId = r.operationId with
    | some prior =>
      rw [hprior] at recorded
      simp only [bind_eq_ok, pure_eq_ok] at recorded
      obtain ⟨_, -, rfl⟩ := recorded
      rfl
    | none =>
      rw [hprior] at recorded
      simp only [answered, bind_eq_ok, require_eq_ok, hpending] at recorded
      obtain ⟨_, -, _, ⟨pending, hsome, -⟩, -⟩ := recorded
      exact nomatch hsome
  | deliver _ _ _ => rfl
  | refuse _ _ _ => rfl
  | foreign _ _ => rfl

theorem coordinator_later {w w' : World} (h : Agreeing w)
    (hphase : w.coordinator.phase = .committed ∨ w.coordinator.phase = .compensated)
    (hlater : w.Later w') : w'.coordinator = w.coordinator := by
  induction hlater with
  | refl => rfl
  | tail hrun hstep ih =>
    have hagreeing := World.Later.agreeing hrun h
    exact (coordinator_step hagreeing (ih ▸ hphase) hstep).trans ih

/-- Whatever the order of sending, delivery, answers and timeouts: when the coordinator is
committed, every leg's provider has accepted the confirmation of its hold on the planned quote,
and no release or cancellation is ever sent; when it is compensated, no provider is or becomes
committed to a leg's hold by the coordinator, but only by a confirmation of someone else. -/
theorem coordination_agrees {w : World} (h : w.Reached) :
    (w.coordinator.phase = .committed →
      (∀ l ∈ w.coordinator.legs, ∃ s, w.providers l.quote.provider.id = some s ∧
        ∃ receipt ∈ s.receipts, receipt.operationId = l.operationIds.confirm ∧
          receipt.action = .confirm ∧ receipt.holdId = some l.holdId ∧
          receipt.quote = l.quote.revision ∧ receipt.status = .hold .accepted) ∧
      ∀ w', w.Later w' → ∀ r ∈ w'.sent, r.command.payload.action ≠ .release ∧
        r.command.payload.action ≠ .cancel) ∧
    (w.coordinator.phase = .compensated → ∀ w', w.Later w' → ∀ l ∈ w.coordinator.legs,
      ∀ s, w'.providers l.quote.provider.id = some s → ∀ d ∈ s.holds, d.id = l.holdId →
        d.status.obliges = true → ¬w'.ConfirmedByCoordinator l.quote.provider.id d ∧
          ∃ e ∈ w'.effects, e.ours = false ∧ e.provider = l.quote.provider.id ∧
            e.command.payload = .confirm d.id d.quote) := by
  have hagreeing := h.agreeing
  constructor
  · intro hphase
    constructor
    · intro l hl
      have hstatus := (hagreeing.known.parsed.committed hphase).2 l hl
      have hevidence := (hagreeing.known.legs l hl).receipted .confirm (by decide) hstatus
      obtain ⟨s, hs, receipt, hmem, hreceipted⟩ := hagreeing.receipt hevidence
      refine ⟨s, hs, receipt, hmem, hreceipted.operation, ?_, hreceipted.hold, hreceipted.quote,
        hreceipted.status⟩
      have hasked := hreceipted.asked
      cases haction : receipt.action with
      | confirm => rfl
      | quotePublish => exact nomatch haction ▸ hasked
      | hold => exact nomatch haction ▸ hasked
      | release => exact nomatch haction ▸ hasked
      | cancel => exact nomatch haction ▸ hasked
      | fulfill => exact nomatch haction ▸ hasked
      | dispute => exact nomatch haction ▸ hasked
    · intro w' hlater r hr
      have hagreeing' := hlater.agreeing hagreeing
      have hphase' : w'.coordinator.phase = .committed := by
        rw [coordinator_later hagreeing (.inl hphase) hlater]
        exact hphase
      have hnever : ¬w'.coordinator.phase.undone := by
        rw [hphase']
        rintro (hundone | hundone | hundone)
        · exact nomatch hundone
        · exact nomatch hundone
        · exact nomatch hundone
      exact ⟨fun heq => hnever (hagreeing'.known.undoing r hr (.inl heq)),
        fun heq => hnever (hagreeing'.known.undoing r hr (.inr heq))⟩
  · intro hphase w' hlater l hl s hs d hd hid hobliges
    have hagreeing' := hlater.agreeing hagreeing
    have hsame := coordinator_later hagreeing (.inr hphase) hlater
    have hnot := hagreeing'.unconfirmed (by rw [hsame]; exact hphase) (by rw [hsame]; exact hl)
      hs hd hid hobliges
    refine ⟨hnot, ?_⟩
    obtain ⟨e, he, hprovider, hpayload⟩ := hagreeing'.obliged _ s hs d hd hobliges
    refine ⟨e, he, ?_, hprovider, hpayload⟩
    cases hours : e.ours with
    | false => rfl
    | true => exact absurd ⟨e, he, hours, hprovider, hpayload⟩ hnot

end

def sampleLeg : CoordinatorLegSpec := ⟨31, sampleQuote, 7, 80, ⟨21, 22, 23, 24⟩⟩

/-- A coordinator of the one leg. -/
def sampleCoordinator (phase : Phase) (status : LegStatus) (pending : Option LegAction)
    (revision : ℕ) (responses : List CoordinatorResponse) : CoordinatorState :=
  ⟨30, .organization 2, revision, phase, [⟨sampleLeg, status⟩], pending.map (legRequest sampleLeg),
    false, responses⟩

def sampleConfirmed : ProviderReceipt :=
  ⟨22, 22, .confirm, some 7, sampleQuote.revision, .hold .accepted, 3⟩

def sampleAccepted : ProviderState :=
  { sampleHeld with
    revision := 3, lastAcceptedAt := 30, holds := [{ sampleHold with status := .accepted }]
    receipts := [samplePublished, sampleReserved, sampleConfirmed] }

def sampleStarted : World :=
  ⟨sampleCoordinator .holding .planned none 0 [], Function.update (fun _ => none) 1
    (some sampleEmpty), [], [], []⟩

def sampleHeldAnswer : CoordinatorResponse := ⟨1, 21, 21, .accepted sampleReserved⟩

def sampleConfirmedAnswer : CoordinatorResponse := ⟨1, 22, 22, .accepted sampleConfirmed⟩

def sampleCommitted : CoordinatorState :=
  sampleCoordinator .committed .accepted none 5 [sampleHeldAnswer, sampleConfirmedAnswer]

theorem sampleStarted_initial : letI := sampleDigest; sampleStarted.Initial := by
  let := sampleDigest
  refine ⟨⟨30, .organization 2, [sampleLeg], by decide⟩, ?_, rfl, rfl, rfl⟩
  intro p s hp
  by_cases heq : p = 1
  · subst heq
    obtain rfl := Option.some.inj hp
    exact ⟨samplePool, 0, by decide, rfl⟩
  · have hnone : sampleStarted.providers p = none := by
      simp only [sampleStarted, Function.update_of_ne heq]
    exact nomatch hnone.symm.trans hp

/-- The provider publishes, takes the hold and the confirmation, and the coordinator hears. -/
theorem sampleCommitted_reached : letI := sampleDigest; ∃ w : World, w.Reached ∧
    w.coordinator = sampleCommitted ∧ w.providers 1 = some sampleAccepted := by
  let := sampleDigest
  have hpublish : applyProviderCommand sampleEmpty ⟨20, .quotePublish sampleQuote⟩ ⟨0, 10⟩ =
      .ok ⟨sampleQuoted, samplePublished, false⟩ := by decide
  have hplan₁ : planCoordinator (sampleCoordinator .holding .planned none 0 []) 0 =
      .ok (sampleCoordinator .holding .planned (some .hold) 1 [],
        some (legRequest sampleLeg .hold)) := by decide
  have hhold : applyProviderCommand sampleQuoted (legRequest sampleLeg .hold).command ⟨1, 20⟩ =
      .ok ⟨sampleHeld, sampleReserved, false⟩ := by decide
  have hheard₁ : recordCoordinatorResponse (sampleCoordinator .holding .planned (some .hold) 1 [])
      sampleHeldAnswer 1 =
      .ok (sampleCoordinator .holding .held none 2 [sampleHeldAnswer]) := by decide
  have hplan₂ : planCoordinator (sampleCoordinator .holding .held none 2 [sampleHeldAnswer]) 2 =
      .ok (sampleCoordinator .confirming .held (some .confirm) 3 [sampleHeldAnswer],
        some (legRequest sampleLeg .confirm)) := by decide
  have hconfirm : applyProviderCommand sampleHeld (legRequest sampleLeg .confirm).command
      ⟨2, 30⟩ = .ok ⟨sampleAccepted, sampleConfirmed, false⟩ := by decide
  have hheard₂ : recordCoordinatorResponse
      (sampleCoordinator .confirming .held (some .confirm) 3 [sampleHeldAnswer])
      sampleConfirmedAnswer 3 = .ok (sampleCoordinator .confirming .accepted none 4
        [sampleHeldAnswer, sampleConfirmedAnswer]) := by decide
  have hplan₃ : planCoordinator (sampleCoordinator .confirming .accepted none 4
      [sampleHeldAnswer, sampleConfirmedAnswer]) 4 = .ok (sampleCommitted, none) := by
    decide
  have hstart : sampleStarted.Later sampleStarted := .refl
  have hrun₁ := (hstart.tail (.foreign (p := 1) rfl hpublish)).tail (.plan hplan₁)
  have hrun₂ := hrun₁.tail (.deliver (r := legRequest sampleLeg .hold) (List.mem_singleton_self _)
    rfl hhold)
  have hrun₃ := hrun₂.tail (.respond (r := sampleHeldAnswer) (List.mem_singleton_self _) hheard₁)
  have hrun₄ := hrun₃.tail (.plan hplan₂)
  have hrun₅ := hrun₄.tail (.deliver (r := legRequest sampleLeg .confirm)
    (List.mem_append_right _ (List.mem_singleton_self _)) rfl hconfirm)
  have hrun₆ := hrun₅.tail (.respond (r := sampleConfirmedAnswer)
    (List.mem_append_right _ (List.mem_singleton_self _)) hheard₂)
  exact ⟨_, ⟨sampleStarted, sampleStarted_initial, hrun₆.tail (.plan hplan₃)⟩, rfl, rfl⟩

def sampleRefusedAnswer : CoordinatorResponse := ⟨1, 21, 21, .rejected "no quote"⟩

def sampleCompensated : CoordinatorState :=
  sampleCoordinator .compensated .rejected none 3 [sampleRefusedAnswer]

/-- The receipts of somebody else's hold and confirmation. -/
def sampleForeign : ProviderReceipt :=
  ⟨41, 41, .hold, some 7, sampleQuote.revision, .hold .held, 2⟩

def sampleForeignConfirmed : ProviderReceipt :=
  ⟨42, 42, .confirm, some 7, sampleQuote.revision, .hold .accepted, 3⟩

def sampleForeignHeld : ProviderState :=
  { sampleHeld with receipts := [samplePublished, sampleForeign] }

def sampleForeignAccepted : ProviderState :=
  { sampleAccepted with receipts := [samplePublished, sampleForeign, sampleForeignConfirmed] }

/-- The provider refuses the hold, since it has no quote yet; somebody else takes the hold
after the coordinator has given up. -/
theorem sampleCompensated_reached : letI := sampleDigest; ∃ w w' : World, w.Reached ∧
    w.coordinator = sampleCompensated ∧ w.Later w' ∧
      w'.providers 1 = some sampleForeignAccepted := by
  let := sampleDigest
  have hplan₁ : planCoordinator (sampleCoordinator .holding .planned none 0 []) 0 =
      .ok (sampleCoordinator .holding .planned (some .hold) 1 [],
        some (legRequest sampleLeg .hold)) := by decide
  have hrefused : applyProviderCommand sampleEmpty (legRequest sampleLeg .hold).command ⟨0, 5⟩ =
      .error (invalid "exact quote unavailable") := by decide
  have hheard : recordCoordinatorResponse (sampleCoordinator .holding .planned (some .hold) 1 [])
      sampleRefusedAnswer 1 =
      .ok (sampleCoordinator .compensating .rejected none 2 [sampleRefusedAnswer]) := by decide
  have hplan₂ : planCoordinator (sampleCoordinator .compensating .rejected none 2
      [sampleRefusedAnswer]) 2 = .ok (sampleCompensated, none) := by decide
  have hpublish : applyProviderCommand sampleEmpty ⟨20, .quotePublish sampleQuote⟩ ⟨0, 10⟩ =
      .ok ⟨sampleQuoted, samplePublished, false⟩ := by decide
  have hhold : applyProviderCommand sampleQuoted ⟨41, .hold 7 sampleQuote.revision 80⟩ ⟨1, 20⟩ =
      .ok ⟨sampleForeignHeld, sampleForeign, false⟩ := by decide
  have hconfirm : applyProviderCommand sampleForeignHeld ⟨42, .confirm 7 sampleQuote.revision⟩
      ⟨2, 30⟩ = .ok ⟨sampleForeignAccepted, sampleForeignConfirmed, false⟩ := by decide
  have hstart : sampleStarted.Later sampleStarted := .refl
  have hrun₁ := hstart.tail (.plan hplan₁)
  have hrun₂ := hrun₁.tail (@World.Step.refuse _ _ (legRequest sampleLeg .hold) sampleEmpty ⟨0, 5⟩
    _ "no quote" (List.mem_singleton_self _) rfl hrefused)
  have hrun₃ := (hrun₂.tail (.respond (r := sampleRefusedAnswer) (List.mem_singleton_self _)
    hheard)).tail (.plan hplan₂)
  obtain ⟨w, hw, hcoordinator, hprovider⟩ : ∃ w : World, w.Reached ∧
      w.coordinator = sampleCompensated ∧ w.providers 1 = some sampleEmpty :=
    ⟨_, ⟨sampleStarted, sampleStarted_initial, hrun₃⟩, rfl, rfl⟩
  have hstill : w.Later w := .refl
  have hlater := ((hstill.tail (.foreign hprovider hpublish)).tail
    (.foreign (provide_providers ..) hhold)).tail (.foreign (provide_providers ..) hconfirm)
  exact ⟨w, _, hw, hcoordinator, hlater, provide_providers ..⟩

/-- In one run the coordinator commits and its leg is confirmed; in another it gives up, and
the later hold of its leg is confirmed by somebody else. -/
theorem coordination_agrees_sample : letI := sampleDigest
    (∃ w : World, w.coordinator.phase = .committed ∧ ∃ s, w.providers 1 = some s ∧
      ∃ receipt ∈ s.receipts, receipt.action = .confirm ∧ receipt.holdId = some 7) ∧
    ∃ w w' : World, w.coordinator.phase = .compensated ∧ w.Later w' ∧
      ∃ s, w'.providers 1 = some s ∧ ∃ d ∈ s.holds, d.status.obliges = true ∧
        ¬ w'.ConfirmedByCoordinator 1 d ∧ ∃ e ∈ w'.effects, e.ours = false := by
  let := sampleDigest
  obtain ⟨w, hreached, hcoordinator, -⟩ := sampleCommitted_reached
  have hphase : w.coordinator.phase = .committed := by rw [hcoordinator]; rfl
  have hleg : ⟨sampleLeg, .accepted⟩ ∈ w.coordinator.legs := by
    rw [hcoordinator]
    exact List.mem_singleton_self _
  obtain ⟨s, hs, receipt, hmem, -, haction, hhold, -, -⟩ :=
    ((coordination_agrees hreached).1 hphase).1 _ hleg
  obtain ⟨u, u', hreached', hcoordinator', hlater, hprovider⟩ := sampleCompensated_reached
  have hphase' : u.coordinator.phase = .compensated := by rw [hcoordinator']; rfl
  have hleg' : ⟨sampleLeg, .rejected⟩ ∈ u.coordinator.legs := by
    rw [hcoordinator']
    exact List.mem_singleton_self _
  have hobliges : ({ sampleHold with status := .accepted } : CapacityHold).status.obliges = true :=
    rfl
  obtain ⟨hours, e, he, hforeign, -⟩ := (coordination_agrees hreached').2 hphase' u' hlater _ hleg'
    sampleForeignAccepted hprovider { sampleHold with status := .accepted }
    (List.mem_singleton_self _) rfl hobliges
  exact ⟨⟨w, hphase, s, hs, receipt, hmem, haction, hhold⟩, u, u', hphase', hlater,
    sampleForeignAccepted, hprovider, _, List.mem_singleton_self _, hobliges, hours, e, he,
    hforeign⟩

end DirectTrade.Foundation.Commitments
