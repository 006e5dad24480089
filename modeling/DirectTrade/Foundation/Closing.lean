import DirectTrade.Foundation.Coordination
import Mathlib.Algebra.Group.Action.Defs
import Mathlib.Data.List.Pairwise

/-!
A coordinator comes to an end. What its functions store passes the check of stored states
again, and with a definitive answer to each request it is committed, compensated or an
exception after at most three answers a leg.
-/

namespace DirectTrade.Foundation.Commitments

open Library Outcome

/-- What the legs declare, whatever their progress. -/
structure Declared (s : CoordinatorState) : Prop where
  customer : company s.customer = .ok ()
  few : s.legs.length ≤ 16
  legs : ∀ l ∈ s.legs, parseLeg s.customer l = .ok ()
  legIds : (s.legs.map fun l => l.legId).Nodup
  nonempty : 0 < s.legs.length
  holdIds : (s.legs.map fun l => l.holdId).Nodup
  operations : ((s.legs.flatMap fun l => [LegAction.hold, .confirm, .release, .cancel].map
    l.operationIds.get).map id).Nodup

/-- A pending request is a command of the legs' progress. -/
structure Consistent (s : CoordinatorState) : Prop where
  command : ∀ r ∈ s.pending.toList, parseCommand r.command = .ok ()
  uncertain : s.uncertain = true → s.pending ≠ none
  phase : parsePhase s = .ok ()
  pending : ∀ r ∈ s.pending.toList, parsePending s r = .ok ()

/-- Recorded responses. -/
structure Heard (responses : List CoordinatorResponse) : Prop where
  few : responses.length ≤ 64
  each : ∀ r ∈ responses, parseResponse r = .ok ()
  once : (responses.map fun r => (r.providerId, r.operationId)).Nodup

theorem parseCoordinator_eq_ok {s : CoordinatorState} : parseCoordinator s = .ok () ↔
    Declared s ∧ Consistent s ∧ (s.revision : ℤ) ≤ maxSafeInteger ∧ Heard s.responses := by
  simp only [parseCoordinator, array, unique, units, bind_eq_ok, each_eq_ok, demand_eq_ok]
  constructor
  · rintro ⟨_, hcustomer, _, hfew, _, hlegs, _, hids, _, hsome, _, hholds, _, hoperations, _,
      hcommand, _, huncertain, _, hphase, _, hpending, _, ⟨hrevision, -⟩, _, hroom, _, heach, honce⟩
    exact ⟨⟨hcustomer, hfew, hlegs, hids, hsome, hholds, hoperations⟩,
      ⟨hcommand, huncertain, hphase, hpending⟩, hrevision, ⟨hroom, heach, honce⟩⟩
  · rintro ⟨hd, hc, hrevision, hheard⟩
    exact ⟨(), hd.customer, (), hd.few, (), hd.legs, (), hd.legIds, (), hd.nonempty, (),
      hd.holdIds, (), hd.operations, (), hc.command, (), hc.uncertain, (), hc.phase, (),
      hc.pending, (), ⟨hrevision, by simp⟩, (), hheard.few, (), hheard.each, hheard.once⟩

theorem parsePhase_eq_ok {s : CoordinatorState} : parsePhase s = .ok () ↔
    (s.phase = .holding → ∀ l ∈ s.legs, l.status ∈ [LegStatus.planned, .held]) ∧
    (s.phase = .confirming → ∀ l ∈ s.legs, l.status ∈ [LegStatus.held, .accepted]) ∧
    (s.phase = .committed → s.pending = none ∧ ∀ l ∈ s.legs, l.status = .accepted) ∧
    (s.phase = .compensated → s.pending = none ∧ ∀ l ∈ s.legs,
      l.status ∈ [LegStatus.planned, .released, .cancelled, .rejected]) ∧
    (s.phase = .exception → s.pending = none ∧ (∃ l ∈ s.legs, l.status = .exception) ∧
      ∀ l ∈ s.legs, l.status ∉ [LegStatus.held, .accepted]) := by
  simp only [parsePhase, bind_eq_ok, demand_eq_ok, exists_const]

/-- No two requests of the legs have one operation. -/
theorem Declared.operation_unique {s : CoordinatorState} (h : Declared s) {l d : CoordinatorLeg}
    {a b : LegAction} (hl : l ∈ s.legs) (hd : d ∈ s.legs)
    (heq : l.operationIds.get a = d.operationIds.get b) : a = b ∧ l = d := by
  have hnodup := h.operations
  rw [List.map_id, List.nodup_flatMap] at hnodup
  obtain ⟨hown, hapart⟩ := hnodup
  have hmem : ∀ (ids : OperationIds) (c : LegAction),
      ids.get c ∈ [LegAction.hold, .confirm, .release, .cancel].map ids.get := by
    intro ids c
    apply List.mem_map_of_mem
    cases c <;> simp
  have hsame : l = d := by
    by_contra hne
    have : Std.Symm (Function.onFun List.Disjoint fun d : CoordinatorLeg =>
        [LegAction.hold, .confirm, .release, .cancel].map d.operationIds.get) :=
      ⟨fun _ _ hdisjoint _ hleft hright => hdisjoint hright hleft⟩
    exact hapart.forall hl hd hne (hmem _ a) (heq ▸ hmem _ b)
  subst hsame
  refine ⟨?_, rfl⟩
  exact List.inj_on_of_nodup_map (hown l hl) (by cases a <;> simp) (by cases b <;> simp) heq

/-- The leg of a request is found again. -/
theorem Declared.findLeg_eq {s : CoordinatorState} (h : Declared s) {l : CoordinatorLeg}
    (hl : l ∈ s.legs) (a : LegAction) :
    findLeg s.legs l.quote.provider.id a (l.operationIds.get a) = some l := by
  cases hfound : findLeg s.legs l.quote.provider.id a (l.operationIds.get a) with
  | none =>
    have hnone := List.find?_eq_none.mp hfound l hl
    simp at hnone
  | some d =>
    rw [findLeg] at hfound
    have hd := List.find?_some hfound
    rw [decide_eq_true_eq] at hd
    rw [(h.operation_unique (List.mem_of_find?_eq_some hfound) hl hd.2).2]

theorem Declared.exactLeg_eq {s : CoordinatorState} (h : Declared s) {l : CoordinatorLeg}
    (hl : l ∈ s.legs) (a : LegAction) (refusal : Refusal) :
    exactLeg s.legs (legRequest l.toCoordinatorLegSpec a) a refusal = .ok l := by
  simp only [exactLeg, bind_eq_ok, require_eq_ok, demand_eq_ok, pure_eq_ok]
  exact ⟨l, h.findLeg_eq hl a, (), rfl, rfl⟩

/-- The request of a leg that is as far as the request says passes the check. -/
theorem Declared.parsePending_eq {s : CoordinatorState} (h : Declared s) {l : CoordinatorLeg}
    {a : LegAction} (hl : l ∈ s.legs) (hin : a.pendingIn s.phase l.status) :
    parsePending s (legRequest l.toCoordinatorLegSpec a) = .ok () := by
  simp only [parsePending, bind_eq_ok, require_eq_ok, demand_eq_ok]
  exact ⟨a, legAction_legPayload _ a, l, h.exactLeg_eq hl a _, hin⟩

theorem parseCommand_legRequest (l : CoordinatorLegSpec) (a : LegAction) :
    parseCommand (legRequest l a).command = .ok () := by
  cases a <;> rfl

/-- Another state of the same legs. -/
theorem Declared.transfer {s t : CoordinatorState} (h : Declared s)
    (hcustomer : t.customer = s.customer)
    (hspecs : (t.legs.map fun l => l.toCoordinatorLegSpec) =
      s.legs.map fun l => l.toCoordinatorLegSpec) : Declared t := by
  have hmap : ∀ {α : Type} (f : CoordinatorLegSpec → α),
      (t.legs.map fun l => f l.toCoordinatorLegSpec) =
        s.legs.map fun l => f l.toCoordinatorLegSpec := by
    intro α f
    have hmapped := congrArg (List.map f) hspecs
    rw [List.map_map, List.map_map] at hmapped
    exact hmapped
  have hlength : t.legs.length = s.legs.length := by
    simpa only [List.length_map] using congrArg List.length hspecs
  refine ⟨hcustomer ▸ h.customer, hlength ▸ h.few, ?_, ?_, hlength ▸ h.nonempty, ?_, ?_⟩
  · intro l hl
    have hmem : l.toCoordinatorLegSpec ∈ s.legs.map fun l => l.toCoordinatorLegSpec := by
      rw [← hspecs]
      exact List.mem_map_of_mem hl
    obtain ⟨d, hd, hspec⟩ := List.mem_map.mp hmem
    have hparsed := h.legs d hd
    rw [parseLeg, hspec] at hparsed
    rw [hcustomer]
    exact hparsed
  · rw [hmap fun l => l.legId]
    exact h.legIds
  · rw [hmap fun l => l.holdId]
    exact h.holdIds
  · have hoperations := h.operations
    rw [List.flatMap_def] at hoperations ⊢
    rw [hmap fun l => [LegAction.hold, .confirm, .release, .cancel].map l.operationIds.get]
    exact hoperations

/-- How many answers a leg may still get in a phase. -/
def Phase.outstanding (p : Phase) (status : LegStatus) : ℕ :=
  match p, status with
  | .holding, .planned | .confirming, .planned => 3
  | .holding, .held | .confirming, .held => 2
  | .holding, .accepted | .confirming, .accepted => 1
  | .compensating, .held | .compensating, .accepted => 1
  | _, _ => 0

/-- How many answers a leg may still get when an action of it is asked for. -/
def LegAction.stage : LegAction → ℕ
  | .hold => 3
  | .confirm => 2
  | .release | .cancel => 1

def CoordinatorState.outstanding (s : CoordinatorState) : ℕ :=
  (s.legs.map fun l => s.phase.outstanding l.status).sum

/-- There is room for the answers still to come, and none of them is recorded already. -/
structure Ready (s : CoordinatorState) : Prop where
  room : s.responses.length + s.outstanding ≤ 64
  fresh : ∀ l ∈ s.legs, ∀ a : LegAction, a.stage ≤ s.phase.outstanding l.status →
    ∀ r ∈ s.responses, ¬(r.providerId = l.quote.provider.id ∧ r.operationId = l.operationIds.get a)

/-- A state of the same legs in which no more is left to ask. -/
structure Follows (s t : CoordinatorState) : Prop where
  customer : t.customer = s.customer
  legs : List.Forall₂ (fun l d => d.toCoordinatorLegSpec = l.toCoordinatorLegSpec ∧
    t.phase.outstanding d.status ≤ s.phase.outstanding l.status) s.legs t.legs

theorem outstanding_le_three (p : Phase) (status : LegStatus) : p.outstanding status ≤ 3 := by
  cases p <;> cases status <;> decide

theorem CoordinatorState.outstanding_le (s : CoordinatorState) :
    s.outstanding ≤ 3 * s.legs.length := by
  have h := List.sum_le_card_nsmul (s.legs.map fun l => s.phase.outstanding l.status) 3 ?_
  · rw [List.length_map, smul_eq_mul] at h
    rw [outstanding]
    omega
  · intro n hn
    obtain ⟨l, -, rfl⟩ := List.mem_map.mp hn
    exact outstanding_le_three _ _

theorem stage_of_pendingIn {a : LegAction} {p : Phase} {status : LegStatus}
    (h : a.pendingIn p status) : p.outstanding status = a.stage := by
  cases a <;> obtain ⟨rfl, rfl⟩ := h <;> rfl

theorem Follows.specs {s t : CoordinatorState} (h : Follows s t) :
    (t.legs.map fun l => l.toCoordinatorLegSpec) = s.legs.map fun l => l.toCoordinatorLegSpec := by
  have hlegs := h.legs
  generalize s.legs = before, t.legs = after at hlegs ⊢
  induction hlegs with
  | nil => rfl
  | cons hhead _ ih => rw [List.map_cons, List.map_cons, hhead.1, ih]

theorem Follows.declared {s t : CoordinatorState} (h : Follows s t) (hs : Declared s) :
    Declared t :=
  hs.transfer h.customer h.specs

theorem Follows.length_eq {s t : CoordinatorState} (h : Follows s t) :
    t.legs.length = s.legs.length :=
  h.legs.length_eq.symm

theorem Follows.outstanding_le {s t : CoordinatorState} (h : Follows s t) :
    t.outstanding ≤ s.outstanding := by
  rw [CoordinatorState.outstanding, CoordinatorState.outstanding]
  have hlegs := h.legs
  generalize s.legs = before, t.legs = after at hlegs ⊢
  induction hlegs with
  | nil => exact le_rfl
  | cons hhead _ ih =>
    rw [List.map_cons, List.map_cons, List.sum_cons, List.sum_cons]
    exact Nat.add_le_add hhead.2 ih

/-- A leg of the later state was a leg before, with as much left to ask. -/
theorem Follows.origin {s t : CoordinatorState} (h : Follows s t) {d : CoordinatorLeg}
    (hd : d ∈ t.legs) : ∃ l ∈ s.legs, d.toCoordinatorLegSpec = l.toCoordinatorLegSpec ∧
      t.phase.outstanding d.status ≤ s.phase.outstanding l.status := by
  have hlegs := h.legs
  generalize s.legs = before, t.legs = after at hlegs hd ⊢
  induction hlegs with
  | nil => exact nomatch hd
  | @cons l e _ _ hhead _ ih =>
    rcases List.mem_cons.mp hd with rfl | hd
    · exact ⟨l, List.mem_cons_self .., hhead⟩
    · obtain ⟨l', hl', hsame⟩ := ih hd
      exact ⟨l', List.mem_cons_of_mem _ hl', hsame⟩

theorem Ready.follows {s t : CoordinatorState} (h : Ready s) (hfollows : Follows s t)
    (hresponses : t.responses = s.responses) : Ready t := by
  constructor
  · have hroom := h.room
    have hle := hfollows.outstanding_le
    rw [hresponses]
    omega
  · intro d hd a hstage
    obtain ⟨l, hl, hspec, hle⟩ := hfollows.origin hd
    rw [hresponses, hspec]
    exact h.fresh l hl a (hstage.trans hle)

/-- A coordinator that has heard nothing yet can hear everything. -/
theorem Declared.ready {s : CoordinatorState} (h : Declared s) (hsilent : s.responses = []) :
    Ready s := by
  constructor
  · have hle := s.outstanding_le
    have hfew := h.few
    rw [hsilent, List.length_nil]
    omega
  · intro l _ a _ r hr
    rw [hsilent] at hr
    exact nomatch hr

/-- Phases in which nothing more is asked. -/
def Phase.closed (p : Phase) : Prop := p = .committed ∨ p = .compensated ∨ p = .exception

/-- The first leg is undone now, or it needs nothing and the later ones are looked at. -/
theorem compensate_cons (l : CoordinatorLeg) (rest : List CoordinatorLeg) :
    (∃ a : LegAction, a.pendingIn .compensating l.status ∧
      compensate (l :: rest) = (l :: rest, some (legRequest l.toCoordinatorLegSpec a))) ∨
    ∃ l' : CoordinatorLeg, l'.toCoordinatorLegSpec = l.toCoordinatorLegSpec ∧
      l'.status ≠ .held ∧ l'.status ≠ .accepted ∧
      compensate (l :: rest) = (l' :: (compensate rest).1, (compensate rest).2) := by
  rw [compensate]
  by_cases hheld : l.status = .held
  · rw [if_pos hheld]
    exact .inl ⟨.release, ⟨rfl, hheld⟩, rfl⟩
  · rw [if_neg hheld]
    by_cases haccepted : l.status = .accepted
    · rw [if_pos haccepted]
      by_cases hterms : l.quote.terms.cancellation = .beforeFulfillment
      · rw [if_pos hterms]
        exact .inl ⟨.cancel, ⟨rfl, haccepted⟩, rfl⟩
      · rw [if_neg hterms]
        exact .inr ⟨{ l with status := .exception }, rfl, by simp, by simp, rfl⟩
    · rw [if_neg haccepted]
      exact .inr ⟨l, rfl, hheld, haccepted, rfl⟩

theorem outstanding_compensating {status : LegStatus} (hheld : status ≠ .held)
    (haccepted : status ≠ .accepted) : Phase.outstanding .compensating status = 0 := by
  cases status with
  | held => exact absurd rfl hheld
  | accepted => exact absurd rfl haccepted
  | planned => rfl
  | released => rfl
  | cancelled => rfl
  | rejected => rfl
  | exception => rfl

theorem compensate_follows (legs : List CoordinatorLeg) :
    List.Forall₂ (fun l d => d.toCoordinatorLegSpec = l.toCoordinatorLegSpec ∧
      Phase.outstanding .compensating d.status ≤ Phase.outstanding .compensating l.status)
      legs (compensate legs).1 := by
  induction legs with
  | nil => exact .nil
  | cons l rest ih =>
    rcases compensate_cons l rest with ⟨a, -, heq⟩ | ⟨l', hspec, hheld, haccepted, heq⟩
    · rw [heq]
      exact List.forall₂_same.mpr fun d _ => ⟨rfl, le_rfl⟩
    · rw [heq]
      refine .cons ⟨hspec, ?_⟩ ih
      rw [outstanding_compensating hheld haccepted]
      exact Nat.zero_le _

theorem compensate_asks {legs : List CoordinatorLeg} {r : CoordinatorRequest}
    (h : (compensate legs).2 = some r) : ∃ d ∈ (compensate legs).1, ∃ a : LegAction,
      a.pendingIn .compensating d.status ∧ r = legRequest d.toCoordinatorLegSpec a := by
  induction legs with
  | nil => exact nomatch h
  | cons l rest ih =>
    rcases compensate_cons l rest with ⟨a, hin, heq⟩ | ⟨l', -, -, -, heq⟩
    · rw [heq] at h ⊢
      exact ⟨l, List.mem_cons_self .., a, hin, (Option.some.inj h).symm⟩
    · rw [heq] at h ⊢
      obtain ⟨d, hd, hasks⟩ := ih h
      exact ⟨d, List.mem_cons_of_mem _ hd, hasks⟩

theorem compensate_done {legs : List CoordinatorLeg} (h : (compensate legs).2 = none) :
    ∀ d ∈ (compensate legs).1, d.status ≠ .held ∧ d.status ≠ .accepted := by
  induction legs with
  | nil => exact fun _ hd => nomatch hd
  | cons l rest ih =>
    rcases compensate_cons l rest with ⟨a, -, heq⟩ | ⟨l', -, hheld, haccepted, heq⟩
    · rw [heq] at h
      exact nomatch h
    · rw [heq] at h ⊢
      intro d hd
      rcases List.mem_cons.mp hd with rfl | hd
      · exact ⟨hheld, haccepted⟩
      · exact ih h d hd

/-- What planning makes of a state: the same legs, and a request that belongs to their progress
unless nothing is left to ask. -/
structure Planned (s t : CoordinatorState) (request : Option CoordinatorRequest) : Prop where
  follows : Follows s t
  responses : t.responses = s.responses
  revision : t.revision ≤ s.revision + 1
  pending : t.pending = request
  closed : request = none → t.phase.closed
  consistent : Consistent t

/-- A state that asks for an action of a leg, as its progress allows. -/
theorem consistent_request {t : CoordinatorState} {d : CoordinatorLeg} {a : LegAction}
    (ht : Declared t) (hd : d ∈ t.legs) (hin : a.pendingIn t.phase d.status)
    (hpending : t.pending = some (legRequest d.toCoordinatorLegSpec a))
    (hphase : parsePhase t = .ok ()) : Consistent t := by
  refine ⟨?_, fun _ hnone => ?_, hphase, ?_⟩
  · intro r hr
    rw [hpending] at hr
    obtain rfl := List.mem_singleton.mp hr
    exact parseCommand_legRequest _ a
  · rw [hpending] at hnone
    exact nomatch hnone
  · intro r hr
    rw [hpending] at hr
    obtain rfl := List.mem_singleton.mp hr
    exact ht.parsePending_eq hd hin

theorem consistent_quiet {t : CoordinatorState} (hpending : t.pending = none)
    (huncertain : t.uncertain = false) (hphase : parsePhase t = .ok ()) : Consistent t := by
  refine ⟨?_, fun htrue => ?_, hphase, ?_⟩
  · rw [hpending]
    exact fun _ hr => nomatch hr
  · rw [huncertain] at htrue
    exact nomatch htrue
  · rw [hpending]
    exact fun _ hr => nomatch hr

theorem follows_phase {s t : CoordinatorState} (hcustomer : t.customer = s.customer)
    (hlegs : t.legs = s.legs)
    (hphase : ∀ status, t.phase.outstanding status ≤ s.phase.outstanding status) :
    Follows s t := by
  refine ⟨hcustomer, ?_⟩
  rw [hlegs]
  exact List.forall₂_same.mpr fun l _ => ⟨rfl, hphase l.status⟩

theorem requestFor_eq_none {s : CoordinatorState} {status : LegStatus} {action : LegAction}
    (h : requestFor s status action = none) : ∀ l ∈ s.legs, l.status ≠ status := by
  intro l hl
  have hnone := List.find?_eq_none.mp (Option.map_eq_none_iff.mp h) l hl
  rw [decide_eq_true_eq] at hnone
  exact hnone

/-- Every leg is held or accepted: the next is confirmed, or all are. -/
theorem planned_confirming {s : CoordinatorState} (hs : Declared s)
    (hphase : s.phase = .holding ∨ s.phase = .confirming)
    (hlegs : ∀ l ∈ s.legs, l.status ∈ [LegStatus.held, .accepted]) :
    ∃ t request, advanceConfirming s = .ok (t, request) ∧
      Planned s (t.planned request) request := by
  have hsame : ∀ status, Phase.outstanding .confirming status ≤ s.phase.outstanding status := by
    intro status
    rcases hphase with hphase | hphase
    · rw [hphase]
      cases status <;> decide
    · rw [hphase]
  rw [advanceConfirming]
  cases hrequest : requestFor s .held .confirm with
  | some r =>
    obtain ⟨l, hl, hheld, rfl⟩ := requestFor_eq_some hrequest
    have hfollows : Follows s (CoordinatorState.planned { s with phase := .confirming }
        (some (legRequest l.toCoordinatorLegSpec .confirm))) := follows_phase rfl rfl hsame
    refine ⟨_, _, rfl, hfollows, rfl, le_rfl, rfl, (by intro hnone; cases hnone), ?_⟩
    refine consistent_request (a := .confirm) (hfollows.declared hs) hl ⟨rfl, hheld⟩ rfl ?_
    rw [parsePhase_eq_ok]
    exact ⟨(by intro hother; cases hother), fun _ => hlegs, (by intro hother; cases hother),
      (by intro hother; cases hother), (by intro hother; cases hother)⟩
  | none =>
    have hnot := requestFor_eq_none hrequest
    have haccepted : ∀ l ∈ s.legs, l.status = .accepted := by
      intro l hl
      have hmem := hlegs l hl
      simp only [List.mem_cons, List.not_mem_nil, or_false] at hmem
      exact hmem.resolve_left (hnot l hl)
    have hfollows : Follows s (CoordinatorState.planned { s with phase := .committed } none) :=
      follows_phase rfl rfl fun status => Nat.zero_le _
    refine ⟨{ s with phase := .committed }, none, ?_, hfollows, rfl, le_rfl, rfl,
      fun _ => .inl rfl, consistent_quiet rfl rfl ?_⟩
    · rw [demand_true _ _ haccepted]
      rfl
    · rw [parsePhase_eq_ok]
      exact ⟨(by intro hother; cases hother), (by intro hother; cases hother),
        fun _ => ⟨rfl, haccepted⟩, (by intro hother; cases hother),
        (by intro hother; cases hother)⟩

theorem planned_compensating {s : CoordinatorState} (hs : Declared s)
    (hphase : s.phase = .compensating) :
    Planned s ((advanceCompensating s).1.planned (advanceCompensating s).2)
      (advanceCompensating s).2 := by
  have hlegs := compensate_follows s.legs
  rw [advanceCompensating]
  cases hrequest : (compensate s.legs).2 with
  | some r =>
    obtain ⟨d, hd, a, hin, rfl⟩ := compensate_asks hrequest
    have hfollows : Follows s (CoordinatorState.planned
        { s with legs := (compensate s.legs).1 } (some (legRequest d.toCoordinatorLegSpec a))) := by
      refine ⟨rfl, ?_⟩
      simp only [CoordinatorState.planned, hphase]
      exact hlegs
    refine ⟨hfollows, rfl, le_rfl, rfl, (by intro hnone; cases hnone), ?_⟩
    refine consistent_request (hfollows.declared hs) hd ?_ rfl ?_
    · show a.pendingIn s.phase d.status
      rw [hphase]
      exact hin
    · rw [parsePhase_eq_ok]
      simp only [CoordinatorState.planned, hphase]
      refine ⟨?_, ?_, ?_, ?_, ?_⟩ <;>
        · intro hother
          cases hother
  | none =>
    have hdone := compensate_done hrequest
    by_cases hleft : ∃ l ∈ (compensate s.legs).1, l.status = .exception ∨ l.status = .accepted
    · have hfollows : Follows s (CoordinatorState.planned
          { s with legs := (compensate s.legs).1, phase := .exception } none) :=
        ⟨rfl, hlegs.imp fun _ _ hsame => ⟨hsame.1, Nat.zero_le _⟩⟩
      simp only [if_pos hleft]
      refine ⟨hfollows, rfl, le_rfl, rfl, fun _ => .inr (.inr rfl), consistent_quiet rfl rfl ?_⟩
      rw [parsePhase_eq_ok]
      refine ⟨(by intro hother; cases hother), (by intro hother; cases hother),
        (by intro hother; cases hother), (by intro hother; cases hother), fun _ => ⟨rfl, ?_, ?_⟩⟩
      · obtain ⟨l, hl, hexception | haccepted⟩ := hleft
        · exact ⟨l, hl, hexception⟩
        · exact absurd haccepted (hdone l hl).2
      · intro l hl
        have hnot := hdone l hl
        simp only [List.mem_cons, List.not_mem_nil, or_false, not_or]
        exact hnot
    · have hfollows : Follows s (CoordinatorState.planned
          { s with legs := (compensate s.legs).1, phase := .compensated } none) :=
        ⟨rfl, hlegs.imp fun _ _ hsame => ⟨hsame.1, Nat.zero_le _⟩⟩
      simp only [if_neg hleft]
      refine ⟨hfollows, rfl, le_rfl, rfl, fun _ => .inr (.inl rfl), consistent_quiet rfl rfl ?_⟩
      rw [parsePhase_eq_ok]
      refine ⟨(by intro hother; cases hother), (by intro hother; cases hother),
        (by intro hother; cases hother), fun _ => ⟨rfl, fun l hl => ?_⟩,
        (by intro hother; cases hother)⟩
      have hnot := hdone l hl
      cases hstatus : l.status with
      | planned => decide
      | held => exact absurd hstatus hnot.1
      | accepted => exact absurd hstatus hnot.2
      | released => decide
      | cancelled => decide
      | rejected => decide
      | exception => exact absurd ⟨l, hl, .inl hstatus⟩ hleft

theorem planned_advance {s : CoordinatorState} (hs : Declared s) (hc : Consistent s)
    (hopen : ¬s.phase.closed) :
    ∃ t request, advance s = .ok (t, request) ∧ Planned s (t.planned request) request := by
  obtain ⟨hholding, hconfirming, -⟩ := parsePhase_eq_ok.mp hc.phase
  rw [advance]
  cases hphase : s.phase with
  | holding =>
    cases hrequest : requestFor s .planned .hold with
    | some r =>
      obtain ⟨l, hl, hplanned, rfl⟩ := requestFor_eq_some hrequest
      refine ⟨s, _, rfl, follows_phase rfl rfl fun _ => le_rfl, rfl, le_rfl, rfl,
        (by intro hnone; cases hnone), ?_⟩
      refine consistent_request (a := .hold) (hs.transfer rfl rfl) hl ⟨hphase, hplanned⟩ rfl ?_
      rw [parsePhase_eq_ok]
      simp only [CoordinatorState.planned, hphase]
      exact ⟨fun _ => hholding hphase, (by intro hother; cases hother),
        (by intro hother; cases hother), (by intro hother; cases hother),
        (by intro hother; cases hother)⟩
    | none =>
      have hnot := requestFor_eq_none hrequest
      refine planned_confirming hs (.inl hphase) fun l hl => ?_
      have hmem := hholding hphase l hl
      simp only [List.mem_cons, List.not_mem_nil, or_false] at hmem ⊢
      exact .inl (hmem.resolve_left (hnot l hl))
  | confirming => exact planned_confirming hs (.inr hphase) (hconfirming hphase)
  | compensating => exact ⟨_, _, rfl, planned_compensating hs hphase⟩
  | committed => exact absurd (.inl hphase) hopen
  | compensated => exact absurd (.inr (.inl hphase)) hopen
  | exception => exact absurd (.inr (.inr hphase)) hopen

theorem checkCoordinatorRevision_eq_ok {s : CoordinatorState} {revision : ℕ} :
    checkCoordinatorRevision s revision = .ok () ↔
      revision = s.revision ∧ (s.revision : ℤ) < maxSafeInteger := by
  simp only [checkCoordinatorRevision, units, bind_eq_ok, demand_eq_ok]
  constructor
  · rintro ⟨_, -, heq, hlt⟩
    exact ⟨heq, hlt⟩
  · rintro ⟨rfl, hlt⟩
    exact ⟨(), ⟨hlt.le, by simp⟩, rfl, hlt⟩

/-- Planning a stored state that nobody changed succeeds, and what it stores is valid. -/
theorem plan_of_valid {s : CoordinatorState} {revision : ℕ} (hs : parseCoordinator s = .ok ())
    (hcas : checkCoordinatorRevision s revision = .ok ()) :
    ∃ t request, planCoordinator s revision = .ok (t, request) ∧ parseCoordinator t = .ok () ∧
      Planned s t request := by
  obtain ⟨hd, hc, hrevision, hheard⟩ := parseCoordinator_eq_ok.mp hs
  have hlt := (checkCoordinatorRevision_eq_ok.mp hcas).2
  have hself : Follows s s := follows_phase rfl rfl fun _ => le_rfl
  rw [planCoordinator, hs, hcas, ok_bind, ok_bind]
  by_cases hpending : s.pending.isSome = true
  · rw [if_pos hpending]
    refine ⟨s, s.pending, rfl, hs, hself, rfl, by omega, rfl, fun hnone => ?_, hc⟩
    rw [hnone] at hpending
    cases hpending
  · rw [if_neg hpending]
    rw [Option.not_isSome_iff_eq_none] at hpending
    by_cases hclosed : s.phase ∈ [Phase.committed, .compensated, .exception]
    · rw [if_pos hclosed]
      refine ⟨s, none, rfl, hs, hself, rfl, by omega, hpending, fun _ => ?_, hc⟩
      simp only [List.mem_cons, List.not_mem_nil, or_false] at hclosed
      exact hclosed
    · rw [if_neg hclosed]
      have hopen : ¬s.phase.closed := by
        simp only [List.mem_cons, List.not_mem_nil, or_false] at hclosed
        exact hclosed
      obtain ⟨t, request, hadvance, hplanned⟩ := planned_advance hd hc hopen
      have hvalid : parseCoordinator (t.planned request) = .ok () := by
        rw [parseCoordinator_eq_ok]
        refine ⟨hplanned.follows.declared hd, hplanned.consistent, ?_, ?_⟩
        · have hnext := hplanned.revision
          omega
        · rw [hplanned.responses]
          exact hheard
      refine ⟨t.planned request, request, ?_, hvalid, hplanned⟩
      simp only [bind_eq_ok, pure_eq_ok]
      exact ⟨(t, request), hadvance, (), hvalid, rfl⟩

/-- What an outcome makes of a state: the leg of its request has less left to ask. -/
structure Moved (s u : CoordinatorState) (l : CoordinatorLeg) (a : LegAction) : Prop where
  follows : Follows s u
  responses : u.responses = s.responses
  revision : u.revision = s.revision
  less : u.outstanding < s.outstanding
  leg : ∀ d ∈ u.legs, d.toCoordinatorLegSpec = l.toCoordinatorLegSpec →
    u.phase.outstanding d.status < a.stage
  phase : parsePhase { u with pending := none } = .ok ()

theorem withLeg_legs {s : CoordinatorState} {l d : CoordinatorLeg} {status : LegStatus}
    (hd : d ∈ (s.withLeg l.legId status).legs) :
    d.status = status ∨ d ∈ s.legs ∧ d.legId ≠ l.legId := by
  obtain ⟨e, he, rfl⟩ := List.mem_map.mp hd
  by_cases hid : e.legId = l.legId
  · rw [if_pos hid]
    exact .inl rfl
  · rw [if_neg hid]
    exact .inr ⟨he, hid⟩

/-- A leg whose progress leaves less to ask, in a phase that leaves no more. -/
theorem moved_withLeg {s : CoordinatorState} {l : CoordinatorLeg} {a : LegAction} {p : Phase}
    {status : LegStatus} (hs : Declared s) (hl : l ∈ s.legs)
    (hphase : ∀ status, p.outstanding status ≤ s.phase.outstanding status)
    (hleft : s.phase.outstanding l.status = a.stage) (hless : p.outstanding status < a.stage)
    (hparsed : parsePhase { s.withLeg l.legId status with phase := p, pending := none } = .ok ()) :
    Moved s { s.withLeg l.legId status with phase := p } l a := by
  have hleg : ∀ d ∈ s.legs, d.legId = l.legId → d = l := fun d hd hid =>
    List.inj_on_of_nodup_map hs.legIds hd hl hid
  refine ⟨⟨rfl, ?_⟩, rfl, rfl, ?_, ?_, hparsed⟩
  · refine List.forall₂_map_right_iff.mpr (List.forall₂_same.mpr fun d hd => ?_)
    by_cases hid : d.legId = l.legId
    · obtain rfl := hleg d hd hid
      rw [if_pos rfl]
      exact ⟨rfl, (hleft ▸ hless).le⟩
    · rw [if_neg hid]
      exact ⟨rfl, hphase d.status⟩
  · rw [CoordinatorState.outstanding, CoordinatorState.outstanding]
    simp only [CoordinatorState.withLeg, List.map_map]
    apply List.sum_lt_sum
    · intro d hd
      by_cases hid : d.legId = l.legId
      · obtain rfl := hleg d hd hid
        simp only [Function.comp_apply, if_pos]
        exact (hleft ▸ hless).le
      · simp only [Function.comp_apply, if_neg hid]
        exact hphase d.status
    · refine ⟨l, hl, ?_⟩
      simp only [Function.comp_apply, if_pos]
      exact hleft ▸ hless
  · intro d hd hspec
    rcases withLeg_legs hd with hstatus | ⟨-, hid⟩
    · rw [hstatus]
      exact hless
    · exact absurd (congrArg CoordinatorLegSpec.legId hspec) hid

/-- The outcome of the pending request. -/
theorem settle_moved {s u : CoordinatorState} {l : CoordinatorLeg} {a : LegAction}
    {r : CoordinatorResponse} (hs : Declared s) (hc : Consistent s) (hl : l ∈ s.legs)
    (hpending : s.pending = some (legRequest l.toCoordinatorLegSpec a))
    (hsettle : settle s l a r = .ok u) : Moved s u l a := by
  have hparsed : Parsed s := ⟨hs.legIds, hs.holdIds, hc.phase, hc.pending⟩
  have hin := hparsed.pendingIn hl hpending
  have hleft := stage_of_pendingIn hin
  obtain ⟨hholding, hconfirming, -⟩ := parsePhase_eq_ok.mp hc.phase
  rcases settle_eq_ok hsettle with ⟨_, -, -, -, -, -, -, rfl⟩ | rfl
  · refine moved_withLeg hs hl (fun _ => le_rfl) hleft ?_ ?_
    · cases a <;> rw [hin.1] <;> decide
    · rw [parsePhase_eq_ok]
      cases a with
      | hold =>
        simp only [hin.1]
        refine ⟨fun _ d hd => ?_, nofun, nofun, nofun, nofun⟩
        rcases withLeg_legs hd with hstatus | ⟨hd, -⟩
        · rw [hstatus]
          decide
        · exact hholding hin.1 d hd
      | confirm =>
        simp only [hin.1]
        refine ⟨nofun, fun _ d hd => ?_, nofun, nofun, nofun⟩
        rcases withLeg_legs hd with hstatus | ⟨hd, -⟩
        · rw [hstatus]
          decide
        · exact hconfirming hin.1 d hd
      | release =>
        simp only [hin.1]
        refine ⟨?_, ?_, ?_, ?_, ?_⟩ <;>
        · intro hother
          cases hother
      | cancel =>
        simp only [hin.1]
        refine ⟨?_, ?_, ?_, ?_, ?_⟩ <;>
        · intro hother
          cases hother
  · refine moved_withLeg hs hl ?_ hleft ?_ ?_
    · intro status
      cases a <;> rw [hin.1] <;> cases status <;> decide
    · cases a <;> decide
    · rw [parsePhase_eq_ok]
      refine ⟨?_, ?_, ?_, ?_, ?_⟩ <;>
        · intro hother
          cases hother

/-- The pending request is left to ask. -/
theorem outstanding_pos {s : CoordinatorState} {l : CoordinatorLeg} {a : LegAction}
    (hs : parseCoordinator s = .ok ()) (hl : l ∈ s.legs)
    (hpending : s.pending = some (legRequest l.toCoordinatorLegSpec a)) : 0 < s.outstanding := by
  have hin := (parsed_of_parseCoordinator hs).pendingIn hl hpending
  have hpositive : 0 < s.phase.outstanding l.status := by
    rw [stage_of_pendingIn hin]
    cases a <;> decide
  have hmember : s.phase.outstanding l.status ≤ s.outstanding :=
    List.single_le_sum (fun _ _ => Nat.zero_le _) _ (List.mem_map_of_mem hl)
  omega

section
variable [CommandDigest]

/-- A definitive response to the request of a leg: it names the exact request, and the receipt
of an accepted one shows its progress. -/
structure Definitive (l : CoordinatorLegSpec) (a : LegAction) (r : CoordinatorResponse) : Prop where
  parsed : parseResponse r = .ok ()
  provider : r.providerId = l.quote.provider.id
  operation : r.operationId = l.operationIds.get a
  digest : r.commandDigest = CommandDigest.digest (legRequest l a).command
  receipt : ∀ receipt, r.outcome = .accepted receipt →
    receipt.commandDigest = r.commandDigest ∧ Receipted l a receipt

/-- A definitive response to the pending request. -/
def Answers (s : CoordinatorState) (r : CoordinatorResponse) : Prop :=
  ∃ l ∈ s.legs, ∃ a : LegAction, s.pending = some (legRequest l.toCoordinatorLegSpec a) ∧
    Definitive l.toCoordinatorLegSpec a r

/-- The response already recorded for the operation of another. -/
def CoordinatorState.prior (s : CoordinatorState) (r : CoordinatorResponse) :
    Option CoordinatorResponse :=
  s.responses.find? fun p => p.providerId = r.providerId ∧ p.operationId = r.operationId

/-- A state with an outcome, as it is stored. -/
def CoordinatorState.recorded (u : CoordinatorState) (r : CoordinatorResponse) :
    CoordinatorState :=
  { u with
    responses := u.responses ++ [r], pending := none, uncertain := false
    revision := u.revision + 1 }

/-- A recorded response came for the pending request, and its outcome moved that leg. -/
theorem record_eq_ok {s t : CoordinatorState} {r : CoordinatorResponse} {revision : ℕ}
    (h : recordCoordinatorResponse s r revision = .ok t) :
    s.prior r = some r ∧ t = s ∨ ∃ l ∈ s.legs, ∃ a : LegAction, ∃ u, Moved s u l a ∧
      r.providerId = l.quote.provider.id ∧ r.operationId = l.operationIds.get a ∧
      t = u.recorded r ∧ parseCoordinator t = .ok () := by
  simp only [recordCoordinatorResponse, bind_eq_ok] at h
  obtain ⟨_, hs, _, -, h⟩ := h
  obtain ⟨hd, hc, -⟩ := parseCoordinator_eq_ok.mp hs
  cases hprior : s.responses.find? fun p =>
      p.providerId = r.providerId ∧ p.operationId = r.operationId with
  | some prior =>
    rw [hprior] at h
    simp only [bind_eq_ok, demand_eq_ok, pure_eq_ok] at h
    obtain ⟨_, rfl, rfl⟩ := h
    exact .inl ⟨hprior, rfl⟩
  | none =>
    rw [hprior] at h
    simp only [answered, bind_eq_ok, require_eq_ok, demand_eq_ok, pure_eq_ok] at h
    obtain ⟨_, -, _, ⟨pending, hpending, _, ⟨hprovider, hoperation, -⟩, rfl⟩, a, -, l, hleg, u,
      hsettle, _, hvalid, rfl⟩ := h
    obtain ⟨hl, rfl⟩ := exactLeg_eq_ok hleg
    exact .inr ⟨l, hl, a, u, settle_moved hd hc hl hpending hsettle, hprovider.symm,
      hoperation.symm, rfl, hvalid⟩

omit [CommandDigest] in
theorem Ready.recorded {s u : CoordinatorState} {l : CoordinatorLeg} {a : LegAction}
    {r : CoordinatorResponse} (h : Ready s) (hs : Declared s) (hl : l ∈ s.legs)
    (hmoved : Moved s u l a) (hoperation : r.operationId = l.operationIds.get a) :
    Ready (u.recorded r) := by
  constructor
  · have hroom := h.room
    have hless := hmoved.less
    show (u.responses ++ [r]).length + u.outstanding ≤ 64
    rw [hmoved.responses, List.length_append, List.length_singleton]
    omega
  · intro d hd b hstage p hp ⟨hprovider, hheard⟩
    obtain ⟨e, he, hspec, hle⟩ := hmoved.follows.origin hd
    rcases List.mem_append.mp hp with hp | hp
    · rw [hspec] at hprovider hheard
      exact h.fresh e he b (hstage.trans hle) p (hmoved.responses ▸ hp) ⟨hprovider, hheard⟩
    · rw [List.mem_singleton.mp hp, hoperation, hspec] at hheard
      obtain ⟨rfl, rfl⟩ := hs.operation_unique hl he hheard
      have hless := hmoved.leg d hd hspec
      exact absurd hstage (Nat.not_le_of_lt hless)

/-- A state that is ready has room for the answer to its request, which it has not heard. -/
theorem Ready.answer {s : CoordinatorState} {r : CoordinatorResponse} (h : Ready s)
    (hs : parseCoordinator s = .ok ()) (hanswers : Answers s r) :
    s.prior r = none ∧ s.responses.length < 64 := by
  obtain ⟨l, hl, a, hpending, hdefinitive⟩ := hanswers
  have hin := (parsed_of_parseCoordinator hs).pendingIn hl hpending
  have hleft := stage_of_pendingIn hin
  constructor
  · apply List.find?_eq_none.mpr
    intro p hp hsame
    rw [decide_eq_true_eq, hdefinitive.provider, hdefinitive.operation] at hsame
    exact h.fresh l hl a hleft.ge p hp hsame
  · have hroom := h.room
    have hpositive := outstanding_pos hs hl hpending
    omega

/-- A state that the functions of the coordinator lead to. -/
inductive CoordinatorState.Reached : CoordinatorState → Prop where
  | create {coordinationId : Uuid} {customer : EntityReference} {legs : List CoordinatorLegSpec}
      {s : CoordinatorState} (created : createCoordinator coordinationId customer legs = .ok s) :
      Reached s
  | plan {s t : CoordinatorState} {revision : ℕ} {request : Option CoordinatorRequest}
      (reached : Reached s) (planned : planCoordinator s revision = .ok (t, request)) : Reached t
  | timeout {s t : CoordinatorState} {operationId : Uuid} {revision : ℕ} (reached : Reached s)
      (recorded : recordCoordinatorTimeout s operationId revision = .ok t) : Reached t
  | respond {s t : CoordinatorState} {r : CoordinatorResponse} {revision : ℕ}
      (reached : Reached s) (recorded : recordCoordinatorResponse s r revision = .ok t) : Reached t

theorem CoordinatorState.Reached.ready {s : CoordinatorState} (h : s.Reached) : Ready s := by
  induction h with
  | @create _ _ legs _ created =>
    simp only [createCoordinator, bind_eq_ok, pure_eq_ok] at created
    obtain ⟨_, hvalid, rfl⟩ := created
    obtain ⟨hd, -⟩ := parseCoordinator_eq_ok.mp hvalid
    exact hd.ready rfl
  | @plan s t revision request _ planned ih =>
    have hplanned := planned
    simp only [planCoordinator, bind_eq_ok] at hplanned
    obtain ⟨_, hs, _, hcas, -⟩ := hplanned
    obtain ⟨t', request', hplan, -, hfollows⟩ := plan_of_valid hs hcas
    obtain ⟨rfl, rfl⟩ := Prod.mk.inj (Except.ok.inj (planned.symm.trans hplan))
    exact ih.follows hfollows.follows hfollows.responses
  | timeout _ recorded ih =>
    simp only [recordCoordinatorTimeout, bind_eq_ok, pure_eq_ok] at recorded
    obtain ⟨_, -, _, -, _, -, rfl⟩ := recorded
    exact ⟨ih.room, ih.fresh⟩
  | @respond s t r revision _ recorded ih =>
    have hrecorded := recorded
    simp only [recordCoordinatorResponse, bind_eq_ok] at hrecorded
    obtain ⟨_, hs, -⟩ := hrecorded
    obtain ⟨hd, -⟩ := parseCoordinator_eq_ok.mp hs
    rcases record_eq_ok recorded with ⟨-, rfl⟩ | ⟨l, hl, a, u, hmoved, -, hoperation, rfl, -⟩
    · exact ih
    · exact ih.recorded hd hl hmoved hoperation

end

/-- A provider that refuses everything. -/
def refusal [CommandDigest] (_ : CoordinatorState) (request : CoordinatorRequest) :
    CoordinatorResponse :=
  { providerId := request.providerId, operationId := request.command.operationId
    commandDigest := CommandDigest.digest request.command, outcome := .rejected "no" }

end DirectTrade.Foundation.Commitments
