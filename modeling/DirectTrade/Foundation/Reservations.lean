import DirectTrade.Foundation.Commitments
import DirectTrade.Library.Keyed
import Mathlib.Algebra.Order.Ring.Nat
import Mathlib.Logic.Relation

/-!
A provider's capacity is never overbooked. What each command does to the holds is said once;
from it, every state that commands lead to keeps the bookings within the capacity at every
instant, and a hold that has ended stays ended.
-/

namespace DirectTrade.Foundation.Commitments

open Library Outcome

structure Valid (s : ProviderState) : Prop where
  formed : ∀ q ∈ s.quotes, parseQuote q = .ok ()
  revisions : (s.quotes.map fun q => (q.revision.entity, q.revision.revisionId)).Nodup
  holds : ∀ h ∈ s.holds, parseHold h = .ok ()
  ids : (s.holds.map CapacityHold.id).Nodup
  quoted : ∀ h ∈ s.holds, ∃ q, s.findQuote h.quote = some q ∧ h.expiresAt ≤ q.expiresAt ∧
    h.good + h.damaged ≤ q.quantity
  operations : (s.receipts.map ProviderReceipt.operationId).Nodup

theorem valid_of_parseState {s : ProviderState} {u : Unit} (h : parseState s = .ok u) :
    Valid s := by
  simp only [parseState, unique, withinQuote, bind_eq_ok, each_eq_ok, demand_eq_ok] at h
  obtain ⟨_, -, _, -, _, -, _, -, _, hformed, _, hrevisions, _, -, _, -, _, hholds, _, hids, _,
    hquoted, _, -, _, -, _, -, _, -, hoperations⟩ := h
  exact ⟨hformed, hrevisions, hholds, hids, hquoted, hoperations⟩

theorem window_of_parseQuote {q : Quote} {u : Unit} (h : parseQuote q = .ok u) :
    q.window.start < q.window.stop := by
  simp only [parseQuote, parseInstantInterval, bind_eq_ok, datatype_eq_ok, demand_eq_ok] at h
  obtain ⟨_, -, _, -, _, -, _, -, _, -, _, -, _, -, _, hwindow, -⟩ := h
  exact hwindow

theorem totals_of_parseHold {h : CapacityHold} {u : Unit} (hparse : parseHold h = .ok u) :
    (h.fulfillments.map Fulfillment.good).sum = h.good ∧
      (h.fulfillments.map Fulfillment.damaged).sum = h.damaged := by
  simp only [parseHold, bind_eq_ok, demand_eq_ok] at hparse
  obtain ⟨_, -, _, -, _, -, _, -, _, -, _, -, _, -, _, -, htotals⟩ := hparse
  exact htotals

theorem findQuote_eq_some {s : ProviderState} {ref : RevisionReference} {q : Quote}
    (h : s.findQuote ref = some q) : q ∈ s.quotes ∧ q.revision = ref :=
  Keyed.mem_of_find? h

/-- A change that one hold of a state may go through. -/
structure Progress (h h' : CapacityHold) : Prop where
  id : h'.id = h.id
  quote : h'.quote = h.quote
  ended : h.status.reserves = false → h'.status.reserves = false

theorem progress_refl (h : CapacityHold) : Progress h h := ⟨rfl, rfl, fun hended => hended⟩

theorem progress_lapse (now : ℤ) (h : CapacityHold) : Progress h (h.lapse now) := by
  rw [CapacityHold.lapse]
  by_cases hlapsed : h.status = .held ∧ h.expiresAt ≤ now
  · rw [if_pos hlapsed]
    exact ⟨rfl, rfl, fun _ => rfl⟩
  · rw [if_neg hlapsed]
    exact progress_refl h

theorem progress_confirm {s : ProviderState} {q : Quote} {h h' : CapacityHold} {now : ℤ}
    (hok : confirm s q h now = .ok h') : Progress h h' := by
  simp only [confirm, bind_eq_ok, demand_eq_ok, pure_eq_ok] at hok
  obtain ⟨_, ⟨hheld, -⟩, rfl⟩ := hok
  exact ⟨rfl, rfl, fun hended => by simp [hheld, CommitmentStatus.reserves] at hended⟩

theorem progress_release {h h' : CapacityHold} (hok : release h = .ok h') : Progress h h' := by
  simp only [release, bind_eq_ok, demand_eq_ok, pure_eq_ok] at hok
  obtain ⟨_, -, rfl⟩ := hok
  exact ⟨rfl, rfl, fun _ => rfl⟩

theorem progress_cancel {q : Quote} {h h' : CapacityHold} (hok : cancel q h = .ok h') :
    Progress h h' := by
  simp only [cancel, bind_eq_ok, demand_eq_ok, pure_eq_ok] at hok
  obtain ⟨_, -, rfl⟩ := hok
  exact ⟨rfl, rfl, fun _ => rfl⟩

theorem progress_fulfill {q : Quote} {h h' : CapacityHold} {f : Fulfillment}
    (hok : fulfill q h f = .ok h') : Progress h h' := by
  simp only [fulfill, bind_eq_ok, demand_eq_ok, pure_eq_ok] at hok
  obtain ⟨_, ⟨hopen, -⟩, _, -, rfl⟩ := hok
  refine ⟨rfl, rfl, fun hended => ?_⟩
  rcases hopen with hopen | hopen | hopen
  · simp [hopen, CommitmentStatus.reserves] at hended
  · simp [hopen, CommitmentStatus.reserves] at hended
  · simp [hopen, CommitmentStatus.reserves] at hended

theorem progress_contest {h h' : CapacityHold} {d : Dispute} (hok : contest h d = .ok h') :
    Progress h h' := by
  simp only [contest, bind_eq_ok, demand_eq_ok, pure_eq_ok] at hok
  obtain ⟨_, ⟨hopen, -⟩, rfl⟩ := hok
  refine ⟨rfl, rfl, fun hended => ?_⟩
  rcases hopen with hopen | hopen | hopen | hopen
  · simp [hopen, CommitmentStatus.reserves] at hended
  · simp [hopen, CommitmentStatus.reserves] at hended
  · simp [hopen, CommitmentStatus.reserves] at hended
  · simp [hopen, CommitmentStatus.reserves] at hended

theorem changeHold_eq_ok {s : ProviderState} {holdId : Uuid} {ref : RevisionReference}
    {change : Quote → CapacityHold → Settled CapacityHold} {e : Effect}
    (h : changeHold s holdId ref change = .ok e) :
    ∃ q d d', s.findQuote ref = some q ∧ d ∈ s.holds ∧ d.id = holdId ∧ d.quote = ref ∧
      change q d = .ok d' ∧ e = ⟨s.withHold d', ref, some d'⟩ := by
  simp only [changeHold, exactQuote, target, bind_eq_ok, require_eq_ok, pure_eq_ok] at h
  obtain ⟨q, hq, d, hd, d', hchange, rfl⟩ := h
  obtain ⟨hfound, hquote⟩ := Option.filter_eq_some_iff.mp hd
  obtain ⟨hmem, hid⟩ := Keyed.mem_of_find? hfound
  have hrevision := (findQuote_eq_some hq).2
  exact ⟨q, d, d', hq, hmem, hid, (of_decide_eq_true hquote).trans hrevision, hchange, rfl⟩

theorem reserve_eq_ok {s : ProviderState} {q : Quote} {holdId : Uuid} {expiresAt now : ℤ}
    {h : CapacityHold} (hok : reserve s q holdId expiresAt now = .ok h) :
    holdId ∉ s.holds.map CapacityHold.id ∧ reserveFits s q = true ∧ now < expiresAt ∧
      h = ⟨holdId, q.revision, expiresAt, .held, 0, 0, false, [], []⟩ := by
  simp only [reserve, bind_eq_ok, demand_eq_ok, pure_eq_ok] at hok
  obtain ⟨_, ⟨hfresh, -⟩, _, ⟨-, -, -, hexpires, -⟩, _, hfits, rfl⟩ := hok
  exact ⟨Keyed.find?_eq_none_iff.mp hfresh, hfits, hexpires, rfl⟩

theorem publish_eq_ok {s t : ProviderState} {q : Quote} {now : ℤ}
    (h : publish s q now = .ok t) : t = { s with quotes := s.quotes ++ [q] } := by
  simp only [publish, bind_eq_ok, pure_eq_ok] at h
  obtain ⟨_, -, _, -, _, -, _, -, rfl⟩ := h
  rfl

/-- The three ways in which a command changes a state. -/
inductive Performed (s : ProviderState) : Effect → Prop where
  | published (q : Quote) : Performed s ⟨{ s with quotes := s.quotes ++ [q] }, q.revision, none⟩
  | reserved {q : Quote} {h : CapacityHold} (found : s.findQuote h.quote = some q)
      (fits : reserveFits s q = true) (fresh : h.id ∉ s.holds.map CapacityHold.id)
      (held : h.status = .held) :
      Performed s ⟨{ s with holds := s.holds ++ [h] }, h.quote, some h⟩
  | changed {h h' : CapacityHold} (mem : h ∈ s.holds) (progress : Progress h h') :
      Performed s ⟨s.withHold h', h.quote, some h'⟩

theorem performed_of_changeHold {s : ProviderState} {holdId : Uuid} {ref : RevisionReference}
    {change : Quote → CapacityHold → Settled CapacityHold} {e : Effect}
    (hprogress : ∀ q h h', change q h = .ok h' → Progress h h')
    (h : changeHold s holdId ref change = .ok e) : Performed s e := by
  obtain ⟨q, d, d', -, hmem, -, rfl, hchange, rfl⟩ := changeHold_eq_ok h
  exact .changed hmem (hprogress q d d' hchange)

theorem performed_of_perform {s : ProviderState} {c : ProviderCommand} {now : ℤ} {e : Effect}
    (h : perform s c now = .ok e) : Performed s e := by
  obtain ⟨operationId, payload⟩ := c
  cases payload with
  | quotePublish q =>
    simp only [perform, bind_eq_ok, pure_eq_ok] at h
    obtain ⟨t, ht, rfl⟩ := h
    obtain rfl := publish_eq_ok ht
    exact .published q
  | hold holdId ref expiresAt =>
    simp only [perform, exactQuote, bind_eq_ok, require_eq_ok, pure_eq_ok] at h
    obtain ⟨q, hq, d, hd, rfl⟩ := h
    obtain ⟨hfresh, hfits, -, rfl⟩ := reserve_eq_ok hd
    obtain ⟨-, rfl⟩ := findQuote_eq_some hq
    exact .reserved hq hfits hfresh rfl
  | confirm holdId ref => exact performed_of_changeHold (fun _ _ _ => progress_confirm) h
  | release holdId ref => exact performed_of_changeHold (fun _ _ _ => progress_release) h
  | cancel holdId ref => exact performed_of_changeHold (fun _ _ _ => progress_cancel) h
  | fulfill holdId ref good damaged final evidence =>
    exact performed_of_changeHold (fun _ _ _ => progress_fulfill) h
  | dispute holdId ref why evidence =>
    exact performed_of_changeHold (fun _ _ _ => progress_contest) h

section
variable [CommandDigest]

/-- The two ways of an accepted command. -/
inductive Answered (s : ProviderState) (c : ProviderCommand) (x : ExecutionContext) :
    Applied → Prop where
  | duplicate {prior : ProviderReceipt} (valid : Valid s) (mem : prior ∈ s.receipts)
      (operation : prior.operationId = c.operationId)
      (same : prior.commandDigest = CommandDigest.digest c) : Answered s c x ⟨s, prior, true⟩
  | fresh {e : Effect} (valid : Valid s)
      (unknown : c.operationId ∉ s.receipts.map ProviderReceipt.operationId)
      (clock : s.lastAcceptedAt ≤ x.acceptedAt)
      (performed : perform (s.lapse x.acceptedAt) c x.acceptedAt = .ok e)
      (after : Valid (e.stored c x.acceptedAt)) :
      Answered s c x
        ⟨e.stored c x.acceptedAt, e.receipt c (e.state.revision + 1), false⟩

theorem answered_of_apply {s : ProviderState} {c : ProviderCommand} {x : ExecutionContext}
    {out : Applied} (h : applyProviderCommand s c x = .ok out) : Answered s c x out := by
  simp only [applyProviderCommand, bind_eq_ok] at h
  obtain ⟨_, hstate, _, -, _, -, h⟩ := h
  have hvalid := valid_of_parseState hstate
  cases hprior : s.receipts.find? fun r => r.operationId = c.operationId with
  | some prior =>
    rw [hprior] at h
    simp only [bind_eq_ok, demand_eq_ok, pure_eq_ok] at h
    obtain ⟨_, hsame, rfl⟩ := h
    obtain ⟨hmem, hoperation⟩ := Keyed.mem_of_find? hprior
    exact .duplicate hvalid hmem hoperation hsame
  | none =>
    rw [hprior] at h
    simp only [bind_eq_ok, demand_eq_ok, pure_eq_ok] at h
    obtain ⟨_, ⟨-, -, hclock⟩, _, -, e, hperformed, _, hafter, rfl⟩ := h
    exact .fresh hvalid (Keyed.find?_eq_none_iff.mp hprior) hclock hperformed
      (valid_of_parseState hafter)

end

/-- What a hold takes at an instant: the quantity of its quote, inside the quote's window, as
long as the hold has not ended. -/
def CapacityHold.taken (s : ProviderState) (t : ℤ) (h : CapacityHold) : ℕ :=
  match s.findQuote h.quote with
  | some q =>
    if h.status.reserves = true ∧ q.window.start ≤ t ∧ t < q.window.stop then q.quantity else 0
  | none => 0

/-- What all the holds take at an instant. -/
def ProviderState.booked (s : ProviderState) (t : ℤ) : ℕ :=
  (s.holds.map (CapacityHold.taken s t)).sum

/-- At every instant the holds are within the capacity. -/
def WithinCapacity (s : ProviderState) : Prop := ∀ t, s.booked t ≤ s.capacity

theorem taken_eq {s : ProviderState} {h : CapacityHold} {q : Quote}
    (hfound : s.findQuote h.quote = some q) (t : ℤ) : h.taken s t =
      if h.status.reserves = true ∧ q.window.start ≤ t ∧ t < q.window.stop then q.quantity
      else 0 := by
  rw [CapacityHold.taken, hfound]

/-- The sweep is over what is booked. -/
theorem load_bookings (s : ProviderState) (t : ℤ) : Sweep.load s.bookings t = s.booked t := by
  rw [ProviderState.bookings, ProviderState.booked]
  induction s.holds with
  | nil => rfl
  | cons h rest ih =>
    rw [List.map_cons, List.sum_cons, ← ih, CapacityHold.taken]
    cases hreserves : h.status.reserves with
    | false =>
      rw [List.filter_cons_of_neg (by simp [hreserves])]
      cases s.findQuote h.quote with
      | none => simp
      | some q => simp
    | true =>
      rw [List.filter_cons_of_pos (by simp [hreserves])]
      cases hfound : s.findQuote h.quote with
      | none =>
        rw [List.filterMap_cons_none (by rw [hfound]; rfl)]
        simp
      | some q =>
        rw [List.filterMap_cons_some (by rw [hfound]; rfl), Sweep.load, List.map_cons,
          List.sum_cons, ← Sweep.load]
        simp only [Quote.booking, true_and]
        rfl

theorem taken_le {s : ProviderState} {h h' : CapacityHold} (hprogress : Progress h h') (t : ℤ) :
    h'.taken s t ≤ h.taken s t := by
  cases hfound : s.findQuote h.quote with
  | none =>
    have hnone : h'.taken s t = 0 := by rw [CapacityHold.taken, hprogress.quote, hfound]
    rw [hnone]
    exact Nat.zero_le _
  | some q =>
    have hfound' : s.findQuote h'.quote = some q := hprogress.quote ▸ hfound
    rw [taken_eq hfound', taken_eq hfound]
    by_cases hin : h'.status.reserves = true ∧ q.window.start ≤ t ∧ t < q.window.stop
    · have hreserves : h.status.reserves = true := by
        by_contra hended
        have hended' := hprogress.ended (by simpa using hended)
        simp [hended'] at hin
      rw [if_pos hin, if_pos ⟨hreserves, hin.2⟩]
    · rw [if_neg hin]
      exact Nat.zero_le _

/-- Holds that only progress take no more. -/
theorem booked_map_le {s : ProviderState} {f : CapacityHold → CapacityHold}
    (hprogress : ∀ h ∈ s.holds, Progress h (f h)) (t : ℤ) :
    ({ s with holds := s.holds.map f } : ProviderState).booked t ≤ s.booked t := by
  have hsame : ∀ h, CapacityHold.taken { s with holds := s.holds.map f } t h = h.taken s t :=
    fun _ => rfl
  rw [ProviderState.booked, ProviderState.booked, List.map_map]
  refine List.sum_le_sum fun h hh => ?_
  rw [Function.comp_apply, hsame]
  exact taken_le (hprogress h hh) t

theorem ids_lapse (s : ProviderState) (now : ℤ) :
    (s.lapse now).holds.map CapacityHold.id = s.holds.map CapacityHold.id := by
  rw [ProviderState.lapse, List.map_map]
  exact List.map_congr_left fun h _ => (progress_lapse now h).id

/-- With distinct identifiers the one hold of an identifier is the one that changes. -/
theorem progress_withHold {s : ProviderState} (hids : (s.holds.map CapacityHold.id).Nodup)
    {h h' : CapacityHold} (hmem : h ∈ s.holds) (hprogress : Progress h h') :
    ∀ x ∈ s.holds, Progress x (if x.id = h'.id then h' else x) := by
  intro x hx
  by_cases hid : x.id = h'.id
  · obtain rfl : x = h := List.inj_on_of_nodup_map hids hx hmem (hid.trans hprogress.id)
    rw [if_pos hid]
    exact hprogress
  · rw [if_neg hid]
    exact progress_refl x

theorem findQuote_append {s : ProviderState} {ref : RevisionReference} {q new : Quote}
    (h : s.findQuote ref = some q) :
    ({ s with quotes := s.quotes ++ [new] } : ProviderState).findQuote ref = some q := by
  rw [ProviderState.findQuote] at h ⊢
  rw [List.find?_append, h]
  rfl

theorem booked_publish {s : ProviderState} (hquoted : ∀ h ∈ s.holds, ∃ q,
    s.findQuote h.quote = some q) (new : Quote) (t : ℤ) :
    ({ s with quotes := s.quotes ++ [new] } : ProviderState).booked t = s.booked t := by
  refine congrArg List.sum (List.map_congr_left fun h hh => ?_)
  obtain ⟨q, hfound⟩ := hquoted h hh
  rw [taken_eq hfound, taken_eq (findQuote_append hfound)]

theorem booked_reserve {s : ProviderState} {h : CapacityHold} {q : Quote}
    (hfound : s.findQuote h.quote = some q) (hheld : h.status = .held) (t : ℤ) :
    ({ s with holds := s.holds ++ [h] } : ProviderState).booked t =
      Sweep.load (q.booking :: s.bookings) t := by
  have hfound' : ({ s with holds := s.holds ++ [h] } : ProviderState).findQuote h.quote = some q :=
    hfound
  rw [Sweep.load, List.map_cons, List.sum_cons, ← Sweep.load, load_bookings, ProviderState.booked,
    List.map_append, List.sum_append, List.map_singleton, List.sum_singleton, taken_eq hfound',
    hheld, Nat.add_comm]
  simp only [CommitmentStatus.reserves, true_and]
  rfl

/-- A command keeps within the capacity. -/
theorem within_perform {s : ProviderState} {e : Effect} (hwithin : WithinCapacity s)
    (hids : (s.holds.map CapacityHold.id).Nodup) (hquoted : ∀ h ∈ s.holds, ∃ q,
      s.findQuote h.quote = some q) (hwindows : ∀ q ∈ s.quotes, q.window.start < q.window.stop)
    (h : Performed s e) : WithinCapacity e.state ∧ e.state.capacity = s.capacity := by
  cases h with
  | published q =>
    refine ⟨fun t => ?_, rfl⟩
    rw [booked_publish hquoted]
    exact hwithin t
  | @reserved q h found fits fresh held =>
    refine ⟨fun t => ?_, rfl⟩
    rw [booked_reserve found held]
    have hall : ∀ b ∈ q.booking :: s.bookings, b.start < b.stop := by
      intro b hb
      rcases List.mem_cons.mp hb with rfl | hb
      · exact hwindows q (findQuote_eq_some found).1
      · obtain ⟨d, -, hd⟩ := List.mem_filterMap.mp hb
        obtain ⟨q', hq', rfl⟩ := Option.map_eq_some_iff.mp hd
        exact hwindows q' (findQuote_eq_some hq').1
    exact (Sweep.sweep_iff hall).mp fits t
  | changed mem progress =>
    refine ⟨fun t => ?_, rfl⟩
    exact (booked_map_le (progress_withHold hids mem progress) t).trans (hwithin t)

theorem createProviderState_eq_ok {configuration : ProviderConfiguration} {acceptedAt : ℤ}
    {s : ProviderState} (h : createProviderState configuration acceptedAt = .ok s) :
    Valid s ∧ s.quotes = [] ∧ s.holds = [] ∧ s.receipts = [] := by
  simp only [createProviderState, bind_eq_ok, pure_eq_ok] at h
  obtain ⟨_, hparse, rfl⟩ := h
  exact ⟨valid_of_parseState hparse, rfl, rfl, rfl⟩

/-- A command leaves the receipts as they are, and its own is new. -/
theorem receipts_perform {s : ProviderState} {e : Effect} (h : Performed s e) :
    e.state.receipts = s.receipts ∧ e.state.revision = s.revision := by
  cases h with
  | published _ => exact ⟨rfl, rfl⟩
  | reserved _ _ _ _ => exact ⟨rfl, rfl⟩
  | changed _ _ => exact ⟨rfl, rfl⟩

/-- A hold that has ended is there after a command and has ended. -/
theorem ended_perform {s : ProviderState} {e : Effect} (hids : (s.holds.map CapacityHold.id).Nodup)
    (h : Performed s e) {d : CapacityHold} (hd : d ∈ s.holds) (hended : d.status.reserves = false) :
    ∃ d' ∈ e.state.holds, d'.id = d.id ∧ d'.status.reserves = false := by
  cases h with
  | published _ => exact ⟨d, hd, rfl, hended⟩
  | reserved _ _ _ _ => exact ⟨d, List.mem_append_left _ hd, rfl, hended⟩
  | changed mem progress =>
    have hprogress := progress_withHold hids mem progress d hd
    exact ⟨_, List.mem_map.mpr ⟨d, hd, rfl⟩, hprogress.id, hprogress.ended hended⟩

section
variable [CommandDigest]

theorem within_apply {s : ProviderState} {c : ProviderCommand} {x : ExecutionContext}
    {out : Applied} (hwithin : WithinCapacity s) (h : applyProviderCommand s c x = .ok out) :
    WithinCapacity out.state := by
  cases answered_of_apply h with
  | duplicate _ _ _ _ => exact hwithin
  | @fresh e hvalid _ _ performed _ =>
    have hlapsed : WithinCapacity (s.lapse x.acceptedAt) := fun t =>
      (booked_map_le (fun h _ => progress_lapse x.acceptedAt h) t).trans (hwithin t)
    have hids : ((s.lapse x.acceptedAt).holds.map CapacityHold.id).Nodup :=
      ids_lapse s x.acceptedAt ▸ hvalid.ids
    have hquoted : ∀ h ∈ (s.lapse x.acceptedAt).holds, ∃ q,
        (s.lapse x.acceptedAt).findQuote h.quote = some q := by
      intro h' hh'
      obtain ⟨h, hh, rfl⟩ := List.mem_map.mp hh'
      obtain ⟨q, hq, -⟩ := hvalid.quoted h hh
      rw [(progress_lapse x.acceptedAt h).quote]
      exact ⟨q, hq⟩
    have hwindows : ∀ q ∈ (s.lapse x.acceptedAt).quotes, q.window.start < q.window.stop :=
      fun q hq => window_of_parseQuote (hvalid.formed q hq)
    obtain ⟨hstored, hcapacity⟩ := within_perform hlapsed hids hquoted hwindows
      (performed_of_perform performed)
    exact hstored

/-- The states that commands lead to from a new pool, with the operations that changed a state
on the way. -/
inductive ProviderState.Run : ProviderState → List Uuid → Prop where
  | create {configuration : ProviderConfiguration} {acceptedAt : ℤ} {s : ProviderState}
      (created : createProviderState configuration acceptedAt = .ok s) : Run s []
  | apply {s : ProviderState} {changes : List Uuid} {c : ProviderCommand} {x : ExecutionContext}
      {out : Applied} (run : Run s changes) (applied : applyProviderCommand s c x = .ok out) :
      Run out.state (if out.state = s then changes else changes ++ [c.operationId])

/-- One state comes after another one by commands. -/
def Later : ProviderState → ProviderState → Prop :=
  Relation.ReflTransGen fun s t => ∃ c x out, applyProviderCommand s c x = .ok out ∧ t = out.state

theorem valid_apply {s : ProviderState} {c : ProviderCommand} {x : ExecutionContext}
    {out : Applied} (h : applyProviderCommand s c x = .ok out) : Valid out.state := by
  cases answered_of_apply h with
  | duplicate valid _ _ _ => exact valid
  | fresh _ _ _ _ after => exact after

theorem ProviderState.Run.valid {s : ProviderState} {changes : List Uuid} (h : s.Run changes) :
    Valid s := by
  cases h with
  | create created => exact (createProviderState_eq_ok created).1
  | apply _ applied => exact valid_apply applied

theorem ProviderState.Run.within {s : ProviderState} {changes : List Uuid} (h : s.Run changes) :
    WithinCapacity s := by
  induction h with
  | create created =>
    obtain ⟨-, -, hholds, -⟩ := createProviderState_eq_ok created
    intro t
    rw [ProviderState.booked, hholds]
    exact Nat.zero_le _
  | apply _ applied ih => exact within_apply ih applied

/-- The operations that changed a state are those with a receipt. -/
theorem ProviderState.Run.changes_eq {s : ProviderState} {changes : List Uuid}
    (h : s.Run changes) : changes = s.receipts.map ProviderReceipt.operationId := by
  induction h with
  | create created =>
    obtain ⟨-, -, -, hreceipts⟩ := createProviderState_eq_ok created
    rw [hreceipts]
    rfl
  | @apply s changes c x out _ applied ih =>
    cases answered_of_apply applied with
    | duplicate _ _ _ _ => rw [if_pos rfl, ih]
    | @fresh e _ _ _ performed _ =>
      obtain ⟨hreceipts, hrevision⟩ := receipts_perform (performed_of_perform performed)
      have hchanged : e.stored c x.acceptedAt ≠ s := by
        intro heq
        have hsame := congrArg ProviderState.revision heq
        simp only [Effect.stored, hrevision, ProviderState.lapse] at hsame
        omega
      rw [if_neg hchanged, ih, Effect.stored]
      simp only [hreceipts, List.map_append]
      rfl

theorem ended_apply {s : ProviderState} {c : ProviderCommand} {x : ExecutionContext}
    {out : Applied} (h : applyProviderCommand s c x = .ok out) {d : CapacityHold}
    (hd : d ∈ s.holds) (hended : d.status.reserves = false) :
    ∃ d' ∈ out.state.holds, d'.id = d.id ∧ d'.status.reserves = false := by
  cases answered_of_apply h with
  | duplicate _ _ _ _ => exact ⟨d, hd, rfl, hended⟩
  | fresh valid _ _ performed _ =>
    have hlapse := progress_lapse x.acceptedAt d
    have hids : ((s.lapse x.acceptedAt).holds.map CapacityHold.id).Nodup :=
      ids_lapse s x.acceptedAt ▸ valid.ids
    obtain ⟨d', hd', hid, hended'⟩ := ended_perform hids (performed_of_perform performed)
      (List.mem_map.mpr ⟨d, hd, rfl⟩) (hlapse.ended hended)
    exact ⟨d', hd', hid.trans hlapse.id, hended'⟩

theorem ended_later {s t : ProviderState} (hvalid : Valid s) (h : Later s t) {d : CapacityHold}
    (hd : d ∈ s.holds) (hended : d.status.reserves = false) :
    Valid t ∧ ∃ d' ∈ t.holds, d'.id = d.id ∧ d'.status.reserves = false := by
  induction h with
  | refl => exact ⟨hvalid, d, hd, rfl, hended⟩
  | tail _ hstep ih =>
    obtain ⟨c, x, out, happly, rfl⟩ := hstep
    obtain ⟨-, d', hd', hid, hended'⟩ := ih
    obtain ⟨d'', hd'', hid', hended''⟩ := ended_apply happly hd' hended'
    exact ⟨valid_apply happly, d'', hd'', hid'.trans hid, hended''⟩

/-- Whatever commands lead to a state: at every instant the holds that have not ended are
within the capacity; a hold that has ended never takes capacity again; what was delivered
under a hold is the sum of its fulfillments and within its quote; and an operation has
changed the state once at most. -/
theorem capacity_never_overbooked {s : ProviderState} {changes : List Uuid}
    (h : s.Run changes) :
    (∀ t, s.booked t ≤ s.capacity) ∧
    (∀ d ∈ s.holds, ∃ q, s.findQuote d.quote = some q ∧ d.good + d.damaged ≤ q.quantity ∧
      (d.fulfillments.map Fulfillment.good).sum = d.good ∧
      (d.fulfillments.map Fulfillment.damaged).sum = d.damaged) ∧
    (∀ t, Later s t → ∀ d ∈ s.holds, d.status.reserves = false →
      (∃ d' ∈ t.holds, d'.id = d.id) ∧
      ∀ d' ∈ t.holds, d'.id = d.id → d'.status.reserves = false) ∧
    changes.Nodup := by
  have hvalid := h.valid
  refine ⟨h.within, ?_, ?_, h.changes_eq ▸ hvalid.operations⟩
  · intro d hd
    obtain ⟨q, hfound, -, hquantity⟩ := hvalid.quoted d hd
    exact ⟨q, hfound, hquantity, totals_of_parseHold (hvalid.holds d hd)⟩
  · intro t hlater d hd hended
    obtain ⟨hvalid', d', hd', hid, hended'⟩ := ended_later hvalid hlater hd hended
    refine ⟨⟨d', hd', hid⟩, fun x hx hxid => ?_⟩
    obtain rfl : x = d' := List.inj_on_of_nodup_map hvalid'.ids hx hd' (hxid.trans hid.symm)
    exact hended'

end

@[reducible] def sampleDigest : CommandDigest := ⟨ProviderCommand.operationId⟩

def sampleUnit : ExternalIdentifier := ⟨.organization 1, "cases", "cases"⟩

def samplePool : ProviderConfiguration :=
  ⟨.organization 1, ⟨.resource, 6, some 1, rfl⟩, .warehouse, sampleUnit, 10⟩

def sampleTerms : Terms :=
  ⟨5, sampleUnit, .included, .included, .beforeFulfillment, 1, 2, 2⟩

/-- Six cases, between the instants 100 and 200. -/
def sampleQuote : Quote :=
  ⟨⟨⟨.record, 3, some 1, rfl⟩, 4, 5⟩, none, .organization 1, .organization 2,
    ⟨.resource, 6, some 1, rfl⟩, 6, sampleUnit, ⟨100, 200⟩, 90, sampleTerms⟩

def sampleHold : CapacityHold := ⟨7, sampleQuote.revision, 80, .held, 0, 0, false, [], []⟩

def samplePublished : ProviderReceipt :=
  ⟨20, 20, .quotePublish, none, sampleQuote.revision, .quoted, 1⟩

def sampleReserved : ProviderReceipt :=
  ⟨21, 21, .hold, some 7, sampleQuote.revision, .hold .held, 2⟩

def sampleEmpty : ProviderState :=
  ⟨samplePool.provider, samplePool.resource, .warehouse, sampleUnit, 10, 0, 0, [], [], []⟩

def sampleQuoted : ProviderState :=
  { sampleEmpty with
    revision := 1, lastAcceptedAt := 10, quotes := [sampleQuote], receipts := [samplePublished] }

/-- The pool with the quote published and held. -/
def sampleHeld : ProviderState :=
  { sampleQuoted with
    revision := 2, lastAcceptedAt := 20, holds := [sampleHold]
    receipts := [samplePublished, sampleReserved] }

theorem sampleHeld_run : letI := sampleDigest; sampleHeld.Run [20, 21] := by
  let := sampleDigest
  have hcreate : createProviderState samplePool 0 = .ok sampleEmpty := by decide
  have hpublish : applyProviderCommand sampleEmpty ⟨20, .quotePublish sampleQuote⟩ ⟨0, 10⟩ =
      .ok ⟨sampleQuoted, samplePublished, false⟩ := by decide
  have hhold : applyProviderCommand sampleQuoted ⟨21, .hold 7 sampleQuote.revision 80⟩ ⟨1, 20⟩ =
      .ok ⟨sampleHeld, sampleReserved, false⟩ := by decide
  have hrun := ((ProviderState.Run.create hcreate).apply hpublish).apply hhold
  have hchanged : sampleQuoted ≠ sampleEmpty ∧ sampleHeld ≠ sampleQuoted := by decide
  rw [if_neg hchanged.1, if_neg hchanged.2] at hrun
  exact hrun

/-- Six of the ten cases are booked inside the window. -/
theorem capacity_never_overbooked_sample : letI := sampleDigest
    sampleHeld.Run [20, 21] ∧ sampleHeld.booked 150 = 6 ∧
      sampleHeld.booked 150 ≤ sampleHeld.capacity := by
  let := sampleDigest
  exact ⟨sampleHeld_run, by decide, (capacity_never_overbooked sampleHeld_run).1 150⟩

end DirectTrade.Foundation.Commitments
