import Mathlib.Data.List.Nodup
import DirectTrade.Near.Once
import DirectTrade.Near.Trail

/-!
What the audit trail says. The index is always exact, and a page is the one asked for unless the
platform's 32-bit sizes bend its ends. Ids tell events apart only by entity, type and millisecond,
so they stay distinct exactly as long as no accepted call repeats an announcement within one.
-/

namespace DirectTrade.Near

open Library Outcome

variable {s t u : DTPContract} {env : Env} {m : Method}

/-- What stands on either side of a mark that occurs no further right. -/
theorem split_mark {mark : Char} {a b a' b' : List Char}
    (h : a ++ mark :: b = a' ++ mark :: b') (hb : mark ∉ b) (hb' : mark ∉ b') :
    a = a' ∧ b = b' := by
  cases List.append_eq_append_iff.mp h with
  | inl h =>
    obtain ⟨c, ha, hc⟩ := h
    cases c with
    | nil =>
      rw [List.nil_append, List.cons.injEq] at hc
      exact ⟨by simpa using ha.symm, hc.2⟩
    | cons x c =>
      rw [List.cons_append, List.cons.injEq] at hc
      refine absurd ?_ hb
      rw [hc.2]
      exact List.mem_append_right _ List.mem_cons_self
  | inr h =>
    obtain ⟨c, ha, hc⟩ := h
    cases c with
    | nil =>
      rw [List.nil_append, List.cons.injEq] at hc
      exact ⟨by simpa using ha, hc.2.symm⟩
    | cons x c =>
      rw [List.cons_append, List.cons.injEq] at hc
      refine absurd ?_ hb'
      rw [hc.2]
      exact List.mem_append_right _ List.mem_cons_self

/-- The types in the order of their declaration. -/
def EventType.all : List EventType :=
  [intentPosted, intentCancelled, listingActivated, listingWithdrawn, offerSubmitted,
    offerRetracted, contractCreated, contractEscrowLocked, contractResolvedBuyer,
    contractResolvedSeller, fulfillmentSellerAttested, fulfillmentBuyerAttested,
    fulfillmentDisputed, settlementCreated, escrowReleased, agreementProposed,
    agreementActivated, relationshipTierUpdated, catalogEntryCreated, catalogEntryUpdated,
    lotCreated, lotDisposed, lotOwnershipTransferred, financePoolRegistered,
    financingRequested, financingConfirmed, partyIdentityUpdated, fsma204CteRecorded,
    lotCOAAnchored, lotTransformed]

theorem EventType.find_lowercase (type : EventType) :
    EventType.all.find? (fun other => other.lowercase == type.lowercase) = some type := by
  cases type <;> decide

theorem EventType.lowercase_inj {a b : EventType} (h : a.lowercase = b.lowercase) : a = b := by
  have hfind := a.find_lowercase
  rw [h, b.find_lowercase] at hfind
  exact (Option.some.inj hfind).symm

theorem EventType.lowercase_plain (type : EventType) : ':' ∉ type.lowercase.toList := by
  cases type <;> decide

theorem numeral_plain (n : ℕ) : ':' ∉ (toString n).toList := by
  intro h
  rw [Nat.toString_eq_repr, Nat.toList_repr] at h
  have hdigit := Nat.isDigit_of_mem_toDigits (by decide) (by decide) h
  exact absurd hdigit (by decide)

/-- An id shows the entity, the type and the time of its event. -/
theorem makeEventId_inj {id id' : String} {type type' : EventType} {now now' : U64}
    (h : makeEventId id type now = makeEventId id' type' now') :
    id = id' ∧ type = type' ∧ now = now' := by
  have hlist := congrArg String.toList h
  have hcolon : (":" : String).toList = [':'] := rfl
  simp only [makeEventId, String.toList_append, hcolon, List.append_assoc, List.singleton_append]
    at hlist
  have hrest := List.append_cancel_left hlist
  rw [← List.append_assoc, ← List.append_assoc] at hrest
  obtain ⟨hfront, htime⟩ := split_mark hrest (numeral_plain _) (numeral_plain _)
  obtain ⟨hid, htype⟩ := split_mark hfront type.lowercase_plain type'.lowercase_plain
  refine ⟨String.toList_inj.mp hid, EventType.lowercase_inj (String.toList_inj.mp htype), ?_⟩
  have hvalue : toString now.val = toString now'.val := String.toList_inj.mp htime
  exact Fin.ext (@numbered_inj "" _ _ (congrArg ("" ++ ·) hvalue))

/-- The log is short enough for its numbering, the index is exact, and every event is under the
id of its own entity, type and time. -/
structure Trailed (s : DTPContract) : Prop where
  bounded : s.auditLog.length < 2 ^ 32
  exact : s.trail.Exact AuditEvent.entityId
  stamped : ∀ e ∈ s.auditLog, e.Stamped e.timestamp

theorem trailed_new (owner : AccountId) : Trailed (.new owner) where
  bounded := by
    show 0 < 2 ^ 32
    omega
  exact := IndexedLog.exact_empty _
  stamped := fun _ he => absurd he List.not_mem_nil

theorem Trailed.logged {announced : List Announcement} (hs : Trailed s)
    (h : Logged env s t announced) : Trailed t := by
  obtain ⟨events, -, hstamped, htrail⟩ := h.logged
  refine ⟨h.bounded hs.bounded, ?_, ?_⟩
  · rw [htrail]
    exact hs.exact.recordAll events
  · have hlog : t.auditLog = s.auditLog ++ events := by
      have := congrArg IndexedLog.log htrail
      rwa [IndexedLog.log_recordAll] at this
    intro e he
    rw [hlog] at he
    cases List.mem_append.mp he with
    | inl he => exact hs.stamped e he
    | inr he =>
      have hnow := hstamped e he
      rw [hnow.timestamp]
      exact hnow

/-- No two events share an id. -/
def DistinctIds (s : DTPContract) : Prop := (s.auditLog.map AuditEvent.eventId).Nodup

/-- An accepted call announces what was announced already in this millisecond. -/
def Repeats (s : DTPContract) (env : Env) (m : Method) : Prop :=
  (∃ t, execute s env m = .ok t) ∧
    ∃ e ∈ s.auditLog, e.timestamp = env.nowMs ∧ e.announcement ∈ announces s env m

/-- The ids stay distinct exactly if nothing is announced twice in a millisecond. -/
theorem Logged.distinctIds {announced : List Announcement} (hs : Trailed s)
    (h : Logged env s t announced) (htypes : (announced.map Prod.snd).Nodup) :
    DistinctIds t ↔ DistinctIds s ∧
      ¬ ∃ e ∈ s.auditLog, e.timestamp = env.nowMs ∧ e.announcement ∈ announced := by
  obtain ⟨events, hannounced, hstamped, htrail⟩ := h.logged
  have hlog : t.auditLog = s.auditLog ++ events := by
    have := congrArg IndexedLog.log htrail
    rwa [IndexedLog.log_recordAll] at this
  have hnew : (events.map AuditEvent.eventId).Nodup := by
    rw [← hannounced, List.map_map] at htypes
    refine List.Nodup.map_on ?_ (List.Nodup.of_map _ htypes)
    intro a ha b hb heq
    rw [(hstamped a ha).eventId, (hstamped b hb).eventId] at heq
    exact List.inj_on_of_nodup_map htypes ha hb (makeEventId_inj heq).2.1
  unfold DistinctIds
  rw [hlog, List.map_append, List.nodup_append]
  constructor
  · intro h
    obtain ⟨hold, -, hdisjoint⟩ := h
    refine ⟨hold, ?_⟩
    intro h
    obtain ⟨e, he, hnow, hmem⟩ := h
    rw [← hannounced] at hmem
    obtain ⟨e', he', hsame⟩ := List.mem_map.mp hmem
    refine hdisjoint _ (List.mem_map_of_mem he) _ (List.mem_map_of_mem he') ?_
    obtain ⟨hentity, htype⟩ := Prod.mk.inj hsame
    rw [(hs.stamped e he).eventId, (hstamped e' he').eventId, hnow, hentity, htype]
  · intro h
    obtain ⟨hold, hfresh⟩ := h
    refine ⟨hold, hnew, ?_⟩
    intro a ha b hb heq
    obtain ⟨e, he, rfl⟩ := List.mem_map.mp ha
    obtain ⟨e', he', rfl⟩ := List.mem_map.mp hb
    rw [(hs.stamped e he).eventId, (hstamped e' he').eventId] at heq
    obtain ⟨hentity, htype, hnow⟩ := makeEventId_inj heq
    refine hfresh ⟨e, he, hnow, ?_⟩
    rw [← hannounced]
    exact List.mem_map.mpr ⟨e', he', by simp [AuditEvent.announcement, hentity, htype]⟩

theorem execute_trailed (hs : Trailed s) (h : execute s env m = .ok t) : Trailed t :=
  hs.logged (execute_announces h)

theorem call_trailed (hs : Trailed s) (r : Env × Method) : Trailed (call s r) := by
  unfold call
  split
  next t h => exact execute_trailed hs h
  next => exact hs

/-- A call keeps the ids distinct unless it repeats an announcement. -/
theorem call_distinctIds (hs : Trailed s) (r : Env × Method) :
    DistinctIds (call s r) ↔ DistinctIds s ∧ ¬ Repeats s r.1 r.2 := by
  unfold call
  split
  next t h =>
    rw [(execute_announces h).distinctIds hs (announces_types s r.1 r.2)]
    simp only [Repeats, h, Except.ok.injEq, exists_eq', true_and]
  next e h =>
    simp only [Repeats, h, reduceCtorEq, exists_false, false_and, not_false_eq_true, and_true]

theorem run_trailed (hs : Trailed s) (requests : List (Env × Method)) :
    Trailed (run s requests) := by
  induction requests generalizing s with
  | nil => exact hs
  | cons r rest ih => exact ih (call_trailed hs r)

theorem run_distinctIds (hs : Trailed s) (requests : List (Env × Method)) :
    DistinctIds (run s requests) ↔ DistinctIds s ∧ Avoids Repeats s requests := by
  induction requests generalizing s with
  | nil => exact (and_iff_left trivial).symm
  | cons r rest ih =>
    show DistinctIds (run (call s r) rest) ↔ _
    rw [ih (call_trailed hs r), call_distinctIds hs r, and_assoc]
    rfl

/-- The events of an entity. -/
def DTPContract.eventsOf (s : DTPContract) (entityId : String) : List AuditEvent :=
  s.auditLog.filter fun e => decide (e.entityId = entityId)

theorem mapM_require {α β : Type} {message : Panic} {f : α → Option β} {l : List α}
    {found : List β} (h : l.map f = found.map some) :
    (l.mapM fun a => require message (f a)) = .ok found := by
  induction l generalizing found with
  | nil =>
    rw [List.map_nil, eq_comm, List.map_eq_nil_iff] at h
    rw [h]
    rfl
  | cons a rest ih =>
    cases found with
    | nil => simp at h
    | cons b found =>
      rw [List.map_cons, List.map_cons, List.cons.injEq] at h
      rw [List.mapM_cons, h.1, ih h.2]
      rfl

/-- The page of a query, cut where the platform cuts it. -/
theorem getAuditTrail_eq (hs : Trailed s) (entityId : String) (offset limit : U64) :
    getAuditTrail s entityId offset limit =
      if offset.val + limit.val < 2 ^ 64 then
        let n := (s.eventsOf entityId).length
        let start := min (offset.val % 2 ^ 32) n
        let finish := min ((offset.val + limit.val) % 2 ^ 32) n
        if start ≤ finish then .ok (((s.eventsOf entityId).drop start).take (finish - start))
        else .error "slice index out of order"
      else .error "attempt to add with overflow" := by
  have hindex : (s.auditIndex.get? entityId).getD [] =
      IndexedLog.positions (fun e => decide (e.entityId = entityId)) s.auditLog :=
    hs.exact entityId
  have hlength : ((s.auditIndex.get? entityId).getD []).length =
      (s.eventsOf entityId).length := by
    rw [hindex, IndexedLog.length_positions]
    rfl
  have hread : ((s.auditIndex.get? entityId).getD []).map (fun i => s.auditLog[i]?) =
      (s.eventsOf entityId).map some := by
    rw [hindex, IndexedLog.map_positions]
    rfl
  unfold getAuditTrail
  simp only [checkedAdd]
  split
  next hsum =>
    simp only [ok_bind, asUsize, hlength]
    split
    next hle =>
      rw [demand, if_pos hle]
      refine mapM_require ?_
      rw [List.map_take, List.map_drop, hread, ← List.map_drop, ← List.map_take]
    next hlt =>
      rw [demand, if_neg hlt]
      rfl
  next => rfl

/-- The sum of a query fits its word, and the 32-bit sizes leave both ends of the page where
they are in a list of `n` events. -/
def Addressable (n : ℕ) (offset limit : U64) : Prop :=
  offset.val + limit.val < 2 ^ 64 ∧
    if 2 ^ 32 ≤ offset.val then
      min (asUsize offset) n = min ((offset.val + limit.val) % 2 ^ 32) n
    else offset.val + limit.val < 2 ^ 32 ∨ n ≤ (offset.val + limit.val) % 2 ^ 32

/-- A query answers with the page asked for exactly if that page is addressable. -/
theorem getAuditTrail_exact (hs : Trailed s) (entityId : String) (offset limit : U64) :
    getAuditTrail s entityId offset limit =
      .ok (((s.eventsOf entityId).drop offset.val).take limit.val) ↔
        Addressable (s.eventsOf entityId).length offset limit := by
  have hshort : (s.eventsOf entityId).length < 2 ^ 32 :=
    lt_of_le_of_lt (List.length_filter_le _ _) hs.bounded
  rw [getAuditTrail_eq hs]
  generalize s.eventsOf entityId = events at hshort ⊢
  unfold Addressable
  by_cases hsum : offset.val + limit.val < 2 ^ 64
  · rw [if_pos hsum, and_iff_right hsum]
    simp only
    by_cases hfar : 2 ^ 32 ≤ offset.val
    · -- nothing was asked for
      have hnone : events.drop offset.val = [] := List.drop_eq_nil_of_le (by omega)
      rw [if_pos hfar, hnone, List.take_nil]
      unfold asUsize
      split
      next hle =>
        rw [Except.ok.injEq, ← List.length_eq_zero_iff, List.length_take, List.length_drop]
        omega
      next hlt =>
        simp only [reduceCtorEq, false_iff]
        omega
    · rw [if_neg hfar]
      have hstart : events.drop (min (offset.val % 2 ^ 32) events.length) =
          events.drop offset.val := by
        rw [Nat.mod_eq_of_lt (by omega)]
        by_cases hle : offset.val ≤ events.length
        · rw [min_eq_left hle]
        · rw [min_eq_right (by omega), List.drop_length, List.drop_eq_nil_of_le (by omega)]
      rw [hstart]
      split
      next hle =>
        rw [Except.ok.injEq, List.take_eq_take_iff, List.length_drop]
        omega
      next hlt =>
        simp only [reduceCtorEq, false_iff]
        omega
  · rw [if_neg hsum]
    simp only [reduceCtorEq, hsum, false_and]

/-- The index lists exactly the positions of the entity's events, increasing. -/
def Indexed (s : DTPContract) : Prop :=
  ∀ entityId, (∀ i, i ∈ (s.auditIndex.get? entityId).getD [] ↔
      ∃ e, s.auditLog[i]? = some e ∧ e.entityId = entityId) ∧
    ((s.auditIndex.get? entityId).getD []).Pairwise (· < ·)

theorem Trailed.indexed (hs : Trailed s) : Indexed s := by
  intro entityId
  have hindex : (s.auditIndex.get? entityId).getD [] =
      IndexedLog.positions (fun e => decide (e.entityId = entityId)) s.auditLog :=
    hs.exact entityId
  rw [hindex]
  refine ⟨?_, IndexedLog.positions_increasing _ _⟩
  intro i
  have hplace : i ∈ IndexedLog.positions (fun e => decide (e.entityId = entityId)) s.auditLog ↔
      ∃ e, s.auditLog[i]? = some e ∧ decide (e.entityId = entityId) = true :=
    IndexedLog.mem_positions
  simpa only [decide_eq_true_eq] using hplace

/-- In every reached state the index is exact and the addressable queries, no others, get their
page; the ids are distinct exactly as long as no accepted call repeats an announcement. -/
theorem audit_trail_addressable (owner : AccountId) (requests : List (Env × Method)) :
    Indexed (run (.new owner) requests) ∧
      (∀ entityId offset limit, getAuditTrail (run (.new owner) requests) entityId offset limit =
          .ok ((((run (.new owner) requests).eventsOf entityId).drop offset.val).take limit.val) ↔
        Addressable ((run (.new owner) requests).eventsOf entityId).length offset limit) ∧
      (DistinctIds (run (.new owner) requests) ↔ Avoids Repeats (.new owner) requests) := by
  have htrailed : Trailed (run (.new owner) requests) := run_trailed (trailed_new owner) requests
  refine ⟨htrailed.indexed, getAuditTrail_exact htrailed, ?_⟩
  rw [run_distinctIds (trailed_new owner)]
  exact and_iff_right List.nodup_nil

/-- A party amends its identity twice in one block. -/
def sampleAmends : List (Env × Method) :=
  [(⟨sampleBuyer, 0⟩, .registerParty),
   (⟨sampleBuyer, 0⟩, .updatePartyIdentity none none none none),
   (⟨sampleBuyer, 0⟩, .updatePartyIdentity none none none none)]

/-- Both events have one id, and asking for everything from the second on panics. -/
theorem audit_ids_repeat :
    ¬ DistinctIds (run (.new sampleOwner) sampleAmends) ∧
      getAuditTrail (run (.new sampleOwner) sampleAmends) "buyer.near" 1 18446744073709551615 ≠
        .ok ((((run (.new sampleOwner) sampleAmends).eventsOf "buyer.near").drop 1).take
          18446744073709551615) := by
  refine ⟨?_, ?_⟩
  · unfold DistinctIds
    decide
  · intro h
    have hpage : getAuditTrail (run (.new sampleOwner) sampleAmends) "buyer.near" 1
        18446744073709551615 = .error "attempt to add with overflow" := rfl
    rw [hpage] at h
    cases h

end DirectTrade.Near
