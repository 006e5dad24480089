import DirectTrade.Store.Identities
import DirectTrade.Store.Listing

/-!
Readers that poll the records and the events of the store while others write. Events are committed
in the order of their numbers, so that nothing appears behind a cursor that was served, and who
goes on after the last event served misses none.
-/

namespace DirectTrade.Store

open Library Library.Outcome Library.Serial

/-- What a request that reads answers with. -/
inductive Reply where
  | records (page : RecordPage)
  | events (page : EventPage)

/-- Every number that an answer gives to go on after. -/
def Reply.cursors : Reply → List ℕ
  | records page => page.records.filterMap (·.1.seq) ++ page.nextCursor.toList
  | events page => page.events.map EventRow.seq ++ page.nextCursor.toList ++ [page.latestCursor]

section
variable [Platform] [Rendering]

def readRecords (token : Option String) (now : ℤ) (q : ListQuery) : Reader Reply := do
  let principal ← resolvePrincipal token
  let page ← listRecords principal now q
  pure (.records page)

def readEvents (token : Option String) (now : ℤ) (q : EventsQuery) : Reader Reply := do
  let principal ← resolvePrincipal token
  let page ← listEvents principal now q
  pure (.events page)

/-- The programs that poll. -/
def Poller (p : Reader Reply) : Prop :=
  (∃ token now q, p = readRecords token now q) ∨ ∃ token now q, p = readEvents token now q

end

section
variable [Rendering] {P : Db → Prop}

theorem listRecords_reads {principal : Option Principal} {now : ℤ} {q : ListQuery}
    {page : RecordPage} (h : (listRecords principal now q).Reads P page) :
    page = ⟨[], none⟩ ∨ ∃ s, P s ∧ (∀ r ∈ page.records, r.1 ∈ s.records.values) ∧
      ∀ c, page.nextCursor = some c → ∃ r ∈ page.records, r.1.seq = some c := by
  unfold listRecords at h
  by_cases huuid : q.rootId.all isUuidText = true
  swap
  · rw [if_neg huuid, Query.reads_pure] at h
    exact .inl h.symm
  right
  rw [if_pos huuid] at h
  simp only [Query.reads_bind, Query.reads_read, Query.reads_pure] at h
  obtain ⟨grants, -, rows, ⟨s, hs, rfl⟩, rfl⟩ := h
  refine ⟨s, hs, ?_, ?_⟩
  · intro r hr
    obtain ⟨r', hr', rfl⟩ := List.mem_map.mp (List.mem_of_mem_filter (List.mem_of_mem_take hr))
    exact mem_recordsBySeq.mp (List.mem_of_mem_filter (List.mem_of_mem_take hr'))
  · intro c hc
    by_cases hmore : limitOf q.limit 50 < ((s.findRecords q principal grants now).map
        fun r => (r, s.supersededBy r.recordId)).length
    · rw [if_pos hmore, Option.bind_eq_some_iff] at hc
      obtain ⟨r, hr, hseq⟩ := hc
      exact ⟨r, List.mem_of_getLast? hr, hseq⟩
    · rw [if_neg hmore] at hc
      cases hc

/-- The events that a page is cut out of. -/
def Db.visibleEvents (db : Db) (q : EventsQuery) (p : Principal) (grants : List GrantRow)
    (now : ℤ) : List (EventRow × Json) :=
  (db.findEvents q (q.after.getD 0) p grants now).filter fun e =>
    canRead (e.1.visibilityInput e.2) (some p) grants now

/-- A page of events is cut out of one state, its last cursor out of another, for grants read
before. -/
theorem listEvents_reads {principal : Option Principal} {now : ℤ} {q : EventsQuery}
    {page : EventPage} (h : (listEvents principal now q).Reads P page) :
    ∃ p grants s s', principal = some p ∧ (grantsForCaller (some p)).Reads P grants ∧ P s ∧ P s' ∧
      page.events = ((s.visibleEvents q p grants now).take (limitOf q.limit 100)).map Prod.fst ∧
      (∀ c, page.nextCursor = some c →
        ∃ e ∈ s.findEvents q (q.after.getD 0) p grants now, e.1.seq = c) ∧
      page.latestCursor = s'.latestEvent q p grants now := by
  simp only [listEvents, answer, Query.reads_bind, Query.reads_ofExcept, require_eq_ok,
    demand_eq_ok, Query.reads_read, Query.reads_pure] at h
  obtain ⟨p, hp, grants, hgrants, _, -, rows, ⟨s, hs, rfl⟩, latest, ⟨s', hs', rfl⟩, rfl⟩ := h
  refine ⟨p, grants, s, s', hp, hgrants, hs, hs', rfl, ?_, rfl⟩
  intro c hc
  by_cases hmore : limitOf q.limit 100 < (s.findEvents q (q.after.getD 0) p grants now).length
  · rw [if_pos hmore, Option.map_eq_some_iff] at hc
    obtain ⟨e, he, hseq⟩ := hc
    exact ⟨e, List.mem_of_getElem? he, hseq⟩
  · rw [if_neg hmore] at hc
    cases hc

end

theorem mem_eventsBySeq {db : Db} {e : EventRow × Json} : e ∈ db.eventsBySeq ↔
    e.1 ∈ db.events ∧ ∃ r, db.records.get? e.1.recordId = some r ∧ e.2 = r.body := by
  unfold Db.eventsBySeq
  rw [List.mem_insertionSort, List.mem_filterMap]
  constructor
  · rintro ⟨e', he', heq⟩
    obtain ⟨r, hr, rfl⟩ := Option.map_eq_some_iff.mp heq
    exact ⟨he', r, hr, rfl⟩
  · rintro ⟨he, r, hr, hbody⟩
    refine ⟨e.1, he, ?_⟩
    rw [hr, Option.map_some, ← hbody]

/-- Events with their bodies come in the order of their numbers. -/
theorem Numbered.eventsBySeq_sorted {db : Db} {n : ℕ} (h : Numbered db n) :
    db.eventsBySeq.Pairwise fun a b => a.1.seq < b.1.seq := by
  have hsorted : (db.events.filterMap fun e => (db.records.get? e.recordId).map fun r =>
      (e, r.body)).Pairwise fun a b : EventRow × Json => a.1.seq < b.1.seq := by
    rw [List.pairwise_filterMap]
    refine h.increasing.imp ?_
    intro a b hlt x hx y hy
    obtain ⟨_, -, rfl⟩ := Option.map_eq_some_iff.mp hx
    obtain ⟨_, -, rfl⟩ := Option.map_eq_some_iff.mp hy
    exact hlt
  unfold Db.eventsBySeq
  rw [List.Pairwise.insertionSort_eq (hsorted.imp Nat.le_of_lt)]
  exact hsorted

theorem foldl_max_mem (l : List ℕ) (a : ℕ) : l.foldl max a = a ∨ l.foldl max a ∈ l := by
  induction l generalizing a with
  | nil => exact .inl rfl
  | cons b rest ih =>
    rw [List.foldl_cons]
    rcases ih (max a b) with h | h
    · rw [h]
      rcases Nat.le_total a b with hab | hab
      · rw [Nat.max_eq_right hab]
        exact .inr (List.mem_cons_self ..)
      · rw [Nat.max_eq_left hab]
        exact .inl rfl
    · exact .inr (List.mem_cons_of_mem _ h)

theorem mem_of_findEvents [Rendering] {db : Db} {q : EventsQuery} {after : ℕ} {p : Principal}
    {grants : List GrantRow} {now : ℤ} {e : EventRow × Json}
    (h : e ∈ db.findEvents q after p grants now) : e.1 ∈ db.events :=
  (mem_eventsBySeq.mp (List.mem_of_mem_filter (List.mem_of_mem_take h))).1

section
variable [Platform] [Rendering] {P : Db → Prop}

/-- A cursor that is served is nought, or the number of an event that was committed. -/
theorem Poller.cursor {q : Reader Reply} (hq : Poller q) {reply : Reply} (h : q.Reads P reply)
    (hP : ∀ s, P s → ∃ n, Standing s n) {c : ℕ} (hc : c ∈ reply.cursors) :
    c = 0 ∨ ∃ s, P s ∧ ∃ e ∈ s.events, e.seq = c := by
  rcases hq with ⟨token, now, query, rfl⟩ | ⟨token, now, query, rfl⟩
  · simp only [readRecords, Query.reads_bind, Query.reads_pure] at h
    obtain ⟨principal, -, page, hpage, rfl⟩ := h
    rcases listRecords_reads hpage with rfl | ⟨s, hs, hstored, hnext⟩
    · cases hc
    right
    obtain ⟨r, hr, hseq⟩ : ∃ r ∈ page.records, r.1.seq = some c := by
      rcases List.mem_append.mp hc with hc | hc
      · exact List.mem_filterMap.mp hc
      · exact hnext c (Option.mem_toList.mp hc)
    obtain ⟨n, hstanding⟩ := hP s hs
    obtain ⟨id, hid⟩ := (Dict.mem_values_iff ..).mp (hstored r hr)
    obtain ⟨e, he, -, heq⟩ := hstanding.event id r.1 hid
    exact ⟨s, hs, e, he, Option.some.inj (heq.symm.trans hseq)⟩
  · simp only [readEvents, Query.reads_bind, Query.reads_pure] at h
    obtain ⟨principal, -, page, hpage, rfl⟩ := h
    obtain ⟨p, grants, s, s', -, -, hs, hs', hevents, hnext, hlatest⟩ := listEvents_reads hpage
    simp only [Reply.cursors, List.mem_append, List.mem_map, List.mem_singleton,
      Option.mem_toList] at hc
    rcases hc with (⟨e, he, rfl⟩ | hc) | rfl
    · right
      rw [hevents] at he
      obtain ⟨x, hx, rfl⟩ := List.mem_map.mp he
      exact ⟨s, hs, x.1, mem_of_findEvents (List.mem_of_mem_filter (List.mem_of_mem_take hx)), rfl⟩
    · obtain ⟨e, he, rfl⟩ := hnext c hc
      exact .inr ⟨s, hs, e.1, mem_of_findEvents he, rfl⟩
    · rw [hlatest]
      unfold Db.latestEvent
      rcases foldl_max_mem _ 0 with h | h
      · exact .inl h
      · obtain ⟨e, he, hseq⟩ := List.mem_map.mp h
        exact .inr ⟨s', hs', e.1, (mem_eventsBySeq.mp (List.mem_of_mem_filter he)).1, hseq⟩

end

/-- Whom a token identified at one moment. -/
theorem resolvePrincipal_reads [Platform] {P : Db → Prop} {token : Option String} {p : Principal}
    (h : (resolvePrincipal token).Reads P (some p)) :
    ∃ s, P s ∧ (resolvePrincipal token).eval s = .ok (some p) := by
  cases token with
  | none =>
    simp only [resolvePrincipal, Query.reads_pure] at h
    cases h
  | some text =>
    simp only [resolvePrincipal, answer, Query.reads_bind, Query.reads_ofExcept,
      Query.reads_read, Query.reads_pure] at h
    obtain ⟨u, hu, rows, ⟨s, hs, rfl⟩, row, hrow, v, hactive, hp⟩ := h
    refine ⟨s, hs, ?_⟩
    simp only [resolvePrincipal, answer, Query.eval_bind, Query.eval_ofExcept, Query.eval_read,
      Query.eval_pure, hu, hrow, hactive, hp, ok_bind]

/-- The grants that a caller has are those of one moment. -/
theorem grantsForCaller_reads {P : Db → Prop} {p : Principal} {grants : List GrantRow}
    (h : (grantsForCaller (some p)).Reads P grants) {s₀ : Db} (hs₀ : P s₀) :
    ∃ s, P s ∧ grants = s.grantsOf p := by
  simp only [grantsForCaller, grantsFor] at h
  cases hkind : p.kind with
  | company =>
    rw [hkind, Query.reads_pure] at h
    refine ⟨s₀, hs₀, ?_⟩
    unfold Db.grantsOf
    rw [hkind, ← h]
  | module =>
    rw [hkind] at h
    simp only [grantsForModule, Query.reads_read] at h
    obtain ⟨s, hs, rfl⟩ := h
    refine ⟨s, hs, ?_⟩
    unfold Db.grantsOf
    rw [hkind]

/-- What has such a number and is there later is there already. -/
structure Settled (s t : Db) (c : ℕ) : Prop where
  events : ∀ e ∈ t.events, e.seq ≤ c → e ∈ s.events
  records : ∀ r ∈ t.records.values, seqOf r ≤ c →
    ∃ r₀ ∈ s.records.values, r₀.toEnvelope = r.toEnvelope ∧ r₀.seq = r.seq

section
variable [Platform] {s t : Db} {n m : ℕ}

theorem Extends.settled (h : Extends s n t) (hs : Standing s n) (ht : Standing t m) {c : ℕ}
    (hc : c ≤ n) : Settled s t c := by
  obtain ⟨more, hmore, hlater⟩ := h.events
  have hevents : ∀ e ∈ t.events, e.seq ≤ c → e ∈ s.events := by
    intro e he hle
    rw [hmore, List.mem_append] at he
    rcases he with he | he
    · exact he
    · have hlt := hlater e he
      omega
  refine ⟨hevents, ?_⟩
  intro r hr hle
  obtain ⟨id, hid⟩ := (Dict.mem_values_iff ..).mp hr
  obtain ⟨e, he, hrecord, hseq⟩ := ht.event id r hid
  rw [ht.toLedger.seq_eq hr, Option.some.injEq] at hseq
  obtain ⟨r₀, hr₀, -⟩ := hs.record e (hevents e he (by omega))
  obtain ⟨r', hr', henv, hseq'⟩ := h.records _ r₀ hr₀
  rw [hrecord] at hr'
  obtain rfl := Option.some.inj (hid.symm.trans hr')
  exact ⟨r₀, Dict.mem_values_of_get? hr₀, henv.symm, hseq'.symm⟩

variable [Rendering] {ι : Type} [DecidableEq ι]

/-- Nothing appears later behind a cursor that was served. -/
theorem settled_of_answered {w w' : World ι Db StoreError WriteResult Reply}
    (h : Reaches Writer Poller (World.start Db.empty 0) w) (h' : Reaches Writer Poller w w')
    {i : ι} {q : Reader Reply} {reply : Reply} (hi : w.sessions i = .answered q reply) {c : ℕ}
    (hc : c ∈ reply.cursors) : Settled w.committed w'.committed c := by
  obtain ⟨n, m, -, hstanding, hstanding', hextends⟩ := standing_of_reaches h h'
  obtain ⟨_, hatomic, -⟩ := h.atomic (atomic_start Db.empty 0)
  have hfits := hatomic.fits i
  rw [hi] at hfits
  obtain ⟨hpoller, hreads⟩ := hfits
  refine hextends.settled hstanding hstanding' ?_
  have hpast : ∀ s, w.History s → ∃ k, Standing s k ∧ Extends s k w.committed := by
    intro s hs
    obtain ⟨v, hv, hvw, rfl⟩ := h.history hs
    obtain ⟨k, _, -, hk, -, hkept⟩ := standing_of_reaches hv hvw
    exact ⟨k, hk, hkept⟩
  rcases hpoller.cursor hreads (fun s hs => ⟨_, (hpast s hs).choose_spec.1⟩) hc with
    rfl | ⟨s, hs, e, he, rfl⟩
  · exact Nat.zero_le n
  · obtain ⟨k, -, hkept⟩ := hpast s hs
    obtain ⟨more, hmore, -⟩ := hkept.events
    refine (hstanding.bounded e ?_).2
    rw [hmore]
    exact List.mem_append_left _ he

/-- What a statement finds are the first readable events after the cursor. -/
theorem Ledger.findEvents_eq {db : Db} (h : Ledger db n) (q : EventsQuery) (after : ℕ)
    (p : Principal) (grants : List GrantRow) (now : ℤ) :
    db.findEvents q after p grants now =
      (Paging.remaining (fun e : EventRow × Json => e.1.seq)
        (db.eventsBySeq.filter fun e => q.concerns e.1)
        (fun e => canRead (e.1.visibilityInput e.2) (some p) grants now) (some after)).take
          (limitOf q.limit 100 + 1) := by
  unfold Db.findEvents Paging.remaining
  rw [List.filter_filter]
  congr 1
  apply List.filter_congr
  intro e he
  obtain ⟨hmem, r, hr, hbody⟩ := mem_eventsBySeq.mp he
  have hcondition := h.prefiltered_event hmem hr (some p) grants now (q.params after) []
  rw [← hbody] at hcondition
  rw [hcondition, Bool.and_right_comm]
  congr 2
  rw [decide_eq_decide]
  exact Paging.after_some.symm

theorem Ledger.visibleEvents_eq {db : Db} (h : Ledger db n) (q : EventsQuery) (p : Principal)
    (grants : List GrantRow) (now : ℤ) :
    (db.visibleEvents q p grants now).take (limitOf q.limit 100) =
      Paging.page (fun e : EventRow × Json => e.1.seq) (limitOf q.limit 100)
        (db.eventsBySeq.filter fun e => q.concerns e.1)
        (fun e => canRead (e.1.visibilityInput e.2) (some p) grants now)
        (some (q.after.getD 0)) := by
  unfold Db.visibleEvents
  rw [h.findEvents_eq, List.filter_eq_self.mpr, Paging.take_read]
  intro e he
  exact (Paging.mem_remaining.mp (List.mem_of_mem_take he)).2.2

variable (ι) in
/-- One request of a reader: when it was made and answered, and with what. -/
structure Poll where
  before : World ι Db StoreError WriteResult Reply
  after : World ι Db StoreError WriteResult Reply
  session : ι
  now : ℤ
  limit : Option ℕ
  page : EventPage

/-- The cursor of the last event that was processed. -/
def EventPage.processed (page : EventPage) (cursor : ℕ) : ℕ :=
  (page.events.getLast?.map EventRow.seq).getD cursor

/-- A reader polls again and again, each time after the last event that it was served. -/
def Polling (token company : Option String) :
    World ι Db StoreError WriteResult Reply → ℕ → List (Poll ι) → Prop
  | _, _, [] => True
  | w, cursor, poll :: rest =>
    let query := readEvents token poll.now ⟨company, some cursor, poll.limit⟩
    Reaches Writer Poller w poll.before ∧
      poll.before.sessions poll.session = .reading query query ∧
      Reaches Writer Poller poll.before poll.after ∧
      poll.after.sessions poll.session = .answered query (.events poll.page) ∧
      Polling token company poll.after (poll.page.processed cursor) rest

/-- Whomever the token identifies while a poll runs may read the event, by the grants there are. -/
def Poll.MaySee (poll : Poll ι) (token : Option String) (e : EventRow) : Prop :=
  ∀ s, Between Writer Poller poll.before poll.after s → ∀ p,
    (resolvePrincipal token).eval s = .ok (some p) →
    ∀ s', Between Writer Poller poll.before poll.after s' →
    ∀ r, s'.records.get? e.recordId = some r →
      canRead (e.visibilityInput r.body) (some p) (s'.grantsOf p) poll.now = true

/-- A poll serves an event that the reader may see, or goes on from one before it. -/
theorem served_or_before {w : World ι Db StoreError WriteResult Reply}
    (h : Reaches Writer Poller (World.start Db.empty 0) w) {token company : Option String}
    {cursor : ℕ} {poll : Poll ι} (hbefore : Reaches Writer Poller w poll.before)
    (hreading : poll.before.sessions poll.session =
      .reading (readEvents token poll.now ⟨company, some cursor, poll.limit⟩)
        (readEvents token poll.now ⟨company, some cursor, poll.limit⟩))
    (hafter : Reaches Writer Poller poll.before poll.after)
    (hanswered : poll.after.sessions poll.session = .answered
      (readEvents token poll.now ⟨company, some cursor, poll.limit⟩) (.events poll.page))
    {e : EventRow} (he : e ∈ w.committed.events)
    (hconcerns : EventsQuery.concerns ⟨company, none, none⟩ e = true) (hcursor : cursor < e.seq)
    (hsee : poll.MaySee token e) : e ∈ poll.page.events ∨
      (cursor < poll.page.processed cursor ∧ poll.page.processed cursor < e.seq) := by
  obtain ⟨-, hreads⟩ := hafter.answered hreading hanswered
  simp only [readEvents, Query.reads_bind, Query.reads_pure, Reply.events.injEq] at hreads
  obtain ⟨principal, hprincipal, page, hpage, rfl⟩ := hreads
  obtain ⟨p, grants, s, s', rfl, hgrants, hs, -, hevents, -⟩ := listEvents_reads hpage
  obtain ⟨s₁, hs₁, hresolved⟩ := resolvePrincipal_reads hprincipal
  obtain ⟨s₂, hs₂, rfl⟩ := grantsForCaller_reads hgrants hs
  -- the event is there whenever the poll looks
  have hthere : ∀ v, Between Writer Poller poll.before poll.after v → ∃ k, Standing v k ∧
      e ∈ v.events ∧ ∃ r, v.records.get? e.recordId = some r ∧
        ∃ r₀, w.committed.records.get? e.recordId = some r₀ ∧ r.toEnvelope = r₀.toEnvelope := by
    rintro v ⟨u, hu, -, rfl⟩
    obtain ⟨n, k, -, hn, hk, hkept⟩ := standing_of_reaches h (hbefore.trans hu)
    obtain ⟨more, hmore, -⟩ := hkept.events
    obtain ⟨r₀, hr₀, -⟩ := hn.record e he
    obtain ⟨r, hr, henv, -⟩ := hkept.records _ r₀ hr₀
    exact ⟨k, hk, by rw [hmore]; exact List.mem_append_left _ he, r, hr, r₀, hr₀, henv⟩
  obtain ⟨k, hk, hmem, r, hr, r₀, hr₀, henv⟩ := hthere s hs
  obtain ⟨_, -, -, r₂, hr₂, r₂', hr₂', henv₂⟩ := hthere s₂ hs₂
  obtain rfl := Option.some.inj (hr₀.symm.trans hr₂')
  have hbody : r₂.body = r.body := congrArg Envelope.body (henv₂.trans henv.symm)
  have hreadable := hsee s₁ hs₁ p hresolved s₂ hs₂ r₂ hr₂
  rw [hbody] at hreadable
  have hremaining : (e, r.body) ∈ Paging.remaining (fun e : EventRow × Json => e.1.seq)
      (s.eventsBySeq.filter fun e =>
        EventsQuery.concerns ⟨company, some cursor, poll.limit⟩ e.1)
      (fun e => canRead (e.1.visibilityInput e.2) (some p) (s₂.grantsOf p) poll.now)
      (some cursor) :=
    Paging.mem_remaining.mpr ⟨List.mem_filter.mpr
      ⟨mem_eventsBySeq.mpr ⟨hmem, r, hr, rfl⟩, hconcerns⟩, Paging.after_some.mpr hcursor, hreadable⟩
  have hsorted := hk.toNumbered.eventsBySeq_sorted.sublist
    (List.filter_sublist (p := fun e : EventRow × Json =>
      EventsQuery.concerns ⟨company, some cursor, poll.limit⟩ e.1))
  have hcut := hk.toLedger.visibleEvents_eq ⟨company, some cursor, poll.limit⟩ p
    (s₂.grantsOf p) poll.now
  rw [hcut] at hevents
  rw [EventPage.processed, hevents, List.getLast?_map]
  rcases Paging.mem_page_or_before hsorted (limitOf_pos poll.limit 100) hremaining with
    hserved | ⟨z, hlast, hlater, hlt⟩
  · exact .inl (List.mem_map_of_mem hserved)
  · right
    have hlast' : (Paging.page (fun e : EventRow × Json => e.1.seq) (limitOf poll.limit 100)
        (s.eventsBySeq.filter fun e =>
          EventsQuery.concerns ⟨company, some cursor, poll.limit⟩ e.1)
        (fun e => canRead (e.1.visibilityInput e.2) (some p) (s₂.grantsOf p) poll.now)
        (some ((some cursor).getD 0))).getLast? = some z := hlast
    rw [hlast']
    exact ⟨Paging.after_some.mp hlater, hlt⟩

/-- Every poll serves the event or comes nearer to it, so that one of them serves it. -/
theorem served_of_polling {token company : Option String} {e : EventRow}
    (hconcerns : EventsQuery.concerns ⟨company, none, none⟩ e = true) {polls : List (Poll ι)}
    (hsee : ∀ poll ∈ polls, poll.MaySee token e)
    {w : World ι Db StoreError WriteResult Reply}
    (h : Reaches Writer Poller (World.start Db.empty 0) w) (he : e ∈ w.committed.events)
    {cursor : ℕ} (hcursor : cursor < e.seq) (hpolling : Polling token company w cursor polls)
    (hlength : e.seq ≤ cursor + polls.length) : ∃ poll ∈ polls, e ∈ poll.page.events := by
  induction polls generalizing w cursor with
  | nil =>
    rw [List.length_nil] at hlength
    omega
  | cons poll rest ih =>
    obtain ⟨hbefore, hreading, hafter, hanswered, hrest⟩ := hpolling
    rcases served_or_before h hbefore hreading hafter hanswered he hconcerns hcursor
      (hsee poll (List.mem_cons_self ..)) with hserved | ⟨hlater, hlt⟩
    · exact ⟨poll, List.mem_cons_self .., hserved⟩
    have hreach := hbefore.trans hafter
    have hkept : e ∈ poll.after.committed.events := by
      obtain ⟨_, _, -, -, -, hextends⟩ := standing_of_reaches h hreach
      obtain ⟨more, hmore, -⟩ := hextends.events
      rw [hmore]
      exact List.mem_append_left _ he
    rw [List.length_cons] at hlength
    obtain ⟨poll', hpoll', hserved⟩ := ih
      (fun poll' hpoll' => hsee poll' (List.mem_cons_of_mem _ hpoll')) (h.trans hreach) hkept hlt
      hrest (by omega)
    exact ⟨poll', List.mem_cons_of_mem _ hpoll', hserved⟩

end

/-- However requests interleave, nothing appears later behind a cursor that a reader was served,
of events or records, and a reader that goes on after the last event served is served, within as
many polls as there are numbers before it, every event that it may see while it polls. -/
theorem feed_loses_nothing [Platform] [Rendering] {ι : Type} [DecidableEq ι]
    {w : World ι Db StoreError WriteResult Reply}
    (h : Reaches Writer Poller (World.start Db.empty 0) w) :
    (∀ w', Reaches Writer Poller w w' → ∀ i q reply, w.sessions i = .answered q reply →
      ∀ c ∈ reply.cursors, Settled w.committed w'.committed c) ∧
    ∀ token company cursor (polls : List (Poll ι)), Polling token company w cursor polls →
      ∀ e ∈ w.committed.events, cursor < e.seq →
        EventsQuery.concerns ⟨company, none, none⟩ e = true →
        (∀ poll ∈ polls, poll.MaySee token e) → e.seq ≤ cursor + polls.length →
          ∃ poll ∈ polls, e ∈ poll.page.events := by
  constructor
  · intro w' h' i q reply hi c hc
    exact settled_of_answered h h' hi hc
  · intro token company cursor polls hpolling e he hcursor hconcerns hsee hlength
    exact served_of_polling hconcerns hsee h he hcursor hpolling hlength

def sampleReader : Reader Reply :=
  letI := samplePlatform
  letI := sampleRendering
  readEvents (some rootToken) 0 ⟨none, some 6, none⟩

/-- The last event of the sample is public, and there is an answer to a poll after the one before
it. -/
def lastPolled (db : Db) : Bool :=
  db.events.any (fun e => e.seq == 7 && e.visibility == .publicly) &&
    match sampleReader.eval db with
    | .ok (.events _) => true
    | _ => false

theorem feed_loses_nothing_sample : letI := samplePlatform
    letI := sampleRendering
    ∃ (w : World ℕ Db StoreError WriteResult Reply) (poll : Poll ℕ) (e : EventRow),
      Reaches Writer Poller (World.start Db.empty 0) w ∧
        Polling (some rootToken) none w 6 [poll] ∧ e.seq = 7 ∧ e ∈ poll.page.events := by
  let := samplePlatform
  let := sampleRendering
  obtain ⟨w, hreach, ⟨k, hidle⟩, hcheck⟩ := sample_reaches (Poller : Reader Reply → Prop)
    lastPolled (by decide +kernel)
  rw [lastPolled, Bool.and_eq_true, List.any_eq_true] at hcheck
  obtain ⟨⟨e, he, hlast⟩, hpage⟩ := hcheck
  rw [Bool.and_eq_true, beq_iff_eq, beq_iff_eq] at hlast
  cases hreply : sampleReader.eval w.committed with
  | error _ => simp [hreply] at hpage
  | ok reply =>
    cases reply with
    | records page => simp [hreply] at hpage
    | events page =>
      have hread : Step Writer Poller w (w.put k (.reading sampleReader sampleReader)) :=
        .read (hidle k (Nat.le_refl k)) (.inr ⟨_, _, _, rfl⟩)
      have hanswer : ∃ w', Reaches Writer Poller (w.put k (.reading sampleReader sampleReader)) w' ∧
          w'.sessions k = .answered sampleReader (.events page) :=
        reaches_answered (World.sessions_put ..) hreply
      obtain ⟨w', hreach', hanswered⟩ := hanswer
      let poll : Poll ℕ := ⟨w.put k (.reading sampleReader sampleReader), w', k, 0, none, page⟩
      have hpolling : Polling (some rootToken) none w 6 [poll] :=
        ⟨.single hread, World.sessions_put .., hreach', hanswered, trivial⟩
      -- what is public may be seen by anyone
      have hsee : ∀ poll' ∈ [poll], poll'.MaySee (some rootToken) e :=
        fun _ _ _ _ _ _ _ _ _ _ => if_pos hlast.2
      obtain ⟨poll', hpoll', hserved⟩ := (feed_loses_nothing hreach).2 _ none 6 [poll] hpolling e he
        (by omega) rfl hsee (by rw [List.length_singleton]; omega)
      rw [List.mem_singleton.mp hpoll'] at hserved
      exact ⟨w, poll, e, hreach, hpolling, hlast.1, hserved⟩

end DirectTrade.Store
