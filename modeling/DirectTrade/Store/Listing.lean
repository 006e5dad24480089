import DirectTrade.Library.Paging
import DirectTrade.Store.Ledger
import Mathlib.Data.List.Sort

/-!
The requests that read pages: records and events after a cursor, cut off behind the condition on
who may read. Paging through an unchanging store meets every readable record once.
-/

namespace DirectTrade.Store

open Library Library.Outcome Library.Serial

structure ListQuery where
  subject : Option String
  type : Option String
  nameSpace : Option String
  counterparty : Option String
  rootId : Option String
  includeSuperseded : Bool
  after : Option ℕ
  limit : Option ℕ

structure RecordPage where
  records : List (RecordRow × Option String)
  nextCursor : Option ℕ

/-- A filter that is given and not empty. -/
def given (filter : Option String) (test : String → Bool) : Bool := (named filter).all test

/-- The filters of a query but its cursor. -/
def ListQuery.selects (q : ListQuery) (r : RecordRow) : Bool :=
  given q.subject (· == r.subjectCompanyId) && given q.type (· == r.type) &&
    given q.nameSpace (· == r.nameSpace) && given q.counterparty r.counterpartyIds.contains &&
    given q.rootId (· == r.rootId) && (q.includeSuperseded || r.isHead)

/-- The values that the filters bind. -/
def ListQuery.params (q : ListQuery) : List Param :=
  ([q.subject, q.type, q.nameSpace, q.counterparty, q.rootId].filterMap named).map .text ++
    q.after.toList.map .number

/-- Ascending, without a number last. -/
def seqLe (a b : Option ℕ) : Prop :=
  match a, b with
  | some x, some y => x ≤ y
  | _, none => True
  | none, some _ => False

instance : DecidableRel seqLe := fun a b =>
  match a, b with
  | some x, some y => inferInstanceAs (Decidable (x ≤ y))
  | some _, none => isTrue trivial
  | none, none => isTrue trivial
  | none, some _ => isFalse id

def Db.recordsBySeq (db : Db) : List RecordRow :=
  db.records.values.insertionSort fun a b => seqLe a.seq b.seq

def Db.supersededBy (db : Db) (recordId : String) : Option String :=
  (db.records.values.find? (·.supersedes == some recordId)).map (·.recordId)

def limitOf (limit : Option ℕ) (default : ℕ) : ℕ := min (max (limit.getD default) 1) 500

def grantsForCaller (principal : Option Principal) : Reader (List GrantRow) :=
  match principal with
  | none => pure []
  | some p => grantsFor p

section
variable [Rendering]

/-- The condition on who may read in a statement that binds values before it and after it. -/
def prefiltered (before more : List Param) (principal : Option Principal)
    (grants : List GrantRow) (now : ℤ) (row : VisibilityInput) : Bool :=
  let condition := readPrefilter principal grants (before.length + 1) now
  condition.1.holds row (before ++ condition.2 ++ more)

/-- The records that one statement finds, one more than a page. -/
def Db.findRecords (db : Db) (q : ListQuery) (principal : Option Principal)
    (grants : List GrantRow) (now : ℤ) : List RecordRow :=
  (db.recordsBySeq.filter fun r => q.selects r && decide (∀ c, q.after = some c → ∃ k,
    r.seq = some k ∧ c < k) && prefiltered q.params [] principal grants now r.visibilityInput).take
      (limitOf q.limit 50 + 1)

def listRecords (principal : Option Principal) (now : ℤ) (q : ListQuery) : Reader RecordPage :=
  if q.rootId.all isUuidText = true then do
    let grants ← grantsForCaller principal
    let rows ← Query.read fun db : Db => (db.findRecords q principal grants now).map fun r =>
      (r, db.supersededBy r.recordId)
    let visible := rows.filter fun r => canRead r.1.visibilityInput principal grants now
    let limit := limitOf q.limit 50
    let page := visible.take limit
    pure ⟨page, if limit < rows.length then page.getLast?.bind (·.1.seq) else none⟩
  else pure ⟨[], none⟩

end

structure EventsQuery where
  company : Option String
  after : Option ℕ
  limit : Option ℕ

structure EventPage where
  events : List EventRow
  nextCursor : Option ℕ
  latestCursor : ℕ

/-- The greatest integer that a cursor may be. -/
def maxSafeInteger : ℕ := 2 ^ 53 - 1

/-- Events with the bodies of their records, ascending. -/
def Db.eventsBySeq (db : Db) : List (EventRow × Json) :=
  (db.events.filterMap fun e => (db.records.get? e.recordId).map fun r =>
    (e, r.body)).insertionSort fun a b => a.1.seq ≤ b.1.seq

def EventsQuery.concerns (q : EventsQuery) (e : EventRow) : Bool :=
  given q.company fun c => c == e.subjectCompanyId || e.counterpartyIds.contains c

def EventsQuery.params (q : EventsQuery) (after : ℕ) : List Param :=
  .number after :: (named q.company).toList.map .text

section
variable [Rendering]

def Db.findEvents (db : Db) (q : EventsQuery) (after : ℕ) (p : Principal)
    (grants : List GrantRow) (now : ℤ) : List (EventRow × Json) :=
  (db.eventsBySeq.filter fun e => decide (after < e.1.seq) && q.concerns e.1 &&
    prefiltered (q.params after) [] (some p) grants now (e.1.visibilityInput e.2)).take
      (limitOf q.limit 100 + 1)

/-- The greatest number under the same condition. -/
def Db.latestEvent (db : Db) (q : EventsQuery) (p : Principal) (grants : List GrantRow)
    (now : ℤ) : ℕ :=
  ((db.eventsBySeq.filter fun e => prefiltered [] ((named q.company).toList.map .text) (some p)
    grants now (e.1.visibilityInput e.2) && q.concerns e.1).map (·.1.seq)).foldl max 0

def listEvents (principal : Option Principal) (now : ℤ) (q : EventsQuery) : Reader EventPage := do
  let p ← answer (require ⟨.authRequired, "the event feed requires a bearer token"⟩ principal)
  let grants ← grantsForCaller (some p)
  let after := q.after.getD 0
  answer (demand ⟨.badRequest, "after must be a non-negative integer cursor"⟩
    (after ≤ maxSafeInteger))
  let rows ← Query.read fun db : Db => db.findEvents q after p grants now
  let visible := rows.filter fun e => canRead (e.1.visibilityInput e.2) (some p) grants now
  let limit := limitOf q.limit 100
  let page := visible.take limit
  let latest ← Query.read fun db : Db => db.latestEvent q p grants now
  pure ⟨page.map Prod.fst,
    if limit < rows.length then rows[min rows.length limit - 1]?.map (·.1.seq) else none, latest⟩

end

/-- The grants that a caller holds, if there is a caller. -/
def Db.grantsOfCaller (db : Db) (principal : Option Principal) : List GrantRow :=
  match principal with
  | none => []
  | some p => db.grantsOf p

@[simp] theorem eval_grantsForCaller (principal : Option Principal) (db : Db) :
    (grantsForCaller principal).eval db = .ok (db.grantsOfCaller principal) := by
  cases principal with
  | none => rfl
  | some p => exact eval_grantsFor p db

theorem limitOf_pos (limit : Option ℕ) (default : ℕ) : 0 < limitOf limit default := by
  unfold limitOf
  omega

/-- A grant that was accepted names its module by a string. -/
theorem module_of_readable {type : String} {body : Json} (h : readable type body)
    (htype : type = "core.grant") {value : Json} (hvalue : body.member? "module_id" = some value) :
    ∃ s, value = .str s := by
  have hgrant := h.2.2 htype
  unfold readGrant at hgrant
  cases htext : text? body "module_id" with
  | none => simp [htext] at hgrant
  | some s =>
    unfold text? at htext
    rw [hvalue] at htext
    cases value with
    | str s' => exact ⟨s', rfl⟩
    | null | bool _ | num _ | arr _ | obj _ => exact nomatch htext

/-- The condition selects what the check allows, whatever else a statement binds. -/
def PrefilterAgrees [Rendering] : Prop := ∀ row : VisibilityInput,
  row.nameSpace = namespaceOf row.type →
  (∀ value, row.body.member? "module_id" = some value → ∃ s, value = .str s) →
  ∀ principal grants now before more,
    prefiltered before more principal grants now row = canRead row principal grants now

section
variable [Platform]

/-- An event is routed by the fields of its record. -/
theorem Ledger.visibilityInput_event {db : Db} {n : ℕ} (h : Ledger db n) {e : EventRow}
    (he : e ∈ db.events) {r : RecordRow} (hr : db.records.get? e.recordId = some r) :
    e.visibilityInput r.body = r.visibilityInput := by
  obtain ⟨r', hr', -, heq⟩ := h.record e he
  obtain rfl := Option.some.inj (hr.symm.trans hr')
  rw [heq]
  rfl

variable [Rendering]

/-- On what is stored, the condition selects what the check allows. -/
theorem Ledger.prefiltered_record {db : Db} {n : ℕ} (h : Ledger db n) {id : String}
    {r : RecordRow} (hr : db.records.get? id = some r) (principal : Option Principal)
    (grants : List GrantRow) (now : ℤ) (before more : List Param) :
    prefiltered before more principal grants now r.visibilityInput =
      canRead r.visibilityInput principal grants now := by
  obtain ⟨info, hvalid⟩ := h.valid id r hr
  exact readPrefilter_holds hvalid.nameSpace
    (fun htype value hvalue => module_of_readable hvalid.readable htype hvalue) ..

/-- The same on the events of what is stored. -/
theorem Ledger.prefiltered_event {db : Db} {n : ℕ} (h : Ledger db n) {e : EventRow}
    (he : e ∈ db.events) {r : RecordRow} (hr : db.records.get? e.recordId = some r)
    (principal : Option Principal) (grants : List GrantRow) (now : ℤ)
    (before more : List Param) :
    prefiltered before more principal grants now (e.visibilityInput r.body) =
      canRead (e.visibilityInput r.body) principal grants now := by
  rw [h.visibilityInput_event he hr]
  exact h.prefiltered_record hr principal grants now before more

end

/-- The number of a record, which every stored record has. -/
def seqOf (r : RecordRow) : ℕ := r.seq.getD 0

instance : Std.Total fun a b : RecordRow => seqLe a.seq b.seq where
  total a b := by
    show seqLe a.seq b.seq ∨ seqLe b.seq a.seq
    cases a.seq with
    | none =>
      cases b.seq with
      | none => exact .inl trivial
      | some y => exact .inr trivial
    | some x =>
      cases b.seq with
      | none => exact .inl trivial
      | some y => exact Nat.le_total x y

instance : IsTrans RecordRow fun a b => seqLe a.seq b.seq where
  trans a b c := by
    show seqLe a.seq b.seq → seqLe b.seq c.seq → seqLe a.seq c.seq
    intro hab hbc
    cases hc : c.seq with
    | none =>
      cases a.seq with
      | none => exact trivial
      | some x => exact trivial
    | some z =>
      rw [hc] at hbc
      cases hb : b.seq with
      | none =>
        rw [hb] at hbc
        exact hbc.elim
      | some y =>
        rw [hb] at hab hbc
        cases ha : a.seq with
        | none =>
          rw [ha] at hab
          exact hab.elim
        | some x =>
          rw [ha] at hab
          exact Nat.le_trans hab hbc

theorem mem_recordsBySeq {db : Db} {r : RecordRow} :
    r ∈ db.recordsBySeq ↔ r ∈ db.records.values := List.mem_insertionSort _

/-- Numbers tell events apart. -/
theorem Numbered.eq_of_seq {db : Db} {n : ℕ} (h : Numbered db n) {a b : EventRow}
    (ha : a ∈ db.events) (hb : b ∈ db.events) (heq : a.seq = b.seq) : a = b := by
  have hnodup : (db.events.map EventRow.seq).Nodup :=
    List.pairwise_map.mpr (h.increasing.imp Nat.ne_of_lt)
  exact List.inj_on_of_nodup_map hnodup ha hb heq

section
variable [Platform]

/-- Records come in the order of their numbers, no two of which are the same. -/
theorem Ledger.recordsBySeq_sorted {db : Db} {n : ℕ} (h : Ledger db n) :
    db.recordsBySeq.Pairwise fun a b => seqOf a < seqOf b := by
  have hsorted : db.recordsBySeq.Pairwise fun a b => seqLe a.seq b.seq :=
    List.pairwise_insertionSort _ _
  have hnodup : db.recordsBySeq.Nodup :=
    (List.perm_insertionSort ..).nodup_iff.mpr (Dict.nodup_values _ _ h.records)
  refine (hsorted.and hnodup).imp_of_mem ?_
  rintro a b ha hb ⟨hle, hne⟩
  obtain ⟨i, hi⟩ := (Dict.mem_values_iff ..).mp (mem_recordsBySeq.mp ha)
  obtain ⟨j, hj⟩ := (Dict.mem_values_iff ..).mp (mem_recordsBySeq.mp hb)
  obtain ⟨e, he, hei, hea⟩ := h.event i a hi
  obtain ⟨e', he', hej, heb⟩ := h.event j b hj
  have hdistinct : e.seq ≠ e'.seq := by
    intro heq
    obtain rfl := h.eq_of_seq he he' heq
    rw [← hei, hej] at hi
    exact hne (Option.some.inj (hi.symm.trans hj))
  rw [hea, heb] at hle
  have hle : e.seq ≤ e'.seq := hle
  rw [seqOf, seqOf, hea, heb, Option.getD_some, Option.getD_some]
  omega

theorem Ledger.seq_eq {db : Db} {n : ℕ} (h : Ledger db n) {r : RecordRow}
    (hr : r ∈ db.records.values) : r.seq = some (seqOf r) := by
  obtain ⟨i, hi⟩ := (Dict.mem_values_iff ..).mp hr
  obtain ⟨e, -, -, hseq⟩ := h.event i r hi
  rw [seqOf, hseq, Option.getD_some]

end

/-- What a query asks for, whatever its cursor; a root that is no identifier is of no record. -/
def ListQuery.finds (q : ListQuery) (r : RecordRow) : Bool :=
  q.rootId.all isUuidText && q.selects r

/-- Who may read a record, its caller's grants being those of the store. -/
def Db.readable (db : Db) (principal : Option Principal) (now : ℤ) (r : RecordRow) : Bool :=
  canRead r.visibilityInput principal (db.grantsOfCaller principal) now

section
variable [Platform] [Rendering]

/-- What the statement finds are the first readable records after the cursor. -/
theorem Ledger.findRecords_eq {db : Db} {n : ℕ} (h : Ledger db n) (q : ListQuery)
    (principal : Option Principal) (now : ℤ) :
    db.findRecords q principal (db.grantsOfCaller principal) now =
      (Paging.remaining seqOf (db.recordsBySeq.filter q.selects) (db.readable principal now)
        q.after).take (limitOf q.limit 50 + 1) := by
  unfold Paging.remaining
  rw [List.filter_filter]
  refine congrArg (List.take _) (List.filter_congr ?_)
  intro r hr
  have hstored := mem_recordsBySeq.mp hr
  obtain ⟨id, hget⟩ := (Dict.mem_values_iff ..).mp hstored
  rw [h.prefiltered_record hget, Bool.and_comm _ (q.selects r), ← Bool.and_assoc]
  congr 2
  rw [decide_eq_decide, h.seq_eq hstored]
  simp [Paging.After]

/-- One request is one page. -/
theorem Ledger.listRecords_eq {db : Db} {n : ℕ} (h : Ledger db n) (q : ListQuery)
    (principal : Option Principal) (now : ℤ) :
    (listRecords principal now q).eval db = .ok
      ⟨(Paging.page seqOf (limitOf q.limit 50) (db.recordsBySeq.filter q.finds)
          (db.readable principal now) q.after).map fun r => (r, db.supersededBy r.recordId),
        Paging.next seqOf (limitOf q.limit 50) (db.recordsBySeq.filter q.finds)
          (db.readable principal now) q.after⟩ := by
  unfold listRecords
  by_cases huuid : q.rootId.all isUuidText = true
  swap
  · have hnone : db.recordsBySeq.filter q.finds = [] := by
      rw [List.filter_eq_nil_iff]
      intro r _
      unfold ListQuery.finds
      rw [Bool.eq_false_iff.mpr huuid, Bool.false_and]
      exact Bool.false_ne_true
    rw [if_neg huuid, Query.eval_pure, hnone, Paging.page_nil, Paging.next_nil]
    rfl
  have hfinds : db.recordsBySeq.filter q.finds = db.recordsBySeq.filter q.selects := by
    apply List.filter_congr
    intro r _
    unfold ListQuery.finds
    rw [huuid, Bool.true_and]
  rw [if_pos huuid, hfinds]
  simp only [Query.eval_bind, eval_grantsForCaller, Query.eval_read, Query.eval_pure,
    h.findRecords_eq, ok_bind]
  generalize hrows : (Paging.remaining seqOf (db.recordsBySeq.filter q.selects)
    (db.readable principal now) q.after).take (limitOf q.limit 50 + 1) = rows
  -- the check lets everything pass that the condition selected
  have hvisible : (rows.map fun r => (r, db.supersededBy r.recordId)).filter (fun r =>
      canRead r.1.visibilityInput principal (db.grantsOfCaller principal) now) =
        rows.map fun r => (r, db.supersededBy r.recordId) := by
    rw [List.filter_eq_self]
    intro a ha
    obtain ⟨r, hr, rfl⟩ := List.mem_map.mp ha
    rw [← hrows] at hr
    exact (Paging.mem_remaining.mp (List.mem_of_mem_take hr)).2.2
  have hpage : rows.take (limitOf q.limit 50) = Paging.page seqOf (limitOf q.limit 50)
      (db.recordsBySeq.filter q.selects) (db.readable principal now) q.after := by
    rw [← hrows]
    exact Paging.take_read
  rw [hvisible, List.length_map, ← List.map_take, hpage, List.getLast?_map,
    ← Paging.next_of_read, hrows]
  congr 3
  cases hlast : (Paging.page seqOf (limitOf q.limit 50) (db.recordsBySeq.filter q.selects)
      (db.readable principal now) q.after).getLast? with
  | none => rfl
  | some r =>
    have hmem := (Paging.mem_of_mem_page (List.mem_of_getLast? hlast)).1
    exact h.seq_eq (mem_recordsBySeq.mp (List.mem_filter.mp hmem).1)

/-- A client that asks for one page after the other, each at its own time, until there is none. -/
def crawlRecords (db : Db) (principal : Option Principal) (clock : ℕ → ℤ) (q : ListQuery) :
    ℕ → ℕ → Option ℕ → List RecordRow
  | 0, _, _ => []
  | fuel + 1, round, cursor =>
    match (listRecords principal (clock round) { q with after := cursor }).eval db with
    | .error _ => []
    | .ok page => page.records.map Prod.fst ++
      match page.nextCursor with
      | none => []
      | some c => crawlRecords db principal clock q fuel (round + 1) (some c)

theorem Ledger.crawlRecords_eq {db : Db} {n : ℕ} (h : Ledger db n) (principal : Option Principal)
    (clock : ℕ → ℤ) (q : ListQuery) (fuel round : ℕ) (cursor : Option ℕ) :
    crawlRecords db principal clock q fuel round cursor =
      Paging.crawl seqOf (limitOf q.limit 50) (db.recordsBySeq.filter q.finds)
        (fun k => db.readable principal (clock k)) fuel round cursor := by
  induction fuel generalizing round cursor with
  | zero => rfl
  | succ fuel ih =>
    rw [crawlRecords, h.listRecords_eq, Paging.crawl]
    simp only [List.map_map, Function.comp_def, List.map_id', ih]
    rfl

/-- What paging through an unchanging store meets: what is asked for and readable, in order. -/
structure PagesComplete (db : Db) (principal : Option Principal) (clock : ℕ → ℤ) (q : ListQuery)
    (fuel : ℕ) : Prop where
  once : (crawlRecords db principal clock q fuel 0 q.after).Pairwise fun a b => seqOf a < seqOf b
  readable : ∀ r ∈ crawlRecords db principal clock q fuel 0 q.after, r ∈ db.records.values ∧
    q.finds r = true ∧ Paging.After q.after (seqOf r) ∧
      ∃ k, db.readable principal (clock k) r = true
  complete : db.records.values.length ≤ fuel → ∀ r ∈ db.records.values, q.finds r = true →
    Paging.After q.after (seqOf r) → (∀ k, db.readable principal (clock k) r = true) →
      r ∈ crawlRecords db principal clock q fuel 0 q.after

theorem Ledger.pagesComplete {db : Db} {n : ℕ} (h : Ledger db n) (principal : Option Principal)
    (clock : ℕ → ℤ) (q : ListQuery) (fuel : ℕ) : PagesComplete db principal clock q fuel := by
  have hsorted : (db.recordsBySeq.filter q.finds).Pairwise fun a b => seqOf a < seqOf b :=
    h.recordsBySeq_sorted.sublist List.filter_sublist
  have hcrawl := h.crawlRecords_eq principal clock q fuel 0 q.after
  obtain ⟨hordered, hmem⟩ := @Paging.crawl_sorted _ seqOf (limitOf q.limit 50) _ hsorted
    (fun k => db.readable principal (clock k)) fuel 0 q.after
  refine ⟨?_, ?_, ?_⟩
  · rw [hcrawl]
    exact hordered
  · intro r hr
    rw [hcrawl] at hr
    obtain ⟨hfound, hafter, hreadable⟩ := hmem r hr
    obtain ⟨hstored, hfinds⟩ := List.mem_filter.mp hfound
    exact ⟨mem_recordsBySeq.mp hstored, hfinds, hafter, hreadable⟩
  · intro hfuel r hr hfinds hafter hreadable
    rw [hcrawl]
    refine Paging.mem_crawl hsorted (limitOf_pos ..)
      (List.mem_filter.mpr ⟨mem_recordsBySeq.mpr hr, hfinds⟩) hreadable hafter ?_
    have hlength : db.recordsBySeq.length = db.records.values.length :=
      List.length_insertionSort ..
    have hfound := List.length_filter_le q.finds db.recordsBySeq
    have hrest := List.length_filter_le (fun b => decide (Paging.After q.after (seqOf b)))
      (db.recordsBySeq.filter q.finds)
    omega

end

/-- The check and the condition are one policy: they agree on every record, as the statements for
records and events apply it, and pages of an unchanging store meet what is readable once. -/
theorem reads_agree [Platform] [Rendering] {ι β : Type} [DecidableEq ι]
    {readers : Query Db StoreError β → Prop} {w : World ι Db StoreError WriteResult β}
    (h : Reaches Writer readers (World.start Db.empty 0) w) : PrefilterAgrees ∧
      (∀ r ∈ w.committed.records.values, ∀ principal grants now before more,
        prefiltered before more principal grants now r.visibilityInput =
          canRead r.visibilityInput principal grants now) ∧
      (∀ e ∈ w.committed.events, ∃ r ∈ w.committed.records.values, r.recordId = e.recordId ∧
        e.visibilityInput r.body = r.visibilityInput) ∧
      ∀ principal clock q fuel, PagesComplete w.committed principal clock q fuel := by
  obtain ⟨n, -, hserial, -⟩ := h.atomic (atomic_start Db.empty 0)
  have hledger := ledger_of_committed hserial
  refine ⟨?_, ?_, ?_, hledger.pagesComplete⟩
  · intro row hns hmodule principal grants now before more
    exact readPrefilter_holds hns (fun _ => hmodule) ..
  · intro r hr principal grants now before more
    obtain ⟨id, hget⟩ := (Dict.mem_values_iff ..).mp hr
    exact hledger.prefiltered_record hget ..
  · intro e he
    obtain ⟨r, hr, -⟩ := hledger.record e he
    exact ⟨r, Dict.mem_values_of_get? hr, hledger.records _ r hr,
      hledger.visibilityInput_event he hr⟩

@[reducible] def sampleRendering : Rendering := ⟨fun _ => ""⟩

/-- Anyone, one record a page. -/
def sampleQuery : ListQuery := ⟨none, none, none, none, none, true, none, some 1⟩

/-- The pages of a stranger hold the company, the module, and the company again. -/
def strangerReads (db : Db) : Bool :=
  letI := sampleRendering
  (crawlRecords db none (fun _ => 0) sampleQuery 7 0 none).map (·.recordId) ==
    [companyRoot, sampleModule.recordId, "018f6d2e-3b1a-7c4e-9a1f-2f6c1a9d0e27"]

theorem reads_agree_sample : letI := samplePlatform
    letI := sampleRendering
    ∃ w : World ℕ Db StoreError WriteResult Empty,
      Reaches Writer (fun _ => False) (World.start Db.empty 0) w ∧
        strangerReads w.committed = true ∧
        PagesComplete w.committed none (fun _ => 0) sampleQuery 7 := by
  let := samplePlatform
  let := sampleRendering
  obtain ⟨w, hreach, -, hcheck⟩ := sample_reaches (fun _ : Query Db StoreError Empty => False)
    strangerReads (by decide +kernel)
  exact ⟨w, hreach, hcheck, (reads_agree hreach).2.2.2 none _ sampleQuery 7⟩

end DirectTrade.Store
