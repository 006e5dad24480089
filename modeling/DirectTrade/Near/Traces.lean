import DirectTrade.Library.Postings
import DirectTrade.Near.Frame
import DirectTrade.Near.Lots
import DirectTrade.Near.Trail

/-!
The traceability index. Single-lot events and transformations post their events under lots in
two places of the contract; in every reached state the events listed for a lot are those in which
it took part, and no event that was recorded changes any more.
-/

namespace DirectTrade.Near

open Library Outcome

variable {s t u : DTPContract} {env : Env} {m : Method}

def getLotCtes (s : DTPContract) (lotId : String) : List Fsma204Cte :=
  ((s.lotCteIndex.get? lotId).getD []).filterMap s.fsmaCtes.get?

def getCte (s : DTPContract) (cteId : String) : Option Fsma204Cte := s.fsmaCtes.get? cteId

/-- The inputs of the transformation that an event records, as its output lot keeps them. -/
def DTPContract.inputsOf (s : DTPContract) (cte : Fsma204Cte) : List String :=
  match cte.outputLotId.bind s.lots.get? with
  | some lot => lot.inputLots.map InputLotRef.lotId
  | none => []

/-- The lot is the primary lot, the output lot or an input of the transformation. -/
def Involves (s : DTPContract) (lotId : String) (cte : Fsma204Cte) : Prop :=
  lotId = cte.lotId ∨ cte.outputLotId = some lotId ∨ lotId ∈ s.inputsOf cte

instance (s : DTPContract) (lotId : String) (cte : Fsma204Cte) : Decidable (Involves s lotId cte) :=
  inferInstanceAs (Decidable (_ ∨ _ ∨ _))

/-- The lots of the tracking event that an accepted call records. -/
def traces (s : DTPContract) : Method → Option (List String)
  | .recordCteReceiving request _ | .recordCteShipping request _ | .recordCteGrowing request ..
  | .recordCteCreating request .. => some [request.lotId]
  | .transformLot inputs _ => some (inputs.map InputLotRef.lotId ++ [s.upcoming "lot-" 1])
  | _ => none

/-- A call that records no event leaves the events and their index alone. -/
theorem execute_untracked (h : execute s env m = .ok t) (hm : traces s m = none) :
    t.fsmaCtes = s.fsmaCtes ∧ t.lotCteIndex = s.lotCteIndex := by
  have hwrites : Table.fsmaCtes ∉ m.writes ∧ Table.lotCteIndex ∉ m.writes := by
    cases m <;> first | (simp [traces] at hm; done) | simp [Method.writes]
  exact ⟨(execute_frame h).same .fsmaCtes hwrites.1, (execute_frame h).same .lotCteIndex hwrites.2⟩

/-- One more event was recorded, of exactly these lots. -/
structure Recorded (s t : DTPContract) (lots : List String) (cte : Fsma204Cte) : Prop where
  numbered : ∃ k, s.idCounter.val < k ∧ k ≤ t.idCounter.val ∧ cte.cteId = "cte-" ++ toString k
  table : t.fsmaCtes = s.fsmaCtes.set cte.cteId cte
  index : t.lotCteIndex = lots.foldl (indexCte cte.cteId) s.lotCteIndex
  lots : ∀ lotId, Involves t lotId cte ↔ lotId ∈ lots
  output : ∀ o, cte.outputLotId = some o → t.lots.get? o ≠ none

theorem recordCte_recorded {cteType : Fsma204EventType} {request : CteRequest}
    {site source dest commodity variety : Option String}
    (h : recordCte s env cteType request site source dest commodity variety = .ok t) :
    ∃ cte, Recorded s t [request.lotId] cte := by
  simp only [recordCte, bind_eq_ok] at h
  obtain ⟨_, -, _, -, _, -, ⟨u, cteId⟩, hid, party, -, h⟩ := h
  obtain ⟨hcount, hu, hname⟩ := nextIdFor_spec hid
  have ht := emit_eq_ok h
  have hcounter : t.idCounter = u.idCounter := by
    rw [ht]
    rfl
  rw [hu] at ht
  rw [ht]
  refine ⟨_, ⟨⟨s.idCounter.val + 1, Nat.lt_succ_self _, ?_, hname⟩, rfl, rfl, ?_, ?_⟩⟩
  · show s.idCounter.val + 1 ≤ u.idCounter.val
    rw [hcount]
  · intro lotId
    simp [Involves, DTPContract.inputsOf]
  · intro o ho
    cases ho

theorem transformLot_recorded {inputs : List InputLotRef} {output : OutputSpec} {id : String}
    (h : transformLot s env inputs output = .ok (t, id)) :
    ∃ cte, Recorded s t (inputs.map InputLotRef.lotId ++ [s.upcoming "lot-" 1]) cte := by
  simp only [transformLot, bind_eq_ok, require_eq_ok] at h
  obtain ⟨_, -, first, hfirst, _, -, _, -, u, hdebits, ⟨v, lotId⟩, hlot, w, hcreated, x,
    htransformed, party, -, ⟨y, cteId⟩, hcte, z, hrecorded, h⟩ := h
  cases h
  have hu := debitInputs_shape hdebits
  obtain ⟨hcount, hv, hname⟩ := nextIdFor_spec hlot
  obtain ⟨hcount', hy, hname'⟩ := nextIdFor_spec hcte
  have hw := emit_eq_ok hcreated
  have hx := emit_eq_ok htransformed
  have hz := emit_eq_ok hrecorded
  have hlotId : lotId = s.upcoming "lot-" 1 := by
    rw [hname, hu]
    rfl
  have hcounter : x.idCounter = v.idCounter := by
    rw [hx, hw]
    rfl
  have hcounter' : u.idCounter = s.idCounter := by rw [hu]
  rw [hy, hx, hw, hv, hu] at hz
  rw [hz, ← hlotId]
  refine ⟨_, ⟨⟨x.idCounter.val + 1, ?_, ?_, hname'⟩, rfl, rfl, ?_, ?_⟩⟩
  · rw [hcounter, hcount, hcounter']
    omega
  · show x.idCounter.val + 1 ≤ y.idCounter.val
    rw [hcount']
  · intro i
    have hhead : first ∈ inputs := List.mem_of_mem_head? hfirst
    have hmem : first.lotId ∈ inputs.map InputLotRef.lotId := List.mem_map_of_mem hhead
    simp only [Involves, DTPContract.inputsOf, storeCte, recordEvent, Option.bind_some,
      Dict.get?_set_self, List.mem_append, List.mem_singleton, Option.some.injEq]
    constructor
    · intro h
      obtain h | h | h := h
      · rw [h]
        exact .inl hmem
      · exact .inr h.symm
      · exact .inl h
    · intro h
      obtain h | h := h
      · exact .inr (.inr h)
      · exact .inr (.inl h.symm)
  · intro o ho
    cases ho
    simp only [storeCte, recordEvent, Dict.get?_set_self, ne_eq, reduceCtorEq, not_false_eq_true]

theorem execute_recorded {lots : List String} (h : execute s env m = .ok t)
    (hm : traces s m = some lots) : ∃ cte, Recorded s t lots cte := by
  cases m with
  | recordCteReceiving request gln =>
    cases hm
    exact recordCte_recorded h
  | recordCteShipping request gln =>
    cases hm
    exact recordCte_recorded h
  | recordCteGrowing request commodity variety gln =>
    cases hm
    exact recordCte_recorded h
  | recordCteCreating request commodity variety gln =>
    cases hm
    exact recordCte_recorded h
  | transformLot inputs output =>
    obtain ⟨⟨_, id⟩, hcall, rfl⟩ := (map_eq_ok _ _ _).mp h
    cases hm
    exact transformLot_recorded hcall
  | _ => cases hm

/-- The index lists for each lot the events that involve it; their ids were given out by the
counter and their output lots exist. -/
structure Traced (s : DTPContract) : Prop where
  issued : Issued "cte-" s.idCounter.val s.fsmaCtes
  named : s.fsmaCtes.Named Fsma204Cte.cteId
  outputs : ∀ cte ∈ s.fsmaCtes.values, ∀ o, cte.outputLotId = some o → s.lots.get? o ≠ none
  exact : Postings.Exact (fun lotId cte => decide (Involves s lotId cte)) s.fsmaCtes s.lotCteIndex

theorem traced_new (owner : AccountId) : Traced (.new owner) where
  issued := issued_empty _ _
  named := Dict.named_empty _
  outputs := fun _ h => absurd h List.not_mem_nil
  exact := Postings.exact_empty _

/-- The events of a state are events of a later one, in their order and with their lots. -/
structure Extends (s t : DTPContract) : Prop where
  recorded : ∀ cteId cte, getCte s cteId = some cte → getCte t cteId = some cte
  order : s.fsmaCtes.values <+: t.fsmaCtes.values
  lots : ∀ cte ∈ s.fsmaCtes.values, ∀ lotId, Involves t lotId cte ↔ Involves s lotId cte

theorem Extends.refl (s : DTPContract) : Extends s s :=
  ⟨fun _ _ h => h, List.prefix_refl _, fun _ _ _ => Iff.rfl⟩

theorem Extends.trans (h : Extends s t) (h' : Extends t u) : Extends s u where
  recorded := fun id cte hc => h'.recorded id cte (h.recorded id cte hc)
  order := h.order.trans h'.order
  lots := fun cte hc lotId => (h'.lots cte (h.order.subset hc) lotId).trans (h.lots cte hc lotId)

theorem Change.inputLots {id : String} {lot lot' : GoodsLot} (h : Change s t env m id lot lot') :
    lot'.inputLots = lot.inputLots := by
  cases h with
  | kept h => rw [h]
  | disposed disposition hm hbefore h => rw [h]
  | allocated offer c hforms hm hlot h => rw [h.same]
  | consumed inputs output hm hinput h => rw [h.same]
  | handed ful c c' f f' st hconcludes hsettling hm hlot h =>
    rw [h]
    rfl

/-- Lots keep what they were made of, so an event keeps its lots. -/
theorem involves_kept (hfiled : Filed s) (h : execute s env m = .ok t) {cte : Fsma204Cte}
    (houtput : ∀ o, cte.outputLotId = some o → s.lots.get? o ≠ none) (lotId : String) :
    Involves t lotId cte ↔ Involves s lotId cte := by
  have hturn := execute_turn hfiled.lots hfiled.named h
  have hinputs : t.inputsOf cte = s.inputsOf cte := by
    unfold DTPContract.inputsOf
    cases hout : cte.outputLotId with
    | none => rfl
    | some o =>
      obtain ⟨lot, hlot⟩ := Option.ne_none_iff_exists'.mp (houtput o hout)
      obtain ⟨lot', hlot', hchange⟩ := hturn.lot hfiled hlot
      simp only [Option.bind_some, hlot, hlot', hchange.inputLots]
  unfold Involves
  rw [hinputs]

theorem Recorded.extends {lots : List String} {cte : Fsma204Cte} (hs : Traced s)
    (hfiled : Filed s) (h : execute s env m = .ok t) (hr : Recorded s t lots cte) :
    Traced t ∧ Extends s t ∧ t.fsmaCtes.values = s.fsmaCtes.values ++ [cte] := by
  obtain ⟨k, hk, hk', hname⟩ := hr.numbered
  have hnew : s.fsmaCtes.get? cte.cteId = none := by
    rw [hname]
    exact hs.issued.fresh hk
  have hvalues : t.fsmaCtes.values = s.fsmaCtes.values ++ [cte] := by
    rw [hr.table, Dict.values_set_of_none hnew]
  have hkept : ∀ c ∈ s.fsmaCtes.values, ∀ lotId, Involves t lotId c ↔ Involves s lotId c :=
    fun c hc => involves_kept hfiled h (hs.outputs c hc)
  refine ⟨⟨?_, ?_, ?_, ?_⟩, ⟨?_, ?_, hkept⟩, hvalues⟩
  · rw [hr.table]
    exact (hs.issued.mono (by omega)).set ⟨k, hk', hname⟩ cte
  · rw [hr.table]
    exact hs.named.set rfl
  · intro c hc o ho
    rw [hvalues] at hc
    cases List.mem_append.mp hc with
    | inl hc =>
      obtain ⟨lot, hlot⟩ := Option.ne_none_iff_exists'.mp (hs.outputs c hc o ho)
      obtain ⟨lot', hlot', -⟩ := (execute_turn hfiled.lots hfiled.named h).lot hfiled hlot
      rw [hlot']
      exact Option.some_ne_none lot'
    | inr hc =>
      rw [List.mem_singleton.mp hc] at ho
      exact hr.output o ho
  · rw [hr.table, hr.index]
    refine Postings.Exact.record (hs.exact.congr ?_) hnew ?_
    · intro c hc lotId
      exact decide_eq_decide.mpr (hkept c hc lotId)
    · intro lotId
      rw [decide_eq_true_eq]
      exact hr.lots lotId
  · intro id c hc
    have hne : id ≠ cte.cteId := by
      intro heq
      rw [heq, getCte, hnew] at hc
      cases hc
    rw [getCte, hr.table, Dict.get?_set_of_ne _ _ hne]
    exact hc
  · rw [hvalues]
    exact List.prefix_append _ _

theorem execute_traced (hs : Traced s) (hfiled : Filed s) (h : execute s env m = .ok t) :
    Traced t ∧ Extends s t := by
  cases hm : traces s m with
  | some lots =>
    obtain ⟨cte, hr⟩ := execute_recorded h hm
    obtain ⟨htraced, hextends, -⟩ := hr.extends hs hfiled h
    exact ⟨htraced, hextends⟩
  | none =>
    obtain ⟨htable, hindex⟩ := execute_untracked h hm
    have hturn := execute_turn hfiled.lots hfiled.named h
    have hkept : ∀ c ∈ s.fsmaCtes.values, ∀ lotId, Involves t lotId c ↔ Involves s lotId c :=
      fun c hc => involves_kept hfiled h (hs.outputs c hc)
    refine ⟨⟨?_, ?_, ?_, ?_⟩, ⟨?_, ?_, hkept⟩⟩
    · rw [htable]
      exact hs.issued.mono hturn.counter_le
    · rw [htable]
      exact hs.named
    · rw [htable]
      intro c hc o ho
      obtain ⟨lot, hlot⟩ := Option.ne_none_iff_exists'.mp (hs.outputs c hc o ho)
      obtain ⟨lot', hlot', -⟩ := hturn.lot hfiled hlot
      rw [hlot']
      exact Option.some_ne_none lot'
    · rw [htable, hindex]
      refine hs.exact.congr ?_
      intro c hc lotId
      exact decide_eq_decide.mpr (hkept c hc lotId)
    · intro id c hc
      rw [getCte, htable]
      exact hc
    · show s.fsmaCtes.values <+: t.fsmaCtes.values
      exact htable ▸ List.prefix_refl _

theorem run_traced (hs : Traced s) (hfiled : Filed s) (requests : List (Env × Method)) :
    Traced (run s requests) ∧ Extends s (run s requests) := by
  induction requests generalizing s with
  | nil => exact ⟨hs, .refl s⟩
  | cons r rest ih =>
    have hcall : Traced (call s r) ∧ Extends s (call s r) := by
      unfold call
      split
      next t h => exact execute_traced hs hfiled h
      next => exact ⟨hs, .refl s⟩
    obtain ⟨htraced, hextends⟩ := ih hcall.1 (hfiled.call r)
    exact ⟨htraced, hcall.2.trans hextends⟩

/-- In every reached state a lot's events are the recorded ones that involve it, each once and in
their order; they stay as they are, and an accepted call adds at most one, of exactly its lots. -/
theorem traceability_exact (owner : AccountId) (requests : List (Env × Method)) :
    (∀ lotId, getLotCtes (run (.new owner) requests) lotId =
        (run (.new owner) requests).fsmaCtes.values.filter
          fun cte => decide (Involves (run (.new owner) requests) lotId cte)) ∧
      (∀ lotId, (getLotCtes (run (.new owner) requests) lotId).Nodup) ∧
      (∀ later, Extends (run (.new owner) requests) (run (run (.new owner) requests) later)) ∧
      ∀ env m t, execute (run (.new owner) requests) env m = .ok t →
        match traces (run (.new owner) requests) m with
        | none => t.fsmaCtes = (run (.new owner) requests).fsmaCtes
        | some lots => ∃ cte, t.fsmaCtes.values =
            (run (.new owner) requests).fsmaCtes.values ++ [cte] ∧
              ∀ lotId, Involves t lotId cte ↔ lotId ∈ lots := by
  have hfiled : Filed (run (.new owner) requests) := (Filed.new owner).run requests
  obtain ⟨htraced, -⟩ := run_traced (traced_new owner) (.new owner) requests
  generalize run (.new owner) requests = s at hfiled htraced ⊢
  have hlookup : ∀ lotId, getLotCtes s lotId =
      s.fsmaCtes.values.filter fun cte => decide (Involves s lotId cte) :=
    fun lotId => htraced.exact.lookup lotId
  refine ⟨hlookup, ?_, fun later => (run_traced htraced hfiled later).2, ?_⟩
  · intro lotId
    rw [hlookup]
    exact (Dict.nodup_values _ _ htraced.named).filter _
  · intro env m t h
    cases hm : traces s m with
    | none => exact (execute_untracked h hm).1
    | some lots =>
      obtain ⟨cte, hr⟩ := execute_recorded h hm
      exact ⟨cte, (hr.extends htraced hfiled h).2.2, hr.lots⟩

end DirectTrade.Near
