import DirectTrade.Foundation.Changes
import DirectTrade.Library.Feed

/-!
The host's half of a replayable view. The identities that a view never forgets are its whole
history; what is retained is the end of it, and every page is a stretch of it.
-/

namespace DirectTrade.Foundation.Changes

open Library Outcome Feed

variable {u v w : ChangeView} {e : ChangeEvent} {batch : ChangeBatch} {n i : ℕ}
  {checkpoint : Uuid} {current : List ChangeItem}

def ChangeEvent.taken (e : ChangeEvent) : Seen ChangeEvent := ⟨e.eventId, e.checkpoint, e⟩

def ChangeEvent.after (e : ChangeEvent) (previousCheckpoint : Uuid) : DeliveredChange :=
  { e with previousCheckpoint }

/-- Every event the view ever took, in order. -/
def ChangeView.history (v : ChangeView) : List ChangeEvent := v.seen.map Seen.canonical

/-- The same events with their predecessors, as they are delivered. -/
def ChangeView.delivered (v : ChangeView) : List DeliveredChange :=
  link ChangeEvent.checkpoint ChangeEvent.after v.initialCheckpoint v.history

/-- A checkpoint stands after so many events of the view. -/
def ChangeView.Reaches (v : ChangeView) (checkpoint : Uuid) (n : ℕ) : Prop :=
  At ChangeEvent.checkpoint v.initialCheckpoint v.history checkpoint n

/-- What holds of a view in all its versions. -/
structure Sound (v : ChangeView) : Prop where
  tokens : v.snapshotTokens.Nodup
  pages : v.snapshotTokens.length = (v.snapshot.length + (pageSize - 1)) / pageSize - 1
  marks : (marks ChangeEvent.checkpoint v.initialCheckpoint v.history).Nodup
  ids : (v.history.map ChangeEvent.eventId).Nodup
  seen : v.seen = v.history.map ChangeEvent.taken
  current : v.history.foldlM apply v.snapshot = .ok v.current
  latest : v.Reaches v.latestCheckpoint v.history.length
  retained : ∃ f, v.Reaches v.floorCheckpoint f ∧ v.events = v.delivered.drop f

/-- A later version of a view has its snapshot and continues its history. -/
structure Precedes (u v : ChangeView) : Prop where
  snapshot : v.snapshot = u.snapshot
  tokens : v.snapshotTokens = u.snapshotTokens
  base : v.initialCheckpoint = u.initialCheckpoint
  history : u.history <+: v.history
  fresh : u.asOf ≤ v.asOf

theorem Precedes.refl (v : ChangeView) : Precedes v v :=
  ⟨rfl, rfl, rfl, List.prefix_rfl, Int.le_refl _⟩

theorem Precedes.trans (huv : Precedes u v) (hvw : Precedes v w) : Precedes u w where
  snapshot := hvw.snapshot.trans huv.snapshot
  tokens := hvw.tokens.trans huv.tokens
  base := hvw.base.trans huv.base
  history := huv.history.trans hvw.history
  fresh := Int.le_trans huv.fresh hvw.fresh

theorem Precedes.reaches (huv : Precedes u v) (h : u.Reaches checkpoint n) :
    v.Reaches checkpoint n := by
  unfold ChangeView.Reaches at h ⊢
  rw [huv.base]
  exact h.mono huv.history

theorem Precedes.delivered (huv : Precedes u v) : u.delivered <+: v.delivered := by
  unfold ChangeView.delivered
  rw [huv.base]
  exact link_prefix huv.history

theorem Precedes.length_le (huv : Precedes u v) : u.history.length ≤ v.history.length :=
  huv.history.length_le

theorem Sound.inj (hv : Sound v) (hn : v.Reaches checkpoint n) (hi : v.Reaches checkpoint i) :
    n = i := At.inj hv.marks hn hi

section
variable [UrlParser]

theorem createChangeView_sound {input : ViewInput} (h : createChangeView input = .ok v) :
    Sound v ∧ v.toViewInput = input ∧ v.history = [] := by
  simp only [createChangeView, bind_eq_ok, demand_eq_ok, pure_eq_ok] at h
  obtain ⟨-, -, -, -, -, -, -, htokens, -, ⟨hdistinct, -⟩, rfl⟩ := h
  refine ⟨?_, rfl, rfl⟩
  exact {
    tokens := (List.nodup_cons.mp hdistinct).2
    pages := htokens
    marks := List.nodup_singleton _
    ids := List.nodup_nil
    seen := rfl
    current := rfl
    latest := at_zero ..
    retained := ⟨0, at_zero .., rfl⟩ }

end

/-- The view with one more event. -/
def ChangeView.withEvent (v : ChangeView) (e : ChangeEvent) (current : List ChangeItem) :
    ChangeView :=
  { v with
    current
    events := v.events ++ [e.after v.latestCheckpoint]
    latestCheckpoint := e.checkpoint
    seen := v.seen ++ [e.taken] }

@[simp] theorem history_withEvent :
    (v.withEvent e current).history = v.history ++ [e] := List.map_append

theorem appendEvent_eq_ok (h : appendEvent batch v e = .ok w) :
    (w = v ∧ e ∈ v.history) ∨
      ∃ current, w = v.withEvent e current ∧ (∀ s ∈ v.seen, s.eventId ≠ e.eventId) ∧
        v.unused e.checkpoint ∧ apply v.current e = .ok current := by
  unfold appendEvent at h
  cases hfind : v.seen.find? fun s => s.eventId = e.eventId with
  | some s =>
    simp only [hfind, bind_eq_ok, demand_eq_ok, pure_eq_ok] at h
    obtain ⟨-, hcanonical, rfl⟩ := h
    exact .inl ⟨rfl, hcanonical ▸ List.mem_map_of_mem (List.mem_of_find?_eq_some hfind)⟩
  | none =>
    simp only [hfind, bind_eq_ok, demand_eq_ok, pure_eq_ok] at h
    obtain ⟨-, -, -, hunused, -, -, current, hcurrent, -, -, rfl⟩ := h
    refine .inr ⟨current, rfl, ?_, hunused, hcurrent⟩
    intro s hs heq
    exact List.find?_eq_none.mp hfind s hs (decide_eq_true heq)

theorem Sound.mem_seen (hv : Sound v) (he : e ∈ v.history) : e.taken ∈ v.seen := by
  rw [hv.seen]
  exact List.mem_map_of_mem he

theorem Sound.withEvent (hv : Sound v) (hnew : ∀ s ∈ v.seen, s.eventId ≠ e.eventId)
    (hunused : v.unused e.checkpoint) (hcurrent : apply v.current e = .ok current) :
    Sound (v.withEvent e current) where
  tokens := hv.tokens
  pages := hv.pages
  marks := by
    rw [history_withEvent]
    apply nodup_marks_append hv.marks
    intro hmem
    obtain hbase | hmem := List.mem_cons.mp hmem
    · exact hunused.1 hbase
    · obtain ⟨x, hx, heq⟩ := List.mem_map.mp hmem
      exact hunused.2.2 _ (hv.mem_seen hx) heq
  ids := by
    rw [history_withEvent, List.map_append, List.nodup_append]
    refine ⟨hv.ids, List.nodup_singleton _, ?_⟩
    intro id hid id' hid' heq
    obtain ⟨x, hx, rfl⟩ := List.mem_map.mp hid
    rw [List.mem_singleton.mp hid'] at heq
    exact hnew _ (hv.mem_seen hx) heq
  seen := by
    rw [history_withEvent, List.map_append, ← hv.seen]
    rfl
  current := by
    rw [history_withEvent]
    apply (foldlM_append_eq_ok ..).mpr
    refine ⟨v.current, hv.current, ?_⟩
    rw [List.foldlM_cons, hcurrent]
    rfl
  latest := by
    rw [history_withEvent, List.length_append]
    unfold ChangeView.Reaches
    rw [history_withEvent]
    exact at_append v.history e
  retained := by
    obtain ⟨f, hfloor, hevents⟩ := hv.retained
    have hlink : (v.withEvent e current).delivered =
        v.delivered ++ [e.after v.latestCheckpoint] := by
      unfold ChangeView.delivered
      rw [history_withEvent]
      exact link_append hv.latest [e]
    have hle : f ≤ v.delivered.length := by
      rw [ChangeView.delivered, length_link]
      exact hfloor.le
    refine ⟨f, ?_, ?_⟩
    · unfold ChangeView.Reaches
      rw [history_withEvent]
      exact hfloor.mono (List.prefix_append _ _)
    · rw [hlink, List.drop_append_of_le_length hle, ← hevents]
      rfl

theorem appendEvent_sound (hv : Sound v) (h : appendEvent batch v e = .ok w) :
    Sound w ∧ Precedes v w ∧ w.asOf = v.asOf := by
  obtain ⟨rfl, -⟩ | ⟨current, rfl, hnew, hunused, hcurrent⟩ := appendEvent_eq_ok h
  · exact ⟨hv, Precedes.refl w, rfl⟩
  · refine ⟨hv.withEvent hnew hunused hcurrent, ⟨rfl, rfl, rfl, ?_, Int.le_refl _⟩, rfl⟩
    rw [history_withEvent]
    exact List.prefix_append ..

theorem appendChangeBatch_eq_ok (h : appendChangeBatch v batch = .ok w) :
    w = v ∨ ∃ appended, batch.events.foldlM (appendEvent batch) v = .ok appended ∧
      v.asOf ≤ batch.asOf ∧
      w = { appended with
        sourceCheckpoint := batch.toSourceCheckpoint, asOf := batch.asOf, lastBatch := some batch
        version := appended.version + 1 } := by
  unfold appendChangeBatch at h
  by_cases hagain : v.lastBatch = some batch
  · simp only [hagain, if_true, bind_eq_ok, pure_eq_ok] at h
    obtain ⟨-, -, -, -, -, -, rfl⟩ := h
    exact .inl rfl
  · simp only [hagain, if_false, bind_eq_ok, demand_eq_ok, pure_eq_ok] at h
    obtain ⟨-, -, -, -, -, -, -, -, -, -, -, -, -, ⟨hle, -⟩, appended, hfold, -, -, -, -, rfl⟩ := h
    exact .inr ⟨appended, hfold, hle, rfl⟩

theorem appendChangeBatch_sound (hv : Sound v) (h : appendChangeBatch v batch = .ok w) :
    Sound w ∧ Precedes v w := by
  obtain rfl | ⟨appended, hfold, hle, rfl⟩ := appendChangeBatch_eq_ok h
  · exact ⟨hv, Precedes.refl w⟩
  · obtain ⟨hsound, hprec⟩ := foldlM_invariant (fun t => Sound t ∧ Precedes v t) _ _
      (fun e _ s t hs hstep =>
        have hnext := appendEvent_sound hs.1 hstep
        ⟨hnext.1, hs.2.trans hnext.2.1⟩) ⟨hv, Precedes.refl v⟩ hfold
    exact ⟨⟨hsound.tokens, hsound.pages, hsound.marks, hsound.ids, hsound.seen, hsound.current,
      hsound.latest, hsound.retained⟩, hprec.snapshot, hprec.tokens, hprec.base, hprec.history, hle⟩

/-- The last event of a stretch of deliveries leads to the checkpoint after the stretch. -/
theorem reaches_last {events : List DeliveredChange} (hstart : v.Reaches checkpoint i)
    (hevents : events <+: v.delivered.drop i) :
    v.Reaches ((events.getLast?.map fun d => d.checkpoint).getD checkpoint) (i + events.length) :=
  At.last (fun _ _ => rfl) hstart hevents

theorem retainChanges_sound {expectedVersion keep : ℕ} (hv : Sound v)
    (h : retainChanges v expectedVersion keep = .ok w) : Sound w ∧ Precedes v w := by
  simp only [retainChanges, bind_eq_ok, demand_eq_ok, pure_eq_ok] at h
  obtain ⟨-, -, -, -, -, -, rfl⟩ := h
  refine ⟨⟨hv.tokens, hv.pages, hv.marks, hv.ids, hv.seen, hv.current, hv.latest, ?_⟩,
    rfl, rfl, rfl, List.prefix_rfl, Int.le_refl _⟩
  obtain ⟨f, hfloor, hevents⟩ := hv.retained
  have hremoved : v.events.take (v.events.length - keep) <+: v.delivered.drop f := by
    rw [← hevents]
    exact List.take_prefix ..
  refine ⟨_, reaches_last hfloor hremoved, ?_⟩
  rw [List.length_take_of_le (Nat.sub_le ..)]
  show v.events.drop (v.events.length - keep) = v.delivered.drop _
  rw [← List.drop_drop, ← hevents]

theorem position_spec (hv : Sound v) {position : ℕ} (h : v.position checkpoint = some position) :
    ∃ f, v.Reaches checkpoint (f + position) ∧
      v.events.drop position = v.delivered.drop (f + position) ∧
      v.Reaches v.floorCheckpoint f := by
  obtain ⟨f, hfloor, hevents⟩ := hv.retained
  refine ⟨f, ?_, by rw [hevents, List.drop_drop], hfloor⟩
  unfold ChangeView.position at h
  by_cases hat : checkpoint = v.floorCheckpoint
  · rw [if_pos hat] at h
    rw [← Option.some.inj h, hat]
    exact hfloor
  · simp only [if_neg hat] at h
    set index := v.events.findIdx fun e => e.checkpoint = checkpoint with hindex
    by_cases hlt : index < v.events.length
    · rw [if_pos hlt] at h
      have hcheck : (v.events[index]).checkpoint = checkpoint := by
        have hfound := List.findIdx_getElem (w := hlt)
        exact of_decide_eq_true hfound
      have hget : v.delivered[f + index]? = some v.events[index] := by
        rw [← List.getElem?_drop, ← hevents]
        exact List.getElem?_eq_getElem hlt
      obtain ⟨e, k, he, -, hd⟩ := getElem?_link hget
      rw [← Option.some.inj h, ← Nat.add_assoc, ← hcheck, hd]
      exact at_succ he
    · rw [if_neg hlt] at h
      exact nomatch h

/-- A checkpoint that lies before the floor is not found among the retained ones. -/
theorem position_pruned (hv : Sound v) {f : ℕ} (hn : v.Reaches checkpoint n)
    (hfloor : v.Reaches v.floorCheckpoint f) (hlt : n < f) : v.position checkpoint = none := by
  apply Option.eq_none_iff_forall_ne_some.mpr
  intro position hposition
  obtain ⟨f', hat, -, hfloor'⟩ := position_spec hv hposition
  have hf := hv.inj hfloor hfloor'
  have hn' := hv.inj hn hat
  omega

/-- A page of changes is a stretch of the deliveries that starts at its first checkpoint, and a
complete one ends the history. -/
structure Stretch (u : ChangeView) (page : ChangesPage) (i : ℕ) : Prop where
  start : u.Reaches page.start i
  events : page.events <+: u.delivered.drop i
  complete : page.complete = true → i + page.events.length = u.history.length
  fresh : page.currentAsOf = u.asOf

theorem Stretch.le {page : ChangesPage} (h : Stretch u page i) :
    i + page.events.length ≤ u.history.length := by
  have hstart := h.start.le
  have hlen := h.events.length_le
  rw [List.length_drop, ChangeView.delivered, length_link] at hlen
  omega

theorem changesPage_stretch (hv : Sound v) {position : ℕ}
    (h : v.position checkpoint = some position) (limit : ℕ) :
    ∃ i, Stretch v (v.changesPage checkpoint position limit) i := by
  obtain ⟨f, hstart, hevents, -⟩ := position_spec hv h
  have hstretch : (v.changesPage checkpoint position limit).events <+:
      v.delivered.drop (f + position) := by
    rw [← hevents]
    exact List.take_prefix ..
  refine ⟨f + position, hstart, hstretch, ?_, rfl⟩
  intro hcomplete
  have hstop : (v.changesPage checkpoint position limit).stop = v.latestCheckpoint :=
    of_decide_eq_true hcomplete
  have hlast : v.Reaches (v.changesPage checkpoint position limit).stop _ :=
    reaches_last hstart hstretch
  rw [hstop] at hlast
  exact hv.inj hlast hv.latest

section
variable [UrlParser]

theorem pullChanges_eq_ok {binding : ViewBinding} {limit : ℕ} {now : ℤ}
    {answer : Answer ChangesPage} (h : pullChanges v binding checkpoint limit now = .ok answer) :
    answer = .resnapshotRequired ∨ ∃ position, v.position checkpoint = some position ∧
      answer = .page (v.changesPage checkpoint position limit) := by
  simp only [pullChanges, bind_eq_ok] at h
  obtain ⟨-, -, -, -, allowed, -, h⟩ := h
  cases allowed with
  | false =>
    simp only [Bool.not_false, if_true, pure_eq_ok] at h
    exact .inl h.symm
  | true =>
    simp only [Bool.not_true, Bool.false_eq_true, if_false] at h
    cases hposition : v.position checkpoint with
    | none =>
      simp only [hposition, pure_eq_ok] at h
      exact .inl h.symm
    | some position =>
      simp only [hposition, pure_eq_ok] at h
      exact .inr ⟨position, rfl, h.symm⟩

theorem pullChanges_pruned {viewer : ViewBinding} {limit : ℕ} {now : ℤ}
    (h : v.position checkpoint = none) (hviewer : binding viewer = .ok ()) (hpos : 0 < limit)
    (hlimit : limit ≤ pageSize) :
    pullChanges v viewer checkpoint limit now = .ok .resnapshotRequired := by
  have hbounded : integer limit pageSize = .ok () :=
    (demand_eq_ok ..).mpr (by exact_mod_cast hlimit)
  simp only [pullChanges, hbounded, ok_bind, demand_true _ _ hpos, access, hviewer, pure_eq, h]
  cases decide (v.binding = viewer ∧ v.asOf ≤ now ∧ now < v.expiresAt) with
  | false => rfl
  | true => rfl

theorem snapshotPage_eq_page {binding : ViewBinding} {cursor : Option Uuid} {now : ℤ}
    {page : SnapshotPage} (h : snapshotPage v binding cursor now = .ok (.page page)) :
    ∃ k, v.pageNumber cursor = some k ∧ page = v.snapshotPage cursor k := by
  simp only [snapshotPage, bind_eq_ok] at h
  obtain ⟨allowed, -, h⟩ := h
  by_cases hrestart : (!allowed) = true ∨ v.floorCheckpoint ≠ v.initialCheckpoint
  · simp only [Bool.or_eq_true, decide_eq_true_eq, hrestart, if_true, pure_eq_ok] at h
    cases h
  · simp only [Bool.or_eq_true, decide_eq_true_eq, hrestart, if_false] at h
    cases hnumber : v.pageNumber cursor with
    | none =>
      simp only [hnumber, pure_eq_ok] at h
      cases h
    | some k =>
      simp only [hnumber, pure_eq_ok, Answer.page.injEq] at h
      exact ⟨k, rfl, h.symm⟩

end

/-- The cursor that a page names starts the next one. -/
theorem pageNumber_next (hv : Sound v) {k : ℕ} {token : Uuid}
    (h : v.snapshotTokens[k]? = some token) : v.pageNumber (some token) = some (k + 1) := by
  obtain ⟨hlt, rfl⟩ := List.getElem?_eq_some_iff.mp h
  simp only [ChangeView.pageNumber, List.getElem_mem, if_true]
  rw [hv.tokens.idxOf_getElem]

/-- A page that names no next one ends the snapshot. -/
theorem length_le_of_last (hv : Sound v) {k : ℕ} (h : v.snapshotTokens[k]? = none) :
    v.snapshot.length ≤ (k + 1) * pageSize := by
  have hlen := List.getElem?_eq_none_iff.mp h
  have hpages := hv.pages
  unfold pageSize at hpages ⊢
  omega

end DirectTrade.Foundation.Changes
