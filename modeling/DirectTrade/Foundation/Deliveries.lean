import DirectTrade.Foundation.Convergence
import Mathlib.Logic.Relation

/-!
Runs of a view and a consumer of it: the view takes batches and gives up retained events, the
consumer is sent what any version of the view answered, in any order and as often as it happens.
-/

namespace DirectTrade.Foundation.Changes

open Library Outcome

variable {u v : ChangeView}

section
variable [UrlParser]

/-- What a consumer can be sent. -/
inductive Sent where
  | snapshot (page : SnapshotPage)
  | changes (answer : Answer ChangesPage)

/-- What the functions of the consumer make of it. -/
def consume (consumer : Option ConsumerState) : Sent → Changed (Option ConsumerState)
  | .snapshot page => some <$> consumeSnapshotPage consumer page
  | .changes answer =>
    match consumer with
    | none => .ok none
    | some c => some <$> consumeChangePage c answer

/-- What the functions of the host return, for any request at a version of the view. -/
inductive Returned (v : ChangeView) : Sent → Prop
  | snapshot {binding : ViewBinding} {cursor : Option Uuid} {now : ℤ} {page : SnapshotPage}
      (h : snapshotPage v binding cursor now = .ok (.page page)) : Returned v (.snapshot page)
  | restart {binding : ViewBinding} {cursor : Option Uuid} {now : ℤ}
      (h : snapshotPage v binding cursor now = .ok .resnapshotRequired) :
      Returned v (.changes .resnapshotRequired)
  | changes {binding : ViewBinding} {checkpoint : Uuid} {limit : ℕ} {now : ℤ}
      {answer : Answer ChangesPage} (h : pullChanges v binding checkpoint limit now = .ok answer) :
      Returned v (.changes answer)

end

/-- A view, its earlier versions, and a consumer of it. -/
structure World where
  view : ChangeView
  past : List ChangeView
  consumer : Option ConsumerState

def World.versions (w : World) : List ChangeView := w.view :: w.past

def World.start (v : ChangeView) : World := ⟨v, [], none⟩

def World.advance (w : World) (v : ChangeView) : World := { w with view := v, past := w.versions }

section
variable [UrlParser]

/-- The consumer keeps its state if it refuses what it is sent. -/
def World.deliver (w : World) (sent : Sent) : World :=
  { w with consumer := (consume w.consumer sent).toOption.getD w.consumer }

/-- Pages reach the consumer late, again, or out of order: they were returned at some version. A
consumer that is lost starts again. -/
inductive Step : World → World → Prop
  | append {w : World} {batch : ChangeBatch} {v : ChangeView}
      (h : appendChangeBatch w.view batch = .ok v) : Step w (w.advance v)
  | retain {w : World} {expectedVersion keep : ℕ} {v : ChangeView}
      (h : retainChanges w.view expectedVersion keep = .ok v) : Step w (w.advance v)
  | deliver {w : World} {v : ChangeView} {sent : Sent} (hv : v ∈ w.versions)
      (h : Returned v sent) : Step w (w.deliver sent)
  | restart {w : World} : Step w { w with consumer := none }

end

/-- Every version is sound and leads to the view, and the consumer follows them. -/
structure Converging (w : World) : Prop where
  sound : ∀ u ∈ w.versions, Sound u
  latest : ∀ u ∈ w.versions, Precedes u w.view
  chained : Chained w.versions
  consumer : ∀ c ∈ w.consumer, Follows w.versions w.view c

theorem Converging.view_sound {w : World} (h : Converging w) : Sound w.view :=
  h.sound _ (List.mem_cons_self ..)

theorem Converging.advance {w : World} (h : Converging w) (hv : Sound v)
    (hprec : Precedes w.view v) : Converging (w.advance v) where
  sound u hu := by
    obtain rfl | hu := List.mem_cons.mp hu
    · exact hv
    · exact h.sound u hu
  latest u hu := by
    obtain rfl | hu := List.mem_cons.mp hu
    · exact Precedes.refl u
    · exact (h.latest u hu).trans hprec
  chained u hu u' hu' := by
    obtain rfl | hu := List.mem_cons.mp hu
    · obtain rfl | hu' := List.mem_cons.mp hu'
      · exact .inl (Precedes.refl _)
      · exact .inr ((h.latest u' hu').trans hprec)
    · obtain rfl | hu' := List.mem_cons.mp hu'
      · exact .inl ((h.latest u hu).trans hprec)
      · exact h.chained u hu u' hu'
  consumer c hc := (h.consumer c hc).mono hprec

section
variable [UrlParser]

theorem Converging.consume {w : World} (h : Converging w) (hu : u ∈ w.versions) {sent : Sent}
    (hsent : Returned u sent) {consumer : Option ConsumerState}
    (hconsume : consume w.consumer sent = .ok consumer) :
    ∀ c ∈ consumer, Follows w.versions w.view c := by
  cases hsent with
  | snapshot hpage =>
    obtain ⟨c', hc', rfl⟩ := (map_eq_ok ..).mp hconsume
    intro c hc
    obtain rfl := Option.some.inj hc
    exact consumeSnapshotPage_follows h.view_sound (h.latest u hu) hpage h.consumer hc'
  | restart hpage =>
    cases hconsumer : w.consumer with
    | none =>
      rw [hconsumer] at hconsume
      obtain rfl := Except.ok.inj hconsume
      exact fun c hc => nomatch hc
    | some c₀ =>
      rw [hconsumer] at hconsume
      obtain rfl := Except.ok.inj hconsume
      intro c hc
      obtain rfl := Option.some.inj hc
      exact invalidate_follows c₀
  | changes hanswer =>
    cases hconsumer : w.consumer with
    | none =>
      rw [hconsumer] at hconsume
      obtain rfl := Except.ok.inj hconsume
      exact fun c hc => nomatch hc
    | some c₀ =>
      rw [hconsumer] at hconsume
      obtain ⟨c', hc', rfl⟩ := (map_eq_ok ..).mp hconsume
      intro c hc
      obtain rfl := Option.some.inj hc
      exact consumeChangePage_follows h.view_sound h.chained hu (h.latest u hu) (h.sound u hu)
        hanswer (h.consumer c₀ hconsumer) hc'

theorem Step.converging {w w' : World} (hstep : Step w w') (h : Converging w) : Converging w' := by
  cases hstep with
  | append happend =>
    obtain ⟨hv, hprec⟩ := appendChangeBatch_sound h.view_sound happend
    exact h.advance hv hprec
  | retain hretain =>
    obtain ⟨hv, hprec⟩ := retainChanges_sound h.view_sound hretain
    exact h.advance hv hprec
  | @deliver u sent hu hsent =>
    refine ⟨h.sound, h.latest, h.chained, ?_⟩
    intro c hc
    cases hconsume : Changes.consume w.consumer sent with
    | error e =>
      rw [show (w.deliver sent).consumer = w.consumer by
        simp only [World.deliver, hconsume, Except.toOption, Option.getD_none]] at hc
      exact h.consumer c hc
    | ok consumer =>
      rw [show (w.deliver sent).consumer = consumer by
        simp only [World.deliver, hconsume, Except.toOption, Option.getD_some]] at hc
      exact h.consume hu hsent hconsume c hc
  | restart => exact ⟨h.sound, h.latest, h.chained, fun c hc => nomatch hc⟩

abbrev Run (v : ChangeView) (w : World) : Prop := Relation.ReflTransGen Step (World.start v) w

theorem Run.converging {input : ViewInput} (hcreate : createChangeView input = .ok v) {w : World}
    (hrun : Run v w) : Converging w ∧ Precedes v w.view := by
  induction hrun with
  | refl =>
    have hv := (createChangeView_sound hcreate).1
    refine ⟨⟨?_, ?_, ?_, fun c hc => nomatch hc⟩, Precedes.refl v⟩
    · intro u hu
      exact List.mem_singleton.mp hu ▸ hv
    · intro u hu
      rw [List.mem_singleton.mp hu]
      exact Precedes.refl v
    · intro u hu u' hu'
      rw [List.mem_singleton.mp hu, List.mem_singleton.mp hu']
      exact .inl (Precedes.refl v)
  | @tail w w' _ hstep ih =>
    have hnext := hstep.converging ih.1
    refine ⟨hnext, ?_⟩
    cases hstep with
    | append _ => exact ih.2.trans (hnext.latest _ (List.mem_cons_of_mem _ (List.mem_cons_self ..)))
    | retain _ => exact ih.2.trans (hnext.latest _ (List.mem_cons_of_mem _ (List.mem_cons_self ..)))
    | deliver _ _ => exact ih.2
    | restart => exact ih.2

/-- A consumer that is live shows the snapshot with exactly the events up to its checkpoint, each
once and in order; one that is complete shows the view as it was when it was that fresh. What it
refuses leaves it as it was, and once its checkpoint is pruned it is told to start again. -/
theorem consumer_converges {input : ViewInput} (hcreate : createChangeView input = .ok v)
    {w : World} (hrun : Run v w) :
    w.view.snapshot = input.snapshot ∧ w.view.initialCheckpoint = input.initialCheckpoint ∧
    (w.view.history.map ChangeEvent.eventId).Nodup ∧
    ∀ c ∈ w.consumer,
      (c.mode = .live → ∃ checkpoint n, c.checkpoint = some checkpoint ∧
        w.view.Reaches checkpoint n ∧
        (w.view.history.take n).foldlM apply w.view.snapshot = .ok c.items ∧
        ∀ m, w.view.Reaches checkpoint m → m = n) ∧
      (c.completeness = .complete → ∃ u ∈ w.versions, u.asOf = c.asOf ∧ u.current = c.items) ∧
      (∀ sent e, consume (some c) sent = .error e → (w.deliver sent).consumer = some c) ∧
      (∀ checkpoint n floor, c.checkpoint = some checkpoint → w.view.Reaches checkpoint n →
        w.view.Reaches w.view.floorCheckpoint floor → n < floor →
        ∀ viewer limit now,
          (∀ answer, pullChanges w.view viewer checkpoint limit now = .ok answer →
            answer = .resnapshotRequired) ∧
          (binding viewer = .ok () → 0 < limit → limit ≤ pageSize →
            pullChanges w.view viewer checkpoint limit now = .ok .resnapshotRequired)) := by
  obtain ⟨hw, hprec⟩ := Run.converging hcreate hrun
  obtain ⟨-, rfl, -⟩ := createChangeView_sound hcreate
  have hview := hw.view_sound
  refine ⟨hprec.snapshot, hprec.base, hview.ids, ?_⟩
  intro c hc
  have hfollows := hw.consumer c hc
  refine ⟨?_, hfollows.items_eq hw.sound hw.latest, ?_, ?_⟩
  · intro hmode
    obtain ⟨n, hn, -⟩ := hfollows.caught hmode
    obtain ⟨checkpoint, hcheck, hreach⟩ := hn.checkpoint
    exact ⟨checkpoint, n, hcheck, hreach, hn.items, fun m hm => hview.inj hm hreach⟩
  · intro sent e hrefused
    rw [← hc] at hrefused
    simp only [World.deliver, hrefused, Except.toOption, Option.getD_none]
    exact hc
  · intro checkpoint n floor _ hn hfloor hlt viewer limit now
    have hpruned := position_pruned hview hn hfloor hlt
    refine ⟨?_, pullChanges_pruned hpruned⟩
    intro answer hanswer
    obtain rfl | ⟨position, hposition, -⟩ := pullChanges_eq_ok hanswer
    · rfl
    · rw [hpruned] at hposition
      exact nomatch hposition

end

/-- A parser for which every text is an origin. -/
abbrev sampleParser : UrlParser := ⟨fun text => some ⟨text, "https:"⟩⟩

def sampleBinding : ViewBinding :=
  { viewId := 1, subject := .person 2, audience := "https://a.test", organizationId := 3
    authorityId := 4, authorityEpoch := 5, policyEpoch := 6 }

def sampleInput : ViewInput :=
  { binding := sampleBinding, snapshot := [], sourceCheckpoint := 10, initialCheckpoint := 11
    snapshotTokens := [], asOf := 0, expiresAt := 1000 }

def sampleRecord : EntityReference := ⟨.record, 7, some 3, rfl⟩

def sampleItem : ChangeItem := ⟨⟨sampleRecord, 8, 9⟩, 9, .null⟩

def sampleEvent : ChangeEvent :=
  { eventId := 12, checkpoint := 13, entity := sampleRecord, previous := none
    value := some sampleItem, acceptedAt := 5 }

def sampleBatch : ChangeBatch :=
  { expectedVersion := 0, fromSourceCheckpoint := 10, toSourceCheckpoint := 14
    events := [sampleEvent], asOf := 6 }

/-- The view before and after its first event. -/
def sampleView : ChangeView :=
  { sampleInput with
    version := 0, snapshotAsOf := 0, current := [], events := [], seen := []
    floorCheckpoint := 11, latestCheckpoint := 11, lastBatch := none }

def sampleChanged : ChangeView :=
  { sampleView with
    sourceCheckpoint := 14, asOf := 6, version := 1, current := [sampleItem]
    events := [sampleEvent.after 11], seen := [sampleEvent.taken], latestCheckpoint := 13
    lastBatch := some sampleBatch }

def sampleStaged : SnapshotPage := sampleView.snapshotPage none 0

/-- The consumer that has staged the snapshot, and the same when it has the event. -/
def sampleLive : ConsumerState := sampleStaged.begin.stage sampleStaged

def sampleCaught : ConsumerState :=
  { sampleLive with
    items := [sampleItem], checkpoint := some 13, asOf := 6, currentAsOf := 6
    completeness := .complete, seen := [(sampleEvent.after 11).taken] }

def sampleAnswer : ChangesPage := sampleChanged.changesPage 11 0 pageSize

theorem sampleView_created :
    letI := sampleParser
    createChangeView sampleInput = .ok sampleView := by
  decide

/-- The consumer stages the empty snapshot, the view takes an event, and a page brings it. -/
theorem sampleRun :
    letI := sampleParser
    Run sampleView ⟨sampleChanged, [sampleView], some sampleCaught⟩ := by
  let := sampleParser
  have happend : appendChangeBatch sampleView sampleBatch = .ok sampleChanged := by decide
  have hstage : consumeSnapshotPage none sampleStaged = .ok sampleLive := by decide
  have hcatch : consumeChangePage sampleLive (.page sampleAnswer) = .ok sampleCaught := by
    decide
  have hstaged : snapshotPage sampleView sampleBinding none 0 = .ok (.page sampleStaged) := by
    decide
  have hanswer : pullChanges sampleChanged sampleBinding 11 64 7 = .ok (.page sampleAnswer) := by
    decide
  have hfirst : (World.start sampleView).deliver (.snapshot sampleStaged) =
      ⟨sampleView, [], some sampleLive⟩ := by
    simp only [World.deliver, World.start, consume, hstage]
    rfl
  have hsecond : World.deliver ⟨sampleChanged, [sampleView], some sampleLive⟩
      (.changes (.page sampleAnswer)) = ⟨sampleChanged, [sampleView], some sampleCaught⟩ := by
    simp only [World.deliver, consume, hcatch]
    rfl
  have hrun : Run sampleView ⟨sampleView, [], some sampleLive⟩ :=
    .single (hfirst ▸ .deliver (List.mem_cons_self ..) (.snapshot hstaged))
  exact (hrun.tail (.append happend)).tail
    (hsecond ▸ .deliver (List.mem_cons_self ..) (.changes hanswer))

theorem consumer_converges_sample :
    letI := sampleParser
    ∃ u ∈ [sampleChanged, sampleView], u.asOf = sampleCaught.asOf ∧
      u.current = sampleCaught.items :=
  let := sampleParser
  ((consumer_converges sampleView_created sampleRun).2.2.2 sampleCaught rfl).2.1 rfl

end DirectTrade.Foundation.Changes
