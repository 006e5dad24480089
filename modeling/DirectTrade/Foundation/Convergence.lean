import DirectTrade.Foundation.Views
import Mathlib.Data.List.Infix

/-!
A consumer follows a view. Its items are the snapshot with the events up to its checkpoint,
whatever pages of whichever versions it is sent, and it claims to be complete only where a
version of the view had nothing more.
-/

namespace DirectTrade.Foundation.Changes

open Library Outcome Feed

variable {u v w : ChangeView} {versions : List ChangeView} {n i : ℕ} {c c' : ConsumerState}
  {d : DeliveredChange}

def DeliveredChange.taken (d : DeliveredChange) : Seen DeliveredChange :=
  ⟨d.eventId, d.checkpoint, d⟩

/-- The consumer has applied exactly the first events of the view. -/
structure Caught (v : ChangeView) (c : ConsumerState) (n : ℕ) : Prop where
  base : c.baseCheckpoint = v.initialCheckpoint
  checkpoint : ∃ k, c.checkpoint = some k ∧ v.Reaches k n
  items : (v.history.take n).foldlM apply v.snapshot = .ok c.items
  seen : c.seen = (v.delivered.take n).map DeliveredChange.taken

theorem Caught.le (h : Caught v c n) : n ≤ v.history.length := by
  obtain ⟨k, -, hk⟩ := h.checkpoint
  exact hk.le

/-- A later version has the same first events. -/
theorem Caught.mono (h : Caught u c n) (huv : Precedes u v) : Caught v c n where
  base := h.base.trans huv.base.symm
  checkpoint := by
    obtain ⟨k, hk, hreach⟩ := h.checkpoint
    exact ⟨k, hk, huv.reaches hreach⟩
  items := by
    obtain ⟨rest, hrest⟩ := huv.history
    rw [huv.snapshot, ← hrest, List.take_append_of_le_length h.le]
    exact h.items
  seen := by
    obtain ⟨rest, hrest⟩ := huv.delivered
    have hle : n ≤ u.delivered.length := by
      rw [ChangeView.delivered, length_link]
      exact h.le
    rw [← hrest, List.take_append_of_le_length hle]
    exact h.seen

theorem Caught.unique {m : ℕ} (hv : Sound v) (hn : Caught v c n) (hm : Caught v c m) : n = m := by
  obtain ⟨k, hk, hreach⟩ := hn.checkpoint
  obtain ⟨k', hk', hreach'⟩ := hm.checkpoint
  obtain rfl := Option.some.inj (hk.symm.trans hk')
  exact hv.inj hreach hreach'

/-- The consumer knows the places of the checkpoints it has reached. -/
theorem Caught.known (hv : Sound v) (h : Caught v c n) {start : Uuid}
    (hstart : start = c.baseCheckpoint ∨ c.checkpoint = some start ∨
      ∃ s ∈ c.seen, s.checkpoint = start) (hi : v.Reaches start i) : i ≤ n := by
  obtain rfl | hcheck | ⟨s, hs, rfl⟩ := hstart
  · rw [h.base] at hi
    have hzero := hv.inj hi (at_zero ..)
    omega
  · obtain ⟨k, hk, hreach⟩ := h.checkpoint
    obtain rfl := Option.some.inj (hcheck.symm.trans hk)
    exact Nat.le_of_eq (hv.inj hi hreach)
  · rw [h.seen] at hs
    obtain ⟨d, hd, rfl⟩ := List.mem_map.mp hs
    obtain ⟨j, hj⟩ := List.getElem?_of_mem hd
    have hlt : j < n := by
      have hlt := (List.getElem?_eq_some_iff.mp hj).1
      rw [List.length_take] at hlt
      omega
    rw [List.getElem?_take_of_lt hlt] at hj
    obtain ⟨e, k, he, -, rfl⟩ := getElem?_link hj
    have hplace := hv.inj hi (at_succ he)
    omega

theorem link_injective {j m : ℕ} {d' : DeliveredChange} (hv : Sound v)
    (hj : v.delivered[j]? = some d') (hm : v.delivered[m]? = some d)
    (hid : d'.eventId = d.eventId) : j = m := by
  obtain ⟨e', k', he', -, rfl⟩ := getElem?_link hj
  obtain ⟨e, k, he, -, rfl⟩ := getElem?_link hm
  have hids : (v.history.map ChangeEvent.eventId)[j]? =
      (v.history.map ChangeEvent.eventId)[m]? := by
    rw [List.getElem?_map, List.getElem?_map, he, he']
    exact congrArg some hid
  have hlt : j < (v.history.map ChangeEvent.eventId).length := by
    rw [List.length_map]
    exact (List.getElem?_eq_some_iff.mp he').1
  exact (List.getElem?_inj hlt hv.ids).mp hids

/-- What a page of changes cannot touch. -/
structure Same (c c' : ConsumerState) : Prop where
  mode : c'.mode = c.mode
  completeness : c'.completeness = c.completeness
  asOf : c'.asOf = c.asOf
  currentAsOf : c'.currentAsOf = c.currentAsOf

theorem Same.refl (c : ConsumerState) : Same c c := ⟨rfl, rfl, rfl, rfl⟩

theorem Same.trans {c'' : ConsumerState} (h : Same c c') (h' : Same c' c'') : Same c c'' :=
  ⟨h'.mode.trans h.mode, h'.completeness.trans h.completeness, h'.asOf.trans h.asOf,
    h'.currentAsOf.trans h.currentAsOf⟩

theorem consumeEvent_eq_ok {currentAsOf : ℤ} {k k' : Uuid}
    (h : consumeEvent currentAsOf (c, k) d = .ok (c', k')) :
    d.previousCheckpoint = k ∧ k' = d.checkpoint ∧
      ((c' = c ∧ ∃ s ∈ c.seen, s.eventId = d.eventId) ∨
        (∀ s ∈ c.seen, s.eventId ≠ d.eventId) ∧ c.checkpoint = some k ∧
          ∃ items, apply c.items d.toChangeEvent = .ok items ∧
            c' = { c with
              items, checkpoint := some d.checkpoint, seen := c.seen ++ [d.taken] }) := by
  unfold consumeEvent at h
  simp only [bind_eq_ok, demand_eq_ok] at h
  obtain ⟨-, -, -, ⟨hprevious, -⟩, h⟩ := h
  refine ⟨hprevious, ?_⟩
  cases hfind : c.seen.find? fun s => s.eventId = d.eventId with
  | some s =>
    simp only [hfind, bind_eq_ok, demand_eq_ok, pure_eq_ok, Prod.mk.injEq] at h
    obtain ⟨-, -, rfl, rfl⟩ := h
    have hid := List.find?_some hfind
    exact ⟨rfl, .inl ⟨rfl, s, List.mem_of_find?_eq_some hfind, of_decide_eq_true hid⟩⟩
  | none =>
    simp only [hfind, bind_eq_ok, demand_eq_ok, pure_eq_ok, Prod.mk.injEq] at h
    obtain ⟨-, -, -, hcheck, items, happly, -, -, rfl, rfl⟩ := h
    refine ⟨rfl, .inr ⟨?_, hprevious ▸ hcheck, items, happly, rfl⟩⟩
    intro s hs heq
    exact List.find?_eq_none.mp hfind s hs (decide_eq_true heq)

/-- A delivery at a place that the consumer has reached is recognized or applied. -/
theorem consumeEvent_caught {currentAsOf : ℤ} {k k' : Uuid} {m : ℕ} (hv : Sound v)
    (hc : Caught v c n) (hd : v.delivered[m]? = some d) (hle : m ≤ n)
    (h : consumeEvent currentAsOf (c, k) d = .ok (c', k')) :
    Caught v c' (max n (m + 1)) ∧ Same c c' ∧ v.Reaches k' (m + 1) := by
  obtain ⟨-, rfl, hcases⟩ := consumeEvent_eq_ok h
  obtain ⟨e, k₀, he, hk₀, rfl⟩ := getElem?_link hd
  have hnext : v.Reaches e.checkpoint (m + 1) := at_succ he
  obtain ⟨rfl, s, hs, hid⟩ | ⟨hnew, hcheck, items, happly, rfl⟩ := hcases
  · rw [hc.seen] at hs
    obtain ⟨d', hd', rfl⟩ := List.mem_map.mp hs
    obtain ⟨j, hj⟩ := List.getElem?_of_mem hd'
    have hlt : j < n := by
      have hlt := (List.getElem?_eq_some_iff.mp hj).1
      rw [List.length_take] at hlt
      omega
    rw [List.getElem?_take_of_lt hlt] at hj
    have hjm := link_injective hv hj hd hid
    rw [show max n (m + 1) = n by omega]
    exact ⟨hc, Same.refl _, hnext⟩
  · have hmn : m = n := by
      by_contra hne
      have hlt : m < n := by omega
      have hmem : (e.after k₀) ∈ v.delivered.take n := by
        apply List.mem_of_getElem? (i := m)
        rw [List.getElem?_take_of_lt hlt]
        exact hd
      apply hnew (e.after k₀).taken
      · rw [hc.seen]
        exact List.mem_map_of_mem hmem
      · rfl
    subst hmn
    rw [show max m (m + 1) = m + 1 by omega]
    refine ⟨⟨hc.base, ⟨_, rfl, hnext⟩, ?_, ?_⟩, ⟨rfl, rfl, rfl, rfl⟩, hnext⟩
    · rw [List.take_add_one, he]
      apply (foldlM_append_eq_ok ..).mpr
      refine ⟨c.items, hc.items, ?_⟩
      rw [Option.toList_some, List.foldlM_cons]
      show (apply c.items (e.after k₀).toChangeEvent >>= _) = _
      rw [happly]
      rfl
    · rw [List.take_add_one, hd, List.map_append, ← hc.seen]
      rfl

/-- A stretch of deliveries that starts where the consumer has been leads it to the end of the
stretch, if it was not there before. -/
theorem consumeEvents_caught {currentAsOf : ℤ} {events : List DeliveredChange} {k k' : Uuid}
    (hv : Sound v) (hc : Caught v c n) (hi : i ≤ n) (hk : v.Reaches k i)
    (hevents : events <+: v.delivered.drop i)
    (h : events.foldlM (consumeEvent currentAsOf) (c, k) = .ok (c', k')) :
    Caught v c' (max n (i + events.length)) ∧ Same c c' ∧ v.Reaches k' (i + events.length) := by
  induction events generalizing c k n i with
  | nil =>
    obtain ⟨rfl, rfl⟩ := Prod.mk.inj (Except.ok.inj h)
    rw [List.length_nil, Nat.add_zero, Nat.max_eq_left hi]
    exact ⟨hc, Same.refl _, hk⟩
  | cons d rest ih =>
    rw [List.foldlM_cons, bind_eq_ok] at h
    obtain ⟨⟨c₁, k₁⟩, hstep, hrest⟩ := h
    obtain ⟨tail, htail⟩ := hevents
    have hd : v.delivered[i]? = some d := by
      rw [← Nat.add_zero i, ← List.getElem?_drop, ← htail]
      rfl
    have hstretch : rest <+: v.delivered.drop (i + 1) := by
      refine ⟨tail, ?_⟩
      rw [← List.drop_drop, ← htail]
      rfl
    obtain ⟨hc₁, hsame, hk₁⟩ := consumeEvent_caught hv hc hd hi hstep
    obtain ⟨hc', hsame', hk'⟩ := ih hc₁ (by omega) hk₁ hstretch hrest
    have hlen : i + 1 + rest.length = i + (d :: rest).length := by
      rw [List.length_cons]
      omega
    rw [hlen] at hc' hk'
    refine ⟨?_, hsame.trans hsame', hk'⟩
    rwa [show max (max n (i + 1)) (i + (d :: rest).length) = max n (i + (d :: rest).length) by
      rw [List.length_cons]; omega] at hc'

/-- The consumer has staged the first pages of the snapshot. -/
structure Staged (v : ChangeView) (c : ConsumerState) : Prop where
  base : c.baseCheckpoint = v.initialCheckpoint
  items : ∃ k, v.pageNumber c.nextSnapshot = some k ∧ c.items = v.snapshot.take (k * pageSize)
  seen : c.seen = []

/-- What holds of a consumer that follows the versions of a view, of which `v` is the last. -/
structure Follows (versions : List ChangeView) (v : ChangeView) (c : ConsumerState) : Prop where
  staged : c.mode = .snapshot → Staged v c
  caught : c.mode = .live → ∃ n, Caught v c n ∧ (c.completeness = .complete →
    c.currentAsOf = c.asOf ∧ ∃ u ∈ versions, u.asOf = c.asOf ∧ u.history.length = n)
  complete : c.completeness = .complete → c.mode = .live

theorem Staged.mono (h : Staged u c) (huv : Precedes u v) : Staged v c where
  base := h.base.trans huv.base.symm
  items := by
    obtain ⟨k, hk, hitems⟩ := h.items
    refine ⟨k, ?_, by rw [huv.snapshot, hitems]⟩
    rw [← hk]
    unfold ChangeView.pageNumber
    rw [huv.tokens]
  seen := h.seen

theorem Follows.mono (h : Follows versions u c) (huv : Precedes u v) :
    Follows (v :: versions) v c where
  staged hmode := (h.staged hmode).mono huv
  caught hmode := by
    obtain ⟨n, hn, hcomplete⟩ := h.caught hmode
    refine ⟨n, hn.mono huv, ?_⟩
    intro hc
    obtain ⟨hasOf, u', hu', hu⟩ := hcomplete hc
    exact ⟨hasOf, u', List.mem_cons_of_mem _ hu', hu⟩
  complete := h.complete

/-- A complete consumer shows the view as it was at a version of the same freshness. -/
theorem Follows.items_eq (hsound : ∀ u ∈ versions, Sound u) (hlast : ∀ u ∈ versions, Precedes u v)
    (h : Follows versions v c) (hcomplete : c.completeness = .complete) :
    ∃ u ∈ versions, u.asOf = c.asOf ∧ u.current = c.items := by
  obtain ⟨n, hn, hfresh⟩ := h.caught (h.complete hcomplete)
  obtain ⟨-, u, hu, hasOf, rfl⟩ := hfresh hcomplete
  refine ⟨u, hu, hasOf, ?_⟩
  obtain ⟨rest, hrest⟩ := (hlast u hu).history
  have hitems := hn.items
  rw [← hrest, List.take_left, (hlast u hu).snapshot, (hsound u hu).current] at hitems
  exact Except.ok.inj hitems

/-- A page that was staged already changes at most what the consumer knows of freshness. -/
theorem Follows.refresh (h : Follows versions v c) (currentAsOf : ℤ) :
    Follows versions v (c.refresh currentAsOf) := by
  unfold ConsumerState.refresh
  by_cases hlt : c.currentAsOf < currentAsOf
  · rw [if_pos hlt]
    have hstaged : c.mode = .snapshot → ∀ completeness, Staged v
        { c with currentAsOf, completeness } := by
      intro hmode completeness
      have hs := h.staged hmode
      exact ⟨hs.base, hs.items, hs.seen⟩
    by_cases hasOf : c.asOf < currentAsOf
    · simp only [if_pos hasOf]
      refine ⟨fun hmode => hstaged hmode _, ?_, fun hc => nomatch hc⟩
      intro hmode
      obtain ⟨n, hn, -⟩ := h.caught hmode
      exact ⟨n, ⟨hn.base, hn.checkpoint, hn.items, hn.seen⟩, fun hc => nomatch hc⟩
    · simp only [if_neg hasOf]
      refine ⟨fun hmode => hstaged hmode _, ?_, h.complete⟩
      intro hmode
      obtain ⟨n, hn, hcomplete⟩ := h.caught hmode
      refine ⟨n, ⟨hn.base, hn.checkpoint, hn.items, hn.seen⟩, ?_⟩
      intro hc
      -- A complete consumer is as fresh as it can tell, so what is newer is newer than its items.
      have heq := (hcomplete hc).1
      omega
  · rw [if_neg hlt]
    exact h

/-- The page after those that were staged. -/
theorem stage_follows (hv : Sound v) (huv : Precedes u v) {k : ℕ} {cursor : Option Uuid}
    (hcursor : u.pageNumber cursor = some k) (hmode : c.mode = .snapshot) (hstaged : Staged v c)
    (hnext : c.nextSnapshot = cursor) (hpart : c.completeness ≠ .complete) :
    Follows versions v (c.stage (u.snapshotPage cursor k)) := by
  obtain ⟨k', hk', hitems⟩ := hstaged.items
  have hnumber : v.pageNumber cursor = u.pageNumber cursor := by
    unfold ChangeView.pageNumber
    rw [huv.tokens]
  rw [hnext, hnumber, hcursor] at hk'
  obtain rfl := Option.some.inj hk'
  have hall : (c.stage (u.snapshotPage cursor k)).items = v.snapshot.take ((k + 1) * pageSize) := by
    show c.items ++ (u.snapshot.drop (k * pageSize)).take pageSize = _
    rw [hitems, ← huv.snapshot, Nat.succ_mul, List.take_add]
  cases htoken : v.snapshotTokens[k]? with
  | some token =>
    have hpage : u.snapshotTokens[k]? = some token := by rw [← huv.tokens, htoken]
    refine ⟨?_, ?_, ?_⟩
    · intro _
      refine ⟨hstaged.base, ⟨k + 1, ?_, hall⟩, hstaged.seen⟩
      show v.pageNumber u.snapshotTokens[k]? = _
      rw [hpage]
      exact pageNumber_next hv htoken
    · intro hlive
      simp only [ConsumerState.stage, ChangeView.snapshotPage, hpage, Option.isNone_some,
        Bool.false_eq_true, if_false, hmode] at hlive
      exact nomatch hlive
    · intro hcomplete
      simp only [ConsumerState.stage, ChangeView.snapshotPage, hpage, Option.isNone_some,
        Bool.false_eq_true, if_false] at hcomplete
      exact absurd hcomplete hpart
  | none =>
    have hpage : u.snapshotTokens[k]? = none := by rw [← huv.tokens, htoken]
    have hlast : (u.snapshotPage cursor k).complete = true := by
      show (u.snapshotTokens[k]?).isNone = true
      rw [hpage]
      rfl
    have hlive : (c.stage (u.snapshotPage cursor k)).mode = .live := if_pos hlast
    have hpart' : (c.stage (u.snapshotPage cursor k)).completeness = .part := if_pos hlast
    refine ⟨?_, ?_, fun _ => hlive⟩
    · intro hstill
      rw [hlive] at hstill
      exact nomatch hstill
    intro _
    refine ⟨0, ⟨hstaged.base, ⟨v.initialCheckpoint, ?_, at_zero ..⟩, ?_, ?_⟩, ?_⟩
    · show (if (u.snapshotPage cursor k).complete = true then _ else _) = _
      rw [if_pos hlast]
      exact congrArg some huv.base.symm
    · rw [hall, List.take_of_length_le (length_le_of_last hv htoken)]
      rfl
    · show c.seen = _
      rw [hstaged.seen]
      rfl
    · intro hcomplete
      rw [hpart'] at hcomplete
      exact nomatch hcomplete

theorem begin_follows (huv : Precedes u v) (cursor : Option Uuid) (k : ℕ) :
    Follows versions v (u.snapshotPage cursor k).begin where
  staged _ := ⟨huv.base.symm, ⟨0, rfl, (List.take_zero ..).symm⟩, rfl⟩
  caught hmode := nomatch hmode
  complete hcomplete := nomatch hcomplete

section
variable [UrlParser]

theorem consumeSnapshotPage_eq_ok {input : Option ConsumerState} {page : SnapshotPage}
    (h : consumeSnapshotPage input page = .ok c') :
    c' = (input.getD page.begin).refresh page.currentAsOf ∨
      (input.getD page.begin).mode = .snapshot ∧
        (input.getD page.begin).nextSnapshot = page.cursor ∧
        c' = (input.getD page.begin).stage page := by
  simp only [consumeSnapshotPage, bind_eq_ok, demand_eq_ok] at h
  obtain ⟨-, -, -, -, h⟩ := h
  cases hfind : (input.getD page.begin).snapshotReceipts.find? fun p => p.cursor = page.cursor with
  | some prior =>
    simp only [hfind, bind_eq_ok, demand_eq_ok, pure_eq_ok] at h
    obtain ⟨-, -, rfl⟩ := h
    exact .inl rfl
  | none =>
    simp only [hfind, bind_eq_ok, demand_eq_ok, pure_eq_ok] at h
    obtain ⟨-, ⟨hmode, hnext⟩, -, -, -, -, -, -, rfl⟩ := h
    exact .inr ⟨hmode, hnext, rfl⟩

theorem consumeSnapshotPage_follows (hv : Sound v) (huv : Precedes u v) {binding : ViewBinding}
    {cursor : Option Uuid} {now : ℤ} {page : SnapshotPage}
    (hpage : snapshotPage u binding cursor now = .ok (.page page))
    {input : Option ConsumerState} (hinput : ∀ c ∈ input, Follows versions v c)
    (h : consumeSnapshotPage input page = .ok c') : Follows versions v c' := by
  obtain ⟨k, hcursor, rfl⟩ := snapshotPage_eq_page hpage
  have hbefore : Follows versions v (input.getD (u.snapshotPage cursor k).begin) := by
    cases input with
    | none => exact begin_follows huv cursor k
    | some c => exact hinput c rfl
  obtain rfl | ⟨hmode, hnext, rfl⟩ := consumeSnapshotPage_eq_ok h
  · exact hbefore.refresh _
  · apply stage_follows hv huv hcursor hmode (hbefore.staged hmode) hnext
    intro hcomplete
    have hlive := hbefore.complete hcomplete
    rw [hmode] at hlive
    exact nomatch hlive

end

theorem invalidate_follows (c : ConsumerState) : Follows versions v c.invalidate where
  staged hmode := nomatch hmode
  caught hmode := nomatch hmode
  complete hcomplete := nomatch hcomplete

/-- Of two versions one continues the other. -/
def Chained (versions : List ChangeView) : Prop :=
  ∀ u ∈ versions, ∀ w ∈ versions, Precedes u w ∨ Precedes w u

/-- What a page says of freshness is believed only where it ends the history of its version, and
an older page leaves what a newer one said. -/
theorem conclude_follows (hv : Sound v) (hchain : Chained versions) (hu : u ∈ versions)
    {page : ChangesPage} (hpage : Stretch u page i)
    (hc : Caught v c (max n (i + page.events.length)))
    (hstop : v.Reaches page.stop (i + page.events.length)) (hmode : c.mode = .live)
    (hfresh : c.completeness = .complete → c.currentAsOf = c.asOf ∧
      ∃ w ∈ versions, w.asOf = c.asOf ∧ w.history.length = n) :
    Follows versions v (c.conclude page) := by
  have hlive : c.mode ≠ .snapshot := by
    rw [hmode]
    exact nofun
  unfold ConsumerState.conclude
  by_cases hnewer : c.currentAsOf ≤ page.currentAsOf
  · rw [if_pos hnewer]
    by_cases hdone : page.complete = true ∧ c.checkpoint = some page.stop
    · rw [if_pos hdone]
      refine ⟨fun hstaged => absurd hstaged hlive, ?_, fun _ => hmode⟩
      intro _
      refine ⟨_, ⟨hc.base, hc.checkpoint, hc.items, hc.seen⟩, fun _ => ⟨rfl, u, hu, ?_, ?_⟩⟩
      · exact hpage.fresh.symm
      · obtain ⟨k, hk, hreach⟩ := hc.checkpoint
        obtain rfl := Option.some.inj (hdone.2.symm.trans hk)
        rw [← hpage.complete hdone.1]
        exact hv.inj hstop hreach
    · rw [if_neg hdone]
      refine ⟨fun hstaged => absurd hstaged hlive, ?_, fun hcomplete => nomatch hcomplete⟩
      intro _
      exact ⟨_, ⟨hc.base, hc.checkpoint, hc.items, hc.seen⟩, fun hcomplete => nomatch hcomplete⟩
  · rw [if_neg hnewer]
    refine ⟨fun hstaged => absurd hstaged hlive, ?_, fun _ => hmode⟩
    intro _
    refine ⟨_, hc, ?_⟩
    intro hcomplete
    obtain ⟨hasOf, w, hw, hwasOf, hn⟩ := hfresh hcomplete
    refine ⟨hasOf, w, hw, hwasOf, ?_⟩
    obtain hlater | hearlier := hchain w hw u hu
    · have hle := hlater.fresh
      rw [hpage.fresh] at hnewer
      omega
    · -- The page is of an older version, and brings nothing that `w` did not have.
      have hle := hearlier.length_le
      have hend := hpage.le
      omega

section
variable [UrlParser]

theorem consumeChangePage_eq_ok {page : ChangesPage}
    (h : consumeChangePage c (.page page) = .ok c') :
    c.mode = .live ∧ (page.start = c.baseCheckpoint ∨ c.checkpoint = some page.start ∨
      ∃ s ∈ c.seen, s.checkpoint = page.start) ∧
    ∃ caught, page.events.foldlM (consumeEvent page.currentAsOf) (c, page.start) =
      .ok (caught, page.stop) ∧ c' = caught.conclude page := by
  simp only [consumeChangePage, bind_eq_ok, demand_eq_ok, pure_eq_ok] at h
  obtain ⟨-, -, -, ⟨hmode, -⟩, -, -, -, hstart, ⟨caught, stop⟩, hfold, -, rfl, rfl⟩ := h
  exact ⟨hmode, hstart, caught, hfold, rfl⟩

theorem consumeChangePage_follows (hv : Sound v) (hchain : Chained versions) (hu : u ∈ versions)
    (huv : Precedes u v) (hsound : Sound u) {binding : ViewBinding} {checkpoint : Uuid}
    {limit : ℕ} {now : ℤ} {answer : Answer ChangesPage}
    (hanswer : pullChanges u binding checkpoint limit now = .ok answer)
    (hfollows : Follows versions v c) (h : consumeChangePage c answer = .ok c') :
    Follows versions v c' := by
  obtain rfl | ⟨position, hposition, rfl⟩ := pullChanges_eq_ok hanswer
  · obtain rfl := Except.ok.inj h
    exact invalidate_follows c
  · obtain ⟨i, hpage⟩ := changesPage_stretch hsound hposition limit
    obtain ⟨hmode, hstart, caught, hfold, rfl⟩ := consumeChangePage_eq_ok h
    obtain ⟨n, hn, hfresh⟩ := hfollows.caught hmode
    have hreach := huv.reaches hpage.start
    obtain ⟨hc, hsame, hstop⟩ := consumeEvents_caught hv hn (hn.known hv hstart hreach) hreach
      (hpage.events.trans (List.IsPrefix.drop huv.delivered i)) hfold
    apply conclude_follows hv hchain hu hpage hc hstop (hsame.mode.trans hmode)
    intro hcomplete
    rw [hsame.currentAsOf, hsame.asOf]
    exact hfresh (hsame.completeness.symm.trans hcomplete)

end

end DirectTrade.Foundation.Changes
