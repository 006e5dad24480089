import DirectTrade.Flow.Observed
import DirectTrade.Flow.Steps

/-!
Runs of a book. Whatever ledgers are opened and facts arrive, every ledger is sound; a
fact that is accepted moves exactly what it states and chains exactly the ledgers it
lists, and one that is not leaves the book as it was.
-/

namespace DirectTrade.Flow

open Library Outcome

variable [FactHash]

section Checks

variable {book : FlowBook} {touched touched' : List Digest}

omit [FactHash] in
theorem mem_zipIdx {α : Type} {a : α} {l : List α} (h : a ∈ l) : ∃ i, (a, i) ∈ l.zipIdx := by
  have hmem : a ∈ l.zipIdx.map Prod.fst := by
    rw [List.zipIdx_map_fst]
    exact h
  obtain ⟨e, he, rfl⟩ := List.mem_map.mp hmem
  exact ⟨e.2, he⟩

/-- Touching grows the list of ledgers by the one of a real position. -/
structure Grows (touched touched' : List Digest) : Prop where
  nodup : touched.Nodup → touched'.Nodup
  subset : touched ⊆ touched'

omit [FactHash] in
theorem Grows.trans {touched'' : List Digest} (h : Grows touched touched')
    (h' : Grows touched' touched'') : Grows touched touched'' :=
  ⟨fun hnodup => h'.nodup (h.nodup hnodup), fun _ hk => h'.subset (h.subset hk)⟩

theorem touch_eq_ok {asset : Asset} {p : FlowPosition} {path : String}
    (h : touch book asset p path touched = .ok touched') :
    Grows touched touched' ∧ (p.isVirtual = false → ledgerKey asset p ∈ touched') := by
  unfold touch at h
  split at h
  next hvirtual =>
    simp only [pure_eq_ok] at h
    subst h
    refine ⟨⟨id, List.Subset.refl _⟩, ?_⟩
    intro hreal
    rw [hvirtual] at hreal
    cases hreal
  next =>
    simp only [bind_eq_ok, pure_eq_ok] at h
    obtain ⟨found, hfound, rfl⟩ := h
    rw [(ledgerOf_eq_ok hfound).1]
    refine ⟨⟨List.Nodup.insert, ?_⟩, fun _ => List.mem_insert_self⟩
    intro k hk
    exact List.mem_insert_of_mem hk

theorem shapeLeg_eq_ok {entry : FlowLeg × ℕ} (h : shapeLeg book touched entry = .ok touched') :
    Grows touched touched' ∧ entry.1.Shaped ∧ entry.1.Touches touched' := by
  simp only [shapeLeg, bind_eq_ok, demand_eq_ok] at h
  obtain ⟨_, hasset, _, hfrom, _, hto, _, hreal, _, -, _, -, _, -, mid, hsource, htarget⟩ := h
  obtain ⟨hgrows, hkey⟩ := touch_eq_ok hsource
  obtain ⟨hgrows', hkey'⟩ := touch_eq_ok htarget
  exact ⟨hgrows.trans hgrows', ⟨checkAsset_eq_ok hasset, checkPosition_eq_ok hfrom,
    checkPosition_eq_ok hto, hreal⟩, fun hfrom => hgrows'.subset (hkey hfrom), hkey'⟩

theorem shapeReservation_eq_ok {entry : FlowReservation × ℕ}
    (h : shapeReservation book touched entry = .ok touched') :
    Grows touched touched' ∧ entry.1.Shaped ∧
      ledgerKey entry.1.asset entry.1.position ∈ touched' := by
  simp only [shapeReservation, bind_eq_ok, demand_eq_ok] at h
  obtain ⟨_, hasset, _, hgoods, _, -, _, -, _, hreal, _, hstatus, htouch⟩ := h
  have hsingle := checkAsset_eq_ok hasset
  have hcurrency : entry.1.asset.isMoney = false := by
    unfold Asset.isMoney
    unfold Asset.Single at hsingle
    cases hproduct : entry.1.asset.product with
    | none => exact absurd hproduct hgoods
    | some product =>
      cases hcurrency : entry.1.asset.currency with
      | none => rfl
      | some currency =>
        rw [hproduct, hcurrency] at hsingle
        exact absurd rfl hsingle
  obtain ⟨hgrows, hkey⟩ := touch_eq_ok htouch
  exact ⟨hgrows, ⟨hsingle, hcurrency, hreal, hstatus⟩, hkey hreal⟩

/-- What the checks before any change say of a fact: its legs and operations are of ledgers
touched, and those are the ledgers listed, each as it is listed. -/
structure FactChecked (book : FlowBook) (fact : FlowFact) (touched : List Digest) : Prop where
  nodup : touched.Nodup
  legs : ∀ leg ∈ fact.legs, leg.Shaped ∧ leg.Touches touched
  reservations : ∀ op ∈ fact.reservations, op.Shaped ∧ ledgerKey op.asset op.position ∈ touched
  listed : ∀ k, k ∈ fact.ledgers.map ListedLedger.key ↔ k ∈ touched
  current : ∀ e ∈ fact.ledgers, ∃ l, book.ledgers.get? e.key = some l ∧
    l.revision < maxSafeInteger ∧ e.expectedRevision = l.revision ∧ e.expectedDigest = l.head

theorem checkLedgers_eq_ok {fact : FlowFact} {v : Unit} (hnodup : touched.Nodup)
    (h : checkLedgers book fact touched = .ok v) :
    (∀ k, k ∈ fact.ledgers.map ListedLedger.key ↔ k ∈ touched) ∧
    ∀ e ∈ fact.ledgers, ∃ l, book.ledgers.get? e.key = some l ∧ l.revision < maxSafeInteger ∧
      e.expectedRevision = l.revision ∧ e.expectedDigest = l.head := by
  simp only [checkLedgers, bind_eq_ok, demand_eq_ok, each_eq_ok] at h
  obtain ⟨_, -, _, ⟨hlength, htouched⟩, hcurrent⟩ := h
  constructor
  · -- as many are listed as touched, and all those touched are listed
    have hsub : List.Subperm touched (fact.ledgers.map ListedLedger.key) :=
      List.subperm_of_subset hnodup htouched
    have hperm := hsub.perm_of_length_le (by rw [List.length_map]; omega)
    intro k
    exact hperm.symm.mem_iff
  · intro e he
    have hlisted := hcurrent e he
    simp only [checkListed, bind_eq_ok, require_eq_ok, demand_eq_ok] at hlisted
    obtain ⟨l, hl, _, hcapacity, hrevision⟩ := hlisted
    exact ⟨l, hl, hcapacity, hrevision⟩

theorem checkFlowFact_eq_ok {fact : FlowFact} (h : checkFlowFact book fact = .ok touched) :
    FactChecked book fact touched := by
  simp only [checkFlowFact, bind_eq_ok, pure_eq_ok] at h
  obtain ⟨byLegs, hlegs, all, hops, _, -, _, -, _, -, _, hledgers, rfl⟩ := h
  have hfirst := foldlM_prefix (fun pre (seen : List Digest) => seen.Nodup ∧
    ∀ e ∈ pre, e.1.Shaped ∧ e.1.Touches seen) (by
      intro pre entry seen seen' hseen hstep
      obtain ⟨hgrows, hshaped, htouches⟩ := shapeLeg_eq_ok hstep
      refine ⟨hgrows.nodup hseen.1, ?_⟩
      intro e he
      cases List.mem_append.mp he with
      | inl hbefore =>
        obtain ⟨hshaped', htouches'⟩ := hseen.2 e hbefore
        exact ⟨hshaped', fun hfrom => hgrows.subset (htouches'.1 hfrom),
          fun hto => hgrows.subset (htouches'.2 hto)⟩
      | inr hlast =>
        rw [List.mem_singleton.mp hlast]
        exact ⟨hshaped, htouches⟩) ⟨List.nodup_nil, List.forall_mem_nil _⟩ hlegs
  have hsecond := foldlM_prefix (fun pre (seen : List Digest) => Grows byLegs seen ∧
    ∀ e ∈ pre, e.1.Shaped ∧ ledgerKey e.1.asset e.1.position ∈ seen) (by
      intro pre entry seen seen' hseen hstep
      obtain ⟨hgrows, hshaped, hkey⟩ := shapeReservation_eq_ok hstep
      refine ⟨hseen.1.trans hgrows, ?_⟩
      intro e he
      cases List.mem_append.mp he with
      | inl hbefore =>
        obtain ⟨hshaped', hkey'⟩ := hseen.2 e hbefore
        exact ⟨hshaped', hgrows.subset hkey'⟩
      | inr hlast =>
        rw [List.mem_singleton.mp hlast]
        exact ⟨hshaped, hkey⟩)
    ⟨⟨id, List.Subset.refl _⟩, List.forall_mem_nil _⟩ hops
  have hnodup := hsecond.1.nodup hfirst.1
  obtain ⟨hlisted, hcurrent⟩ := checkLedgers_eq_ok hnodup hledgers
  refine ⟨hnodup, ?_, ?_, hlisted, hcurrent⟩
  · intro leg hleg
    obtain ⟨i, hi⟩ := mem_zipIdx hleg
    obtain ⟨hshaped, htouches⟩ := hfirst.2 (leg, i) hi
    exact ⟨hshaped, fun hfrom => hsecond.1.subset (htouches.1 hfrom),
      fun hto => hsecond.1.subset (htouches.2 hto)⟩
  · intro op hop
    obtain ⟨i, hi⟩ := mem_zipIdx hop
    exact hsecond.2 (op, i) hi

end Checks

section Closing

variable {book t : FlowBook} {key : Digest} {digest : Digest}

/-- A ledger that is compacted and chained to a fact. -/
def Closes (digest : Digest) (l closed : FlowLedger) : Prop :=
  ∃ stock, l.toStock.compact l.measure = .ok stock ∧
    closed = { l with toStock := stock, revision := l.revision + 1, head := some digest }

omit [FactHash] in
theorem closeLedger_eq_ok (h : closeLedger digest book key = .ok t) :
    ∃ l closed, book.ledgers.get? key = some l ∧ Closes digest l closed ∧
      t = { book with ledgers := book.ledgers.set key closed } := by
  simp only [closeLedger, bind_eq_ok, require_eq_ok, pure_eq_ok] at h
  obtain ⟨l, hl, stock, hstock, rfl⟩ := h
  exact ⟨l, _, hl, ⟨stock, hstock, rfl⟩, rfl⟩

theorem Closes.kept {l closed : FlowLedger} (hl : l.Kept key) (h : Closes digest l closed) :
    closed.Kept key ∧ closed.toStock.Compact closed.scale ∧ closed.asset = l.asset ∧
      closed.sum = l.sum := by
  obtain ⟨stock, hstock, rfl⟩ := h
  have hcompact : l.toStock.compact ⟨l.scale, true⟩ = .ok stock := hstock
  refine ⟨⟨?_, hl.contents.compact hcompact, hl.serialized.compact hcompact, ?_⟩,
    Stock.compact_compact hcompact, rfl, ?_⟩
  · cases hl.anchored with
    | goods product hkey hasset hbalance => exact .goods product hkey hasset hbalance
    | money currency account hkey hasset haccount htracking =>
      exact .money currency account hkey hasset haccount htracking
  · intro hbalance k
    have hcovered := hl.covered hbalance k
    have heffect := Stock.compact_effect hcompact k
    have hquantity := heffect.quantity k
    have hreserved := heffect.reserved k
    rw [if_pos rfl] at hquantity hreserved
    show stock.reserved k ≤ stock.quantityAt l.scale k
    omega
  · have htotal := (Stock.compact_effect hcompact key).total
    show stock.total l.scale = l.toStock.total l.scale
    omega

theorem closeLedger_kept (hbook : book.Kept) (h : closeLedger digest book key = .ok t) :
    t.Kept ∧ t.totalAt = book.totalAt ∧ t.assetTotal = book.assetTotal ∧
      t.sources = book.sources := by
  obtain ⟨l, closed, hl, hcloses, rfl⟩ := closeLedger_eq_ok h
  obtain ⟨hkept, -, hasset, hsum⟩ := hcloses.kept (hbook key l hl)
  have hsum' : closed.sum = l.sum + 0 := by omega
  refine ⟨hbook.set hkept, ?_, ?_, rfl⟩
  · rw [totalAt_set hl hsum']
    funext k
    simp
  · rw [assetTotal_set hl hasset hsum']
    funext a
    simp

omit [FactHash] in
/-- Each of the ledgers touched is closed once, and no other. -/
theorem closing_eq_ok {touched : List Digest} (hnodup : touched.Nodup)
    (h : touched.foldlM (closeLedger digest) book = .ok t) :
    (∀ k ∈ touched, ∃ l closed, book.ledgers.get? k = some l ∧ Closes digest l closed ∧
      t.ledgers.get? k = some closed) ∧
    ∀ k, k ∉ touched → t.ledgers.get? k = book.ledgers.get? k := by
  induction touched generalizing book with
  | nil =>
    simp only [List.foldlM_nil, pure_eq_ok] at h
    subst h
    exact ⟨List.forall_mem_nil _, fun _ _ => rfl⟩
  | cons key rest ih =>
    rw [List.foldlM_cons, bind_eq_ok] at h
    obtain ⟨u, hu, hrest⟩ := h
    obtain ⟨hnew, hnodup⟩ := List.nodup_cons.mp hnodup
    obtain ⟨l, closed, hl, hcloses, rfl⟩ := closeLedger_eq_ok hu
    obtain ⟨hclosed, hothers⟩ := ih hnodup hrest
    have hget : ∀ k, k ≠ key →
        (book.ledgers.set key closed).get? k = book.ledgers.get? k :=
      fun k hk => Dict.get?_set_of_ne book.ledgers closed hk
    constructor
    · intro k hk
      cases List.mem_cons.mp hk with
      | inl heq =>
        subst heq
        refine ⟨l, closed, hl, hcloses, ?_⟩
        rw [hothers k hnew]
        exact Dict.get?_set_self book.ledgers k closed
      | inr hlater =>
        obtain ⟨m, closed', hm, hcloses', hfinal⟩ := hclosed k hlater
        refine ⟨m, closed', ?_, hcloses', hfinal⟩
        rw [← hget k fun heq => hnew (heq ▸ hlater)]
        exact hm
    · intro k hk
      rw [hothers k fun hmem => hk (List.mem_cons_of_mem key hmem)]
      exact hget k fun heq => hk (heq ▸ List.mem_cons_self)

end Closing

section Facts

variable {book next : FlowBook} {fact : FlowFact}

omit [FactHash] in
/-- The sum of functions at a point. -/
theorem sum_apply {α ι : Type} (w : α → ι → ℤ) (l : List α) (i : ι) :
    (l.map w).sum i = (l.map fun a => w a i).sum := by
  induction l with
  | nil => rfl
  | cons a rest ih => rw [List.map_cons, List.sum_cons, Pi.add_apply, ih, List.map_cons,
      List.sum_cons]

/-- What a fact gives to the ledger under a key, less what it takes and what it fulfils. -/
def FlowFact.changeAt (fact : FlowFact) (key : Digest) : ℤ :=
  (fact.legs.map fun leg => leg.into key).sum - (fact.legs.map fun leg => leg.outOf key).sum -
    (fact.reservations.map fun op => op.at key).sum

/-- What enters the book of an asset by a fact, less what leaves it and what is fulfilled. -/
def FlowFact.changeOf (fact : FlowFact) (asset : Asset) : ℤ :=
  (fact.legs.map fun leg => if asset = leg.asset then leg.received else 0).sum -
    (fact.legs.map fun leg => if asset = leg.asset then leg.issued else 0).sum -
    (fact.reservations.map fun op => if asset = op.asset then op.fulfilled else 0).sum

/-- What a fact that is accepted has done. -/
structure BookChanged (book : FlowBook) (fact : FlowFact) (next : FlowBook) : Prop where
  kept : next.Kept
  compact : (∀ k l, book.ledgers.get? k = some l → l.toStock.Compact l.scale) →
    ∀ k l, next.ledgers.get? k = some l → l.toStock.Compact l.scale
  total : ∀ k, next.totalAt k = book.totalAt k + fact.changeAt k
  asset : ∀ a, next.assetTotal a = book.assetTotal a + fact.changeOf a
  listed : ∀ e ∈ fact.ledgers, ∃ l l', book.ledgers.get? e.key = some l ∧
    e.expectedRevision = l.revision ∧ e.expectedDigest = l.head ∧
    next.ledgers.get? e.key = some l' ∧ l'.revision = l.revision + 1 ∧
    l'.head = some (digestOf fact.json)
  others : ∀ k, k ∉ fact.ledgers.map ListedLedger.key →
    next.ledgers.get? k = book.ledgers.get? k
  marked : mark book.sources fact.act.observation (digestOf fact.json) = .ok next.sources

/-- A phase of reservation operations. -/
theorem reservations_moved {keys : List Digest} {phase : Phase} {ops : List FlowReservation}
    (hbook : book.Kept)
    (hops : ∀ op ∈ ops, op.Shaped ∧ ledgerKey op.asset op.position ∈ keys)
    (h : ops.zipIdx.foldlM (applyReservation phase) book = .ok next) :
    Moved keys book next
      (fun k => if phase = .settle then -(ops.map fun op => op.at k).sum else 0)
      (fun a => if phase = .settle then
        -(ops.map fun op => if a = op.asset then op.fulfilled else 0).sum else 0) := by
  have hrun := Moved.run keys (fun e he u v hu hv => by
    have hop := hops e.1 (List.fst_mem_of_mem_zipIdx he)
    exact applyReservation_moved hu hop.1 hop.2 hv) hbook h
  have htotal : (ops.zipIdx.map fun e k => if phase = .settle then -e.1.at k else 0).sum =
      fun k => if phase = .settle then -(ops.map fun op => op.at k).sum else 0 := by
    funext k
    rw [sum_apply, Inventory.sum_zipIdx fun op : FlowReservation =>
      if phase = .settle then -op.at k else 0]
    split
    · exact Inventory.sum_neg _ _
    · simp
  have hassets : (ops.zipIdx.map fun e a =>
      if phase = .settle ∧ a = e.1.asset then -e.1.fulfilled else 0).sum =
      fun a => if phase = .settle then
        -(ops.map fun op => if a = op.asset then op.fulfilled else 0).sum else 0 := by
    funext a
    rw [sum_apply, Inventory.sum_zipIdx fun op : FlowReservation =>
      if phase = .settle ∧ a = op.asset then -op.fulfilled else 0]
    split
    next hsettle =>
      rw [← Inventory.sum_neg]
      congr 1
      apply List.map_congr_left
      intro op _
      by_cases ha : a = op.asset <;> simp [hsettle, ha]
    next hclaim => simp [hclaim]
  rw [htotal, hassets] at hrun
  exact hrun

theorem legs_moved {keys : List Digest} {legs : List FlowLeg} (hbook : book.Kept)
    (hlegs : ∀ leg ∈ legs, leg.Shaped ∧ leg.Touches keys)
    (h : legs.zipIdx.foldlM applyLeg book = .ok next) :
    Moved keys book next
      (fun k => (legs.map fun leg => leg.into k).sum - (legs.map fun leg => leg.outOf k).sum)
      (fun a => (legs.map fun leg => if a = leg.asset then leg.received else 0).sum -
        (legs.map fun leg => if a = leg.asset then leg.issued else 0).sum) := by
  have hrun := Moved.run keys (fun e he u v hu hv => by
    have hleg := hlegs e.1 (List.fst_mem_of_mem_zipIdx he)
    exact applyLeg_moved hu hleg.1 hleg.2 hv) hbook h
  have htotal : (legs.zipIdx.map fun e k => e.1.into k - e.1.outOf k).sum =
      fun k => (legs.map fun leg => leg.into k).sum - (legs.map fun leg => leg.outOf k).sum := by
    funext k
    rw [sum_apply, Inventory.sum_zipIdx fun leg : FlowLeg => leg.into k - leg.outOf k]
    exact Inventory.sum_sub _ _ _
  have hassets : (legs.zipIdx.map fun e a =>
      if a = e.1.asset then e.1.received - e.1.issued else 0).sum =
      fun a => (legs.map fun leg => if a = leg.asset then leg.received else 0).sum -
        (legs.map fun leg => if a = leg.asset then leg.issued else 0).sum := by
    funext a
    rw [sum_apply, Inventory.sum_zipIdx fun leg : FlowLeg =>
      if a = leg.asset then leg.received - leg.issued else 0, ← Inventory.sum_sub]
    congr 1
    apply List.map_congr_left
    intro leg _
    split <;> omega
  rw [htotal, hassets] at hrun
  exact hrun

theorem changeBook_spec (hbook : book.Kept) (h : changeBook book fact = .ok next) :
    BookChanged book fact next := by
  simp only [changeBook, bind_eq_ok, pure_eq_ok] at h
  obtain ⟨touched, htouched, settled, hsettled, moved, hmoved, claimed, hclaimed, closed, hclosed,
    sources, hsources, rfl⟩ := h
  have hchecked := checkFlowFact_eq_ok htouched
  have hS := reservations_moved hbook hchecked.reservations hsettled
  have hM := legs_moved hS.kept hchecked.legs hmoved
  have hC := reservations_moved hM.kept hchecked.reservations hclaimed
  have hall := (hS.trans hM).trans hC
  have hclose := foldlM_invariant (fun u : FlowBook => u.Kept ∧ u.totalAt = claimed.totalAt ∧
      u.assetTotal = claimed.assetTotal ∧ u.sources = claimed.sources) (closeLedger _) touched (by
    intro k _ u v hu hv
    obtain ⟨hkept, htotal, hasset, hsame⟩ := closeLedger_kept hu.1 hv
    exact ⟨hkept, htotal.trans hu.2.1, hasset.trans hu.2.2.1, hsame.trans hu.2.2.2⟩)
    ⟨hall.kept, rfl, rfl, rfl⟩ hclosed
  obtain ⟨hkept, htotal, hasset, hsame⟩ := hclose
  obtain ⟨hends, hothers⟩ := closing_eq_ok hchecked.nodup hclosed
  refine ⟨hkept, ?_, ?_, ?_, ?_, ?_, ?_⟩
  · intro hcompact k l hl
    by_cases hk : k ∈ touched
    · obtain ⟨m, closed', hm, hcloses, hfinal⟩ := hends k hk
      have heq : some closed' = some l := hfinal.symm.trans hl
      cases heq
      exact (hcloses.kept (hall.kept k m hm)).2.1
    · have hsame : closed.ledgers.get? k = some l := hl
      rw [hothers k hk, hall.framed.others k hk] at hsame
      exact hcompact k l hsame
  · intro k
    show closed.totalAt k = _
    rw [htotal, hall.total]
    show book.totalAt k + ((_ + _) + (if Phase.claim = .settle then _ else 0)) = _
    unfold FlowFact.changeAt
    simp only [if_true, reduceCtorEq, if_false]
    omega
  · intro a
    show closed.assetTotal a = _
    rw [hasset, hall.asset]
    show book.assetTotal a + ((_ + _) + (if Phase.claim = .settle then _ else 0)) = _
    unfold FlowFact.changeOf
    simp only [if_true, reduceCtorEq, if_false]
    omega
  · intro e he
    obtain ⟨l, hl, -, hrevision, hhead⟩ := hchecked.current e he
    have hkey := (hchecked.listed e.key).mp (List.mem_map_of_mem he)
    obtain ⟨m, closed', hm, ⟨stock, -, rfl⟩, hfinal⟩ := hends e.key hkey
    have hframe := hall.framed.frames e.key
    rw [hl, hm, Option.map_some, Option.map_some, Option.some.injEq] at hframe
    have hsame : m.frame.revision = l.frame.revision := congrArg FlowLedger.revision hframe
    refine ⟨l, _, hl, hrevision, hhead, hfinal, ?_, rfl⟩
    exact congrArg (· + 1) hsame
  · intro k hk
    have hout : k ∉ touched := fun hmem => hk ((hchecked.listed k).mpr hmem)
    show closed.ledgers.get? k = _
    rw [hothers k hout, hall.framed.others k hout]
  · show mark book.sources _ _ = .ok sources
    rw [← hall.framed.sources, ← hsame]
    exact hsources

/-- The books that runs make of an opened one: ledgers are opened in it and facts are given to
it, in any order. With each book come the facts applied, the latest first. -/
inductive BookHistory : FlowBook → List FlowFact → Prop
  | opened {organizationId bookId : String} {book : FlowBook}
      (h : openFlowBook organizationId bookId = .ok book) : BookHistory book []
  | goods {book next : FlowBook} {done : List FlowFact} {productId : String}
      {product : ProductAnchor} (h : BookHistory book done)
      (hopen : openGoodsLedger book productId product = .ok next) : BookHistory next done
  | money {book next : FlowBook} {done : List FlowFact} {currency account : String}
      {balance : Balance} (h : BookHistory book done)
      (hopen : openMoneyLedger book currency account balance = .ok next) : BookHistory next done
  | given {book : FlowBook} {done : List FlowFact} (h : BookHistory book done) (fact : FlowFact) :
      BookHistory (applyFlowFact book fact).state ((applyFlowFact book fact).noted fact done)

theorem applyFlowFact_eq (book : FlowBook) (fact : FlowFact) :
    applyFlowFact book fact = respond book (admitFlowFact fact)
      (observe book.sources fact.act.observation (digestOf fact.json)) (changeBook book fact) :=
  rfl

/-- What holds of every book reached, with the facts applied to it. -/
structure BookReached (book : FlowBook) (done : List FlowFact) : Prop where
  kept : book.Kept
  compact : ∀ k l, book.ledgers.get? k = some l → l.toStock.Compact l.scale
  recalls : Recalls observationWindow book.sources
    (done.map (seen (fun fact => fact.act.observation) fun fact => digestOf fact.json))
  admitted : ∀ fact ∈ done, admitFlowFact fact = .ok ()

theorem kept_opened {key : Digest} {l : FlowLedger} (hanchored : Anchored key l)
    (hempty : l.toStock = Stock.empty) : l.Kept key where
  anchored := hanchored
  contents := by
    rw [hempty]
    exact Stock.contents_empty
  serialized := by
    rw [hempty]
    exact Stock.serialized_empty
  covered := by
    intro _
    rw [hempty]
    exact Stock.covered_empty

/-- A ledger that is opened is empty. -/
theorem BookReached.open {done : List FlowFact} (h : BookReached book done) {key : Digest}
    {l : FlowLedger} (hanchored : Anchored key l) (hempty : l.toStock = Stock.empty) :
    BookReached { book with ledgers := book.ledgers.set key l } done where
  kept := h.kept.set (kept_opened hanchored hempty)
  compact := by
    intro k m hm
    have hget : (book.ledgers.set key l).get? k = some m := hm
    rw [Dict.get?_set] at hget
    split at hget
    · cases hget
      rw [hempty]
      intro j p hp
      cases hp
    · exact h.compact k m hget
  recalls := h.recalls
  admitted := h.admitted

theorem BookHistory.reached {done : List FlowFact} (h : BookHistory book done) :
    BookReached book done := by
  induction h with
  | opened h =>
    simp only [openFlowBook, bind_eq_ok, pure_eq_ok] at h
    obtain ⟨_, -, rfl⟩ := h
    refine ⟨?_, ?_, recalls_empty, List.forall_mem_nil _⟩
    · intro k l hl
      cases hl
    · intro k l hl
      cases hl
  | goods _ hopen ih =>
    simp only [openGoodsLedger, bind_eq_ok, pure_eq_ok] at hopen
    obtain ⟨_, -, _, -, rfl⟩ := hopen
    exact ih.open (.goods _ rfl rfl rfl) rfl
  | money _ hopen ih =>
    simp only [openMoneyLedger, bind_eq_ok, pure_eq_ok] at hopen
    obtain ⟨_, -, _, -, rfl⟩ := hopen
    exact ih.open (.money _ _ rfl rfl rfl rfl) rfl
  | @given book done h fact ih =>
    rw [applyFlowFact_eq]
    cases respond_cases (φ := FlowFact) book (admitFlowFact fact)
        (observe book.sources fact.act.observation (digestOf fact.json))
        (changeBook book fact) with
    | inl hnew =>
      obtain ⟨t, ht⟩ := hnew
      rw [ht]
      obtain ⟨hadmitted, hfresh, hchange⟩ := respond_eq_new ht
      have hchanged := changeBook_spec ih.kept hchange
      refine ⟨hchanged.kept, hchanged.compact ih.compact, ?_, ?_⟩
      · exact Recalls.observed (fun f : FlowFact => f.act.observation) (fun f => digestOf f.json)
          fact ih.recalls hfresh hchanged.marked
      · intro other hother
        cases List.mem_cons.mp hother with
        | inl heq =>
          subst heq
          exact hadmitted
        | inr hbefore => exact ih.admitted other hbefore
    | inr hsame =>
      rw [hsame.1, hsame.2]
      exact ih

/-- What is promised of a ledger between facts. -/
structure FlowLedger.Sound (key : Digest) (l : FlowLedger) : Prop where
  anchored : Anchored key l
  stored : ∀ k p, l.positions.get? k = some p → flowPositionKey p.position = k ∧
    p.position.isVirtual = false ∧ valueOf l.scale p.quantity ≠ 0
  covered : l.balance = .nonnegative → ∀ k p, l.positions.get? k = some p →
    0 ≤ l.toStock.reserved k ∧ l.toStock.reserved k ≤ valueOf l.scale p.quantity
  claims : ∀ id r, l.reservations.get? id = some r → l.asset.isMoney = false ∧
    l.balance = .nonnegative ∧
    ∃ p, l.positions.get? r.position = some p ∧ p.position.status = .available
  serials : (l.positions.values.flatMap PositionState.serials).Nodup
  counted : l.tracking = .serial → ∀ k p, l.positions.get? k = some p →
    valueOf l.scale p.quantity = 1000 * p.serials.length
  account : l.asset.isMoney = true → ∃ account, l.account = some account ∧
    ∀ k p, l.positions.get? k = some p → p.position = accountPosition account

theorem FlowLedger.Kept.sound {key : Digest} {l : FlowLedger} (h : l.Kept key)
    (hcompact : l.toStock.Compact l.scale) : l.Sound key where
  anchored := h.anchored
  stored := by
    intro k p hp
    obtain ⟨hkey, hallows⟩ := h.contents.named k p hp
    refine ⟨hkey, hallows.1, ?_⟩
    intro hzero
    have hserials : p.serials = [] := by
      by_cases htracking : l.tracking = .serial
      · have hcounted := h.serialized.counted htracking k p hp
        apply List.length_eq_zero_iff.mp
        omega
      · exact h.serialized.plain htracking k p hp
    exact hcompact k p hp ⟨hzero, hserials⟩
  covered := by
    intro hbalance k p hp
    have hquantity : l.toStock.quantityAt l.scale k = valueOf l.scale p.quantity :=
      Dict.share_of_get? _ hp
    rw [← hquantity]
    exact ⟨h.contents.reserved_nonneg k, h.covered hbalance k⟩
  claims := by
    intro id r hr
    obtain ⟨-, pos, hkey, hgoods, -, hstatus⟩ := h.contents.claims id r hr
    have hbalance : l.balance = .nonnegative := by
      cases h.anchored with
      | goods product _ _ hbalance => exact hbalance
      | money currency account _ hasset =>
        rw [hasset] at hgoods
        cases hgoods
    obtain ⟨p, hp, -⟩ := h.contents.exists_of_covered (h.covered hbalance) hr
    have hnamed := (h.contents.named r.position p hp).1
    have hpos : p.position = pos := (flowPositionKey_inj _ _).mp (hnamed.trans hkey.symm)
    refine ⟨hgoods, hbalance, p, hp, ?_⟩
    rw [hpos]
    exact hstatus
  serials := h.serialized.nodup
  counted := h.serialized.counted
  account := by
    intro hmoney
    cases h.anchored with
    | goods product _ hasset =>
      rw [hasset] at hmoney
      cases hmoney
    | money currency account _ _ haccount =>
      refine ⟨account, haccount, ?_⟩
      intro k p hp
      exact (h.contents.named k p hp).2.2 hmoney account haccount

/-- In every book that runs make, every ledger is sound. -/
theorem books_sound {done : List FlowFact} (h : BookHistory book done) {key : Digest}
    {l : FlowLedger} (hl : book.ledgers.get? key = some l) : l.Sound key :=
  (h.reached.kept key l hl).sound (h.reached.compact key l hl)

/-- A fact that is accepted moves what its legs and fulfilments state: in every ledger, and of
every asset only what enters or leaves the book. It chains the ledgers it lists and writes
the marks of its own source, and nothing else. A fact that is not accepted changes nothing. -/
theorem facts_conserve {done : List FlowFact} (h : BookHistory book done) (fact : FlowFact) :
    (∀ next, applyFlowFact book fact = .ok false next →
      (∀ k, next.totalAt k = book.totalAt k + fact.changeAt k) ∧
      (∀ a, next.assetTotal a = book.assetTotal a + fact.changeOf a) ∧
      (∀ e ∈ fact.ledgers, ∃ l l', book.ledgers.get? e.key = some l ∧
        e.expectedRevision = l.revision ∧ e.expectedDigest = l.head ∧
        next.ledgers.get? e.key = some l' ∧ l'.revision = l.revision + 1 ∧
        l'.head = some (digestOf fact.json)) ∧
      (∀ k, k ∉ fact.ledgers.map ListedLedger.key →
        next.ledgers.get? k = book.ledgers.get? k) ∧
      ∀ i, i ≠ fact.act.observation.sourceId → next.sources.get? i = book.sources.get? i) ∧
    ((∃ next, applyFlowFact book fact = .ok false next) ∨
      (applyFlowFact book fact).state = book) := by
  constructor
  · intro next hnext
    obtain ⟨-, -, hchange⟩ := respond_eq_new hnext
    have hchanged := changeBook_spec h.reached.kept hchange
    refine ⟨hchanged.total, hchanged.asset, hchanged.listed, hchanged.others, ?_⟩
    intro i hi
    have hmark := hchanged.marked
    unfold mark at hmark
    simp only [bind_eq_ok, pure_eq_ok] at hmark
    obtain ⟨_, -, hsources⟩ := hmark
    rw [← hsources]
    exact Dict.get?_set_of_ne _ _ hi
  · cases respond_cases (φ := FlowFact) book (admitFlowFact fact)
        (observe book.sources fact.act.observation (digestOf fact.json))
        (changeBook book fact) with
    | inl hnew => exact .inl hnew
    | inr hsame => exact .inr hsame.1

/-- In runs of both reducers an observation is applied once, the marks of every source are
those of the facts applied, and what is applied is met as known from then on. -/
theorem observations_once :
    (∀ l done, Inventory.History l done →
      Observed Inventory.InventoryFact.observation (fun fact => digestOf fact.json) l.sources
        done ∧
      ∀ fact ∈ done, (Inventory.applyInventoryFact l fact).IsRepeat l ∧
        ∀ other, other ≠ fact → other.observation = fact.observation →
          (Inventory.applyInventoryFact l other).IsConflict l
            (Inventory.admitInventoryFact l other)) ∧
    ∀ book done, BookHistory book done →
      Observed (fun fact : FlowFact => fact.act.observation) (fun fact => digestOf fact.json)
        book.sources done ∧
      ∀ fact ∈ done, (applyFlowFact book fact).IsRepeat book ∧
        ∀ other, other ≠ fact → other.act.observation = fact.act.observation →
          (applyFlowFact book other).IsConflict book (admitFlowFact other) := by
  constructor
  · intro l done h
    have hl := h.reached
    refine ⟨observed_of_recalls hl.recalls, ?_⟩
    intro fact hfact
    constructor
    · exact respond_again Inventory.InventoryFact.observation (fun f => digestOf f.json) fact
        hl.recalls hfact (hl.admitted fact hfact)
    · intro other hne hsame
      apply respond_other Inventory.InventoryFact.observation (fun f => digestOf f.json) fact
        other hl.recalls hfact hsame
      intro hdigest
      exact hne (by simpa using hdigest)
  · intro book done h
    have hbook := h.reached
    refine ⟨observed_of_recalls hbook.recalls, ?_⟩
    intro fact hfact
    constructor
    · exact respond_again (fun f : FlowFact => f.act.observation) (fun f => digestOf f.json) fact
        hbook.recalls hfact (hbook.admitted fact hfact)
    · intro other hne hsame
      apply respond_other (fun f : FlowFact => f.act.observation) (fun f => digestOf f.json) fact
        other hbook.recalls hfact hsame
      intro hdigest
      exact hne (by simpa using hdigest)

end Facts

def sampleProduct : String := "00000000-0000-4000-8000-000000000003"

/-- The ledger of a product that is counted in pieces. -/
def sampleGoods : FlowLedger :=
  { Stock.empty with
    asset := ⟨some sampleProduct, none⟩, account := none, unit := "EA", tracking := .none
    balance := .nonnegative, revision := 0, head := none }

def sampleBook : FlowBook where
  organizationId := "00000000-0000-4000-8000-000000000001"
  bookId := "00000000-0000-4000-8000-000000000002"
  ledgers := Dict.set ∅ (goodsLedgerKey sampleProduct) sampleGoods
  sources := ∅

def sampleDock : FlowPosition :=
  ⟨none, ⟨some ⟨none, "00000000-0000-4000-8000-000000000004", none⟩, none⟩, .available, none⟩

/-- Eight pieces arrive from the supplier, and three of them are reserved. -/
def sampleFact : FlowFact where
  act := ⟨.move, "2026-01-02T03:04:05.678Z", ⟨"scanner", 1⟩, .measured, [], []⟩
  ledgers := [⟨goodsLedgerKey sampleProduct, 0, none⟩]
  legs := [⟨⟨some sampleProduct, none⟩, ⟨none, ⟨none, some "~supplier"⟩, .available, none⟩,
    sampleDock, Inventory.samplePieces "8", none, none⟩]
  reservations := [⟨.reserve, "r-1", ⟨some sampleProduct, none⟩, sampleDock,
    Inventory.samplePieces "3", none⟩]
  transform := none
  rights := none
  settles := []

omit [FactHash] in
theorem history_sampleBook :
    letI := sampleHash
    BookHistory sampleBook [] := by
  let := sampleHash
  have hempty : openFlowBook sampleBook.organizationId sampleBook.bookId =
      .ok { sampleBook with ledgers := ∅ } := by
    unfold openFlowBook
    rw [demand_true _ _ (by decide)]
    rfl
  apply @BookHistory.goods sampleHash _ _ _ sampleProduct ⟨.ucum, "EA", .none⟩ (.opened hempty)
  simp only [openGoodsLedger, bind_eq_ok, demand_eq_ok, pure_eq_ok]
  exact ⟨(), by decide, (), by decide, rfl⟩

omit [FactHash] in
theorem books_sound_sample :
    letI := sampleHash
    ((applyFlowFact sampleBook sampleFact).state.ledgers.get?
      (goodsLedgerKey sampleProduct)).isSome = true ∧
    ∀ l, (applyFlowFact sampleBook sampleFact).state.ledgers.get?
      (goodsLedgerKey sampleProduct) = some l → l.Sound (goodsLedgerKey sampleProduct) := by
  let := sampleHash
  constructor
  · decide
  · intro l hl
    exact books_sound (history_sampleBook.given sampleFact) hl

omit [FactHash] in
theorem facts_conserve_sample :
    letI := sampleHash
    (applyFlowFact sampleBook sampleFact).isNew = true ∧
      (applyFlowFact sampleBook sampleFact).state.totalAt (goodsLedgerKey sampleProduct) =
        sampleBook.totalAt (goodsLedgerKey sampleProduct) + 8000 := by
  let := sampleHash
  have hnew : (applyFlowFact sampleBook sampleFact).isNew = true := by decide
  have hconserve := (facts_conserve history_sampleBook sampleFact).1 _ (Result.eq_of_isNew hnew)
  refine ⟨hnew, ?_⟩
  rw [hconserve.1]
  have hchange : sampleFact.changeAt (goodsLedgerKey sampleProduct) = 8000 := by decide
  rw [hchange]

omit [FactHash] in
theorem observations_once_sample :
    letI := sampleHash
    (Inventory.applyInventoryFact
      (Inventory.applyInventoryFact Inventory.sampleLedger Inventory.sampleArrival).state
      Inventory.sampleArrival).IsRepeat
      (Inventory.applyInventoryFact Inventory.sampleLedger Inventory.sampleArrival).state ∧
    (applyFlowFact (applyFlowFact sampleBook sampleFact).state sampleFact).IsRepeat
      (applyFlowFact sampleBook sampleFact).state := by
  let := sampleHash
  have hledger := Inventory.history_sampleLedger.given Inventory.sampleArrival
  have hbook := history_sampleBook.given sampleFact
  have honce := observations_once
  refine ⟨?_, ?_⟩
  · exact ((honce.1 _ _ hledger).2 Inventory.sampleArrival (by decide)).1
  · exact ((honce.2 _ _ hbook).2 sampleFact (by decide)).1

end DirectTrade.Flow
