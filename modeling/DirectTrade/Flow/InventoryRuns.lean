import DirectTrade.Flow.Contents
import DirectTrade.Flow.Inventory
import DirectTrade.Flow.Observed

/-!
Runs of the product ledger. Whatever facts arrive, positions hold a positive quantity
under their keys, claims are covered and rest on available stock, and serials are counted
and single; an accepted fact changes the total by what enters less what leaves and what is
fulfilled.
-/

namespace DirectTrade.Flow

open Library Outcome

/-- A quantity in base units, as far as it can be read. -/
def baseUnits (scale : ℕ) (q : Quantity) : ℤ :=
  if q.unit.system = .packaging then
    valueOf scale q.amount * valueOf goodsScale (q.unit.baseUnitsPerPack.getD "") / 1000
  else valueOf scale q.amount

theorem packsToBase_eq_ok {amount qty : ℤ} {q : Quantity} {mismatch : Issue} {path : String}
    (hamount : 0 < amount) (hvalue : valueOf goodsScale q.amount = amount)
    (h : packsToBase amount q.unit mismatch path = .ok qty) :
    qty = baseUnits goodsScale q ∧ 0 < qty := by
  simp only [packsToBase, bind_eq_ok, demand_eq_ok, require_eq_ok, orRefuse_eq_ok,
    pure_eq_ok] at h
  obtain ⟨_, ⟨hsystem, -⟩, conversion, hconversion, per, hper, _, hpos, _, hmod, rfl⟩ := h
  have hbase : baseUnits goodsScale q = amount * per / 1000 := by
    unfold baseUnits
    rw [if_pos hsystem, hconversion, hvalue, Option.getD_some, valueOf_of_parse hper]
  refine ⟨hbase.symm, ?_⟩
  have hproduct : 0 < amount * per := mul_pos hamount hpos
  omega

namespace Inventory

variable [FactHash]

omit [FactHash] in
theorem toBase_eq_ok {l : InventoryLedger} {q : Quantity} {path : String} {qty : ℤ}
    (h : toBase l q path = .ok qty) : qty = baseUnits goodsScale q ∧ 0 < qty := by
  simp only [toBase, bind_eq_ok, demand_eq_ok, orRefuse_eq_ok] at h
  obtain ⟨amount, hamount, _, hpos, h⟩ := h
  have hvalue : valueOf goodsScale q.amount = amount := valueOf_of_parse hamount
  split at h
  next hucum =>
    simp only [bind_eq_ok, pure_eq_ok] at h
    obtain ⟨_, -, _, -, rfl⟩ := h
    have hbase : baseUnits goodsScale q = amount := by
      unfold baseUnits
      rw [hucum, hvalue]
      rfl
    exact ⟨hbase.symm, hpos⟩
  next => exact packsToBase_eq_ok hpos hvalue h

/-- A real position of the product, and one whose stock may be reserved. -/
def Real (p : Position) : Prop := isVirtual p.locationId = false

def Claimable (p : Position) : Prop := Real p ∧ p.status = .available

/-- What holds of a ledger between any two operations of a fact. -/
structure Kept (l : InventoryLedger) : Prop where
  contents : l.toStock.Contents positionKey Real Claimable
  serialized : l.toStock.Serialized l.tracking goodsScale
  covered : l.toStock.Covered goodsScale

variable {l next : InventoryLedger}

/-- What one reservation operation can do. -/
theorem applyReservation_spec {phase : Phase} {entry : ReservationOp × ℕ}
    (h : applyReservation phase l entry = .ok next) :
    (entry.1.kind.phase ≠ phase ∧ next = l) ∨
    (entry.1.kind.phase = phase ∧ ∃ stock, next = { l with toStock := stock } ∧
      Claimable entry.1.position ∧ 0 < baseUnits goodsScale entry.1.quantity ∧
      l.toStock.reservation inventoryMeasure l.tracking
        "a move to ~customer naming its serials, plus a release" entry.1.kind
        (positionKey entry.1.position) entry.1.position entry.1.reservationId
        (baseUnits goodsScale entry.1.quantity) entry.1.party
        (indexed "reservations" entry.2) = .ok stock) := by
  simp only [applyReservation, bind_eq_ok] at h
  obtain ⟨_, -, h⟩ := h
  split at h
  next hother =>
    simp only [pure_eq_ok] at h
    exact .inl ⟨hother, h.symm⟩
  next hphase =>
    simp only [bind_eq_ok, demand_eq_ok, pure_eq_ok] at h
    obtain ⟨_, -, qty, hqty, _, hreal, _, hstatus, stock, hstock, rfl⟩ := h
    obtain ⟨rfl, hpos⟩ := toBase_eq_ok hqty
    exact .inr ⟨not_not.mp hphase, stock, rfl, ⟨hreal, hstatus⟩, hpos, hstock⟩

/-- What one move can do: it takes from one end and gives to the other, which are not both
outside. -/
theorem applyMove_spec {entry : MoveLeg × ℕ} (h : applyMove l entry = .ok next) :
    ∃ serials mid stock, next = { l with toStock := stock } ∧
      (Real entry.1.fromPosition ∨ Real entry.1.toPosition) ∧
      0 < baseUnits goodsScale entry.1.quantity ∧
      Stock.Moves l.tracking (baseUnits goodsScale entry.1.quantity) serials ∧
      takeMove l.toStock entry.1.fromPosition (baseUnits goodsScale entry.1.quantity) serials
        (indexed "moves" entry.2) = .ok mid ∧
      giveMove mid entry.1.toPosition (baseUnits goodsScale entry.1.quantity) serials =
        .ok stock := by
  simp only [applyMove, bind_eq_ok, pure_eq_ok] at h
  obtain ⟨_, -, _, -, qty, hqty, _, hmove, serials, hserials, mid, hmid, stock, hstock, rfl⟩ := h
  obtain ⟨rfl, hpos⟩ := toBase_eq_ok hqty
  simp only [checkMove, bind_eq_ok, demand_eq_ok] at hmove
  obtain ⟨_, hreal, -⟩ := hmove
  exact ⟨serials, mid, stock, rfl, hreal, hpos, Stock.serialsOf_eq_ok hserials, hmid, hstock⟩

/-- What one end of a move adds to the total. -/
def atReal (p : Position) (qty : ℤ) : ℤ := if isVirtual p.locationId = true then 0 else qty

theorem takeMove_total {s t : Stock Position String} {p : Position} {qty : ℤ}
    {serials : List String} {path : String} (h : takeMove s p qty serials path = .ok t) :
    t.total goodsScale = s.total goodsScale - atReal p qty := by
  unfold takeMove at h
  unfold atReal
  split at h
  next hvirtual =>
    simp only [bind_eq_ok, pure_eq_ok] at h
    obtain ⟨_, -, rfl⟩ := h
    rw [if_pos hvirtual, sub_zero]
  next hreal =>
    rw [(Stock.debit_effect (by decide) h).1.total, if_neg hreal]
    omega

theorem giveMove_total {s t : Stock Position String} {p : Position} {qty : ℤ}
    {serials : List String} (h : giveMove s p qty serials = .ok t) :
    t.total goodsScale = s.total goodsScale + atReal p qty := by
  unfold giveMove at h
  unfold atReal
  split at h
  next hvirtual =>
    simp only [pure_eq_ok] at h
    rw [if_pos hvirtual, add_zero, h]
  next hreal => rw [(Stock.credit_effect (by decide) h).total, if_neg hreal]

/-- What enters the stock by a move, and what leaves it. -/
def received (leg : MoveLeg) : ℤ :=
  if isVirtual leg.fromPosition.locationId = true then baseUnits goodsScale leg.quantity else 0

def issued (leg : MoveLeg) : ℤ :=
  if isVirtual leg.toPosition.locationId = true then baseUnits goodsScale leg.quantity else 0

def fulfilled (op : ReservationOp) : ℤ :=
  if op.kind = .fulfill then baseUnits goodsScale op.quantity else 0

/-- A move between two real positions nets to zero. -/
theorem applyMove_total {entry : MoveLeg × ℕ} (h : applyMove l entry = .ok next) :
    next.toStock.total goodsScale =
      l.toStock.total goodsScale + (received entry.1 - issued entry.1) := by
  obtain ⟨serials, mid, stock, rfl, hreal, hpos, hmoves, hmid, hstock⟩ := applyMove_spec h
  show stock.total goodsScale = _
  rw [giveMove_total hstock, takeMove_total hmid]
  unfold atReal received issued
  unfold Real at hreal
  cases hfrom : isVirtual entry.1.fromPosition.locationId <;>
    cases hto : isVirtual entry.1.toPosition.locationId <;> rw [hfrom, hto] at hreal <;>
    simp at hreal ⊢
  omega

theorem applyReservation_total {phase : Phase} {entry : ReservationOp × ℕ}
    (h : applyReservation phase l entry = .ok next) :
    next.toStock.total goodsScale = l.toStock.total goodsScale +
      if phase = .settle then -fulfilled entry.1 else 0 := by
  obtain ⟨hother, rfl⟩ | ⟨hphase, stock, rfl, -, -, hop⟩ := applyReservation_spec h
  · unfold fulfilled
    cases hkind : entry.1.kind <;> rw [hkind] at hother <;> cases phase <;>
      simp [OpKind.phase] at hother ⊢
  · show stock.total goodsScale = _
    rw [(Stock.reservation_effect (by decide) hop).1.total]
    unfold fulfilled
    cases hkind : entry.1.kind <;> rw [hkind] at hphase <;> subst hphase <;>
      simp [OpKind.phase, Stock.taken]

theorem takeMove_kept {p : Position} {qty : ℤ} {serials : List String} {path : String}
    {stock : Stock Position String} (hl : Kept l)
    (hmoves : Stock.Moves l.tracking qty serials)
    (h : takeMove l.toStock p qty serials path = .ok stock) :
    Kept { l with toStock := stock } ∧ ∀ x ∈ serials, stock.serialCount x = 0 := by
  unfold takeMove at h
  split at h
  next =>
    simp only [bind_eq_ok, pure_eq_ok] at h
    obtain ⟨_, habsent, rfl⟩ := h
    exact ⟨hl, Stock.serialCount_of_absent habsent⟩
  next hreal =>
    have hp : positionKey p = positionKey p ∧ Real p := ⟨rfl, by simpa [Real] using hreal⟩
    obtain ⟨heffect, hfree⟩ := Stock.debit_effect (by decide) h
    obtain ⟨hserialized, hcount⟩ :=
      hl.serialized.debit (by decide) hmoves h
    have hleft := hfree rfl
    rw [if_pos rfl] at hleft
    refine ⟨⟨hl.contents.debit hp h, hserialized, ?_⟩, ?_⟩
    · apply hl.covered.effect heffect
      omega
    · intro x hx
      have hone := hl.serialized.single x
      have hnew := hserialized.single x
      have hpositive := List.count_pos_iff.mpr hx
      have hnonneg : 0 ≤ stock.serialCount x := Dict.total_nonneg fun _ _ => Int.natCast_nonneg _
      rw [hcount] at hnonneg ⊢
      omega

theorem giveMove_kept {p : Position} {qty : ℤ} {serials : List String}
    {stock : Stock Position String} (hl : Kept l) (hqty : 0 < qty)
    (hmoves : Stock.Moves l.tracking qty serials)
    (hnew : ∀ x ∈ serials, l.toStock.serialCount x = 0)
    (h : giveMove l.toStock p qty serials = .ok stock) : Kept { l with toStock := stock } := by
  unfold giveMove at h
  split at h
  next =>
    simp only [pure_eq_ok] at h
    subst h
    exact hl
  next hreal =>
    have hp : positionKey p = positionKey p ∧ Real p := ⟨rfl, by simpa [Real] using hreal⟩
    refine ⟨hl.contents.credit hp h, hl.serialized.credit (by decide)
      hmoves hnew h, ?_⟩
    apply hl.covered.effect (Stock.credit_effect (by decide) h)
    have := hl.covered (positionKey p)
    show 0 - qty ≤ l.toStock.quantityAt goodsScale _ - l.toStock.reserved _
    omega

theorem Kept.applyMove (hl : Kept l) {entry : MoveLeg × ℕ}
    (h : Inventory.applyMove l entry = .ok next) : Kept next := by
  obtain ⟨serials, mid, stock, rfl, -, hpos, hmoves, hmid, hstock⟩ := applyMove_spec h
  obtain ⟨htaken, hnew⟩ := takeMove_kept hl hmoves hmid
  exact giveMove_kept (l := { l with toStock := mid }) htaken hpos hmoves hnew hstock

theorem Kept.applyReservation (hl : Kept l) {phase : Phase} {entry : ReservationOp × ℕ}
    (h : Inventory.applyReservation phase l entry = .ok next) : Kept next := by
  obtain ⟨-, rfl⟩ | ⟨-, stock, rfl, hclaimable, hqty, hop⟩ := applyReservation_spec h
  · exact hl
  · have hp : positionKey entry.1.position = positionKey entry.1.position ∧
        Real entry.1.position := ⟨rfl, hclaimable.1⟩
    obtain ⟨heffect, hfree⟩ := Stock.reservation_effect (by decide) hop
    refine ⟨hl.contents.reservation hp hclaimable hqty hop,
      hl.serialized.reservation (by decide) hop, ?_⟩
    apply hl.covered.effect heffect
    have hcovered := hl.covered (positionKey entry.1.position)
    cases hkind : entry.1.kind with
    | reserve =>
      have := hfree hkind
      simp only [Stock.claimed, Stock.taken]
      omega
    | release =>
      simp only [Stock.claimed, Stock.taken]
      omega
    | fulfill =>
      simp only [Stock.claimed, Stock.taken]
      omega

omit [FactHash] in
theorem sum_zipIdx {α : Type} (w : α → ℤ) (l : List α) :
    (l.zipIdx.map fun e => w e.1).sum = (l.map w).sum := by
  have hfirst : (fun e : α × ℕ => w e.1) = w ∘ Prod.fst := rfl
  rw [hfirst, ← List.map_map, List.zipIdx_map_fst]

omit [FactHash] in
theorem sum_sub {α : Type} (v w : α → ℤ) (l : List α) :
    (l.map fun a => v a - w a).sum = (l.map v).sum - (l.map w).sum := by
  induction l with
  | nil => rfl
  | cons a rest ih =>
    simp only [List.map_cons, List.sum_cons, ih]
    omega

omit [FactHash] in
theorem sum_neg {α : Type} (w : α → ℤ) (l : List α) :
    (l.map fun a => -w a).sum = -(l.map w).sum := by
  induction l with
  | nil => rfl
  | cons a rest ih =>
    simp only [List.map_cons, List.sum_cons, ih]
    omega

/-- A ledger that only its stock tells from another. -/
def SameBut (l next : InventoryLedger) : Prop := ∃ stock, next = { l with toStock := stock }

omit [FactHash] in
theorem SameBut.trans {m : InventoryLedger} (h : SameBut l m) (h' : SameBut m next) :
    SameBut l next := by
  obtain ⟨s, rfl⟩ := h
  obtain ⟨t, rfl⟩ := h'
  exact ⟨t, rfl⟩

theorem applyMove_same {entry : MoveLeg × ℕ} (h : applyMove l entry = .ok next) :
    SameBut l next := by
  obtain ⟨serials, mid, stock, hnext, -⟩ := applyMove_spec h
  exact ⟨stock, hnext⟩

theorem applyReservation_same {phase : Phase} {entry : ReservationOp × ℕ}
    (h : applyReservation phase l entry = .ok next) : SameBut l next := by
  obtain ⟨-, rfl⟩ | ⟨-, stock, hnext, -⟩ := applyReservation_spec h
  · exact ⟨next.toStock, rfl⟩
  · exact ⟨stock, hnext⟩

/-- A phase of reservation operations, and what it fulfils. -/
theorem reservations_run {phase : Phase} {ops : List ReservationOp} (hl : Kept l)
    (h : ops.zipIdx.foldlM (applyReservation phase) l = .ok next) :
    (Kept next ∧ SameBut l next) ∧ next.toStock.total goodsScale = l.toStock.total goodsScale +
      (ops.map fun op => if phase = .settle then -fulfilled op else 0).sum := by
  rw [← sum_zipIdx]
  apply foldlM_sum (P := fun m => Kept m ∧ SameBut l m) (f := fun m : InventoryLedger =>
    m.toStock.total goodsScale) _ ⟨hl, l.toStock, rfl⟩ h
  intro entry _ u v hu hv
  exact ⟨⟨hu.1.applyReservation hv, hu.2.trans (applyReservation_same hv)⟩,
    applyReservation_total hv⟩

theorem moves_run {legs : List MoveLeg} (hl : Kept l)
    (h : legs.zipIdx.foldlM applyMove l = .ok next) :
    (Kept next ∧ SameBut l next) ∧ next.toStock.total goodsScale = l.toStock.total goodsScale +
      (legs.map fun leg => received leg - issued leg).sum := by
  rw [← sum_zipIdx]
  apply foldlM_sum (P := fun m => Kept m ∧ SameBut l m) (f := fun m : InventoryLedger =>
    m.toStock.total goodsScale) _ ⟨hl, l.toStock, rfl⟩ h
  intro entry _ u v hu hv
  exact ⟨⟨hu.1.applyMove hv, hu.2.trans (applyMove_same hv)⟩, applyMove_total hv⟩

theorem Kept.compact (hl : Kept l) {stock : Stock Position String}
    (h : l.toStock.compact inventoryMeasure = .ok stock) : Kept { l with toStock := stock } where
  contents := hl.contents.compact h
  serialized := hl.serialized.compact h
  covered := by
    intro k
    have hcovered := hl.covered k
    have heffect := Stock.compact_effect h k
    have hquantity := heffect.quantity k
    have hreserved := heffect.reserved k
    rw [if_pos rfl] at hquantity hreserved
    show stock.reserved k ≤ stock.quantityAt goodsScale k
    omega

/-- What a fact that is accepted has done. -/
structure Changed (l : InventoryLedger) (fact : InventoryFact) (next : InventoryLedger) : Prop where
  kept : Kept next
  compact : next.toStock.Compact goodsScale
  total : next.toStock.total goodsScale = l.toStock.total goodsScale +
    (fact.moves.map received).sum - (fact.moves.map issued).sum -
      (fact.reservations.map fulfilled).sum
  revision : next.revision = l.revision + 1 ∧ l.revision < maxSafeInteger
  product : next.productId = l.productId
  marked : mark l.sources fact.observation (digestOf fact.json) = .ok next.sources

theorem changeInventory_spec {fact : InventoryFact} (hl : Kept l)
    (h : changeInventory l fact = .ok next) : Changed l fact next := by
  simp only [changeInventory, bind_eq_ok, demand_eq_ok, pure_eq_ok] at h
  obtain ⟨_, hcapacity, _, -, settled, hsettled, moved, hmoved, claimed, hclaimed, stock, hstock,
    sources, hsources, rfl⟩ := h
  obtain ⟨⟨hkeptS, hsameS⟩, htotalS⟩ := reservations_run hl hsettled
  obtain ⟨⟨hkeptM, hsameM⟩, htotalM⟩ := moves_run hkeptS hmoved
  obtain ⟨⟨hkeptC, hsameC⟩, htotalC⟩ := reservations_run hkeptM hclaimed
  have hkept := hkeptC.compact hstock
  have hsame : SameBut l claimed := (hsameS.trans hsameM).trans hsameC
  refine ⟨⟨hkept.contents, hkept.serialized, hkept.covered⟩, Stock.compact_compact hstock, ?_,
    ⟨rfl, hcapacity⟩, ?_, ?_⟩
  · have hcompact := (Stock.compact_effect hstock (digestOf .null)).total
    have hsplit := sum_sub received issued fact.moves
    have hsettle := sum_neg fulfilled fact.reservations
    simp only [if_true] at htotalS
    have hclaim : (fact.reservations.map fun op =>
        if Phase.claim = .settle then -fulfilled op else 0).sum = 0 := by
      simp
    show stock.total goodsScale = _
    omega
  · obtain ⟨s, rfl⟩ := hsame
    rfl
  · obtain ⟨s, rfl⟩ := hsame
    exact hsources

/-- The ledgers that runs of facts make of opened ones, with the facts applied. -/
inductive History : InventoryLedger → List InventoryFact → Prop
  | opened {organizationId productId : String} {product : ProductAnchor} {l : InventoryLedger}
      (h : openInventoryLedger organizationId productId product = .ok l) : History l []
  | given {l : InventoryLedger} {done : List InventoryFact} (h : History l done)
      (fact : InventoryFact) : History (applyInventoryFact l fact).state
        ((applyInventoryFact l fact).noted fact done)

theorem applyInventoryFact_eq (l : InventoryLedger) (fact : InventoryFact) :
    applyInventoryFact l fact = respond l (admitInventoryFact l fact)
      (observe l.sources fact.observation (digestOf fact.json)) (changeInventory l fact) := rfl

/-- What holds of every ledger reached, with the facts applied to it. -/
structure Reached (l : InventoryLedger) (done : List InventoryFact) : Prop where
  kept : Kept l
  compact : l.toStock.Compact goodsScale
  recalls : Recalls observationWindow l.sources
    (done.map (seen InventoryFact.observation fun fact => digestOf fact.json))
  admitted : ∀ fact ∈ done, admitInventoryFact l fact = .ok ()

theorem kept_empty (l : InventoryLedger) (h : l.toStock = Stock.empty) : Kept l where
  contents := by
    rw [h]
    exact Stock.contents_empty
  serialized := by
    rw [h]
    exact Stock.serialized_empty
  covered := by
    rw [h]
    exact Stock.covered_empty

/-- A fact that was admitted still is after another was applied. -/
theorem Changed.admitted {fact other : InventoryFact} (h : Changed l fact next)
    (hadmitted : admitInventoryFact l other = .ok ()) :
    admitInventoryFact next other = .ok () := by
  simp only [admitInventoryFact, bind_eq_ok, demand_eq_ok] at hadmitted ⊢
  obtain ⟨u₁, hproduct, u₂, hobservation, u₃, htime, u₄, hrevision, hcount⟩ := hadmitted
  have hnext : next.revision ≤ maxSafeInteger := by
    have := h.revision
    omega
  exact ⟨u₁, hproduct.trans h.product.symm, u₂, hobservation, u₃, htime, u₄,
    ⟨hrevision.1, hnext⟩, hcount⟩

theorem History.reached {done : List InventoryFact} (h : History l done) : Reached l done := by
  induction h with
  | opened h =>
    simp only [openInventoryLedger, bind_eq_ok, pure_eq_ok] at h
    obtain ⟨_, -, rfl⟩ := h
    refine ⟨kept_empty _ rfl, ?_, recalls_empty, by simp⟩
    intro k p hp
    cases hp
  | @given l done h fact ih =>
    rw [applyInventoryFact_eq]
    cases respond_cases (φ := InventoryFact) l (admitInventoryFact l fact)
        (observe l.sources fact.observation (digestOf fact.json)) (changeInventory l fact) with
    | inl hnew =>
      obtain ⟨t, ht⟩ := hnew
      rw [ht]
      obtain ⟨hadmitted, hfresh, hchange⟩ := respond_eq_new ht
      have hchanged := changeInventory_spec ih.kept hchange
      refine ⟨hchanged.kept, hchanged.compact, ?_, ?_⟩
      · exact Recalls.observed InventoryFact.observation (fun f => digestOf f.json) fact
          ih.recalls hfresh hchanged.marked
      · intro other hother
        cases List.mem_cons.mp hother with
        | inl heq =>
          subst heq
          exact hchanged.admitted hadmitted
        | inr hbefore => exact hchanged.admitted (ih.admitted other hbefore)
    | inr hsame =>
      rw [hsame.1, hsame.2]
      exact ih

/-- What is promised of a ledger between facts. -/
structure Sound (l : InventoryLedger) : Prop where
  positive : ∀ k p, l.positions.get? k = some p →
    positionKey p.position = k ∧ isVirtual p.position.locationId = false ∧
      0 < valueOf goodsScale p.quantity
  covered : ∀ k, l.toStock.reserved k ≤ l.toStock.quantityAt goodsScale k
  claims : ∀ id r, l.reservations.get? id = some r →
    ∃ p, l.positions.get? r.position = some p ∧ p.position.status = .available
  serials : (l.positions.values.flatMap PositionState.serials).Nodup
  counted : l.tracking = .serial → ∀ k p, l.positions.get? k = some p →
    valueOf goodsScale p.quantity = 1000 * p.serials.length

theorem Reached.sound {done : List InventoryFact} (h : Reached l done) : Sound l where
  positive := by
    intro k p hp
    obtain ⟨hkey, hreal⟩ := h.kept.contents.named k p hp
    refine ⟨hkey, hreal, ?_⟩
    have hreserved := h.kept.contents.reserved_nonneg k
    have hcovered := h.kept.covered k
    have hquantity : l.toStock.quantityAt goodsScale k = valueOf goodsScale p.quantity :=
      Dict.share_of_get? _ hp
    have hne : valueOf goodsScale p.quantity ≠ 0 := by
      intro hzero
      have hserials : p.serials = [] := by
        by_cases htracking : l.tracking = .serial
        · have hcounted := h.kept.serialized.counted htracking k p hp
          apply List.length_eq_zero_iff.mp
          omega
        · exact h.kept.serialized.plain htracking k p hp
      exact h.compact k p hp ⟨hzero, hserials⟩
    omega
  covered := h.kept.covered
  claims := by
    intro id r hr
    obtain ⟨p, hp, -⟩ := h.kept.contents.exists_of_covered h.kept.covered hr
    obtain ⟨-, pos, hkey, -, hstatus⟩ := h.kept.contents.claims id r hr
    have hnamed := (h.kept.contents.named r.position p hp).1
    have hpos : p.position = pos := (positionKey_inj _ _).mp (hnamed.trans hkey.symm)
    refine ⟨p, hp, ?_⟩
    rw [hpos]
    exact hstatus
  serials := h.kept.serialized.nodup
  counted := h.kept.serialized.counted

omit [FactHash] in
/-- The pool that is published of a location never promises more than it holds. -/
theorem projectInventoryV1_covered (hcovered : l.toStock.Covered goodsScale) {locationId : String}
    {view : PoolView} (h : projectInventoryV1 l locationId = .ok view) :
    view.reservations.total (valueOf goodsScale) ≤ valueOf goodsScale view.onHand := by
  simp only [projectInventoryV1, bind_eq_ok, pure_eq_ok] at h
  obtain ⟨held, hheld, onHand, hwritten, rfl⟩ := h
  generalize hpositions : l.positions.entries.filter (fun e =>
    decide (e.2.position.locationId = locationId ∧ e.2.position.status = .available)) =
      positions at hheld ⊢
  have hsub : ∀ e ∈ positions, l.positions.get? e.1 = some e.2 := by
    intro e he
    rw [← hpositions] at he
    exact (Dict.mem_entries_iff _ e.1 e.2).mp (List.mem_filter.mp he).1
  have hnodup : (positions.map Prod.fst).Nodup := by
    rw [← hpositions]
    exact (List.filter_sublist.map Prod.fst).nodup l.positions.nodup
  have hvalues : positions.map (fun e => valueOf goodsScale e.2.quantity) = held := by
    have hmap : held.map id = positions.map fun e => valueOf goodsScale e.2.quantity :=
      map_of_mapM (fun e v hv => (valueOf_of_parse hv).symm) hheld
    rw [← hmap, List.map_id]
  have honHand : valueOf goodsScale onHand = held.sum :=
    valueOf_of_parse (parseDecimal_formatDecimal hwritten fun _ => rfl)
  have hquantities : (positions.map Prod.fst).map (l.toStock.quantityAt goodsScale) = held := by
    rw [← hvalues, List.map_map]
    apply List.map_congr_left
    intro e he
    exact Dict.share_of_get? _ (hsub e he)
  have hclaims := hcovered.claims_le hnodup
  rw [hquantities] at hclaims
  show ((l.reservations.filter _).mapValues Claim.quantity).total _ ≤ _
  rw [Dict.total_mapValues, Dict.total_filter_ite, honHand]
  simpa only [decide_eq_true_eq] using hclaims

/-- In every ledger that facts make of an opened one the stock is sound; a fact that is
accepted changes the total by what enters less what leaves and what is fulfilled, any other
changes nothing; and no pool published of a location promises more than it holds. -/
theorem ledgers_sound {done : List InventoryFact} (h : History l done) :
    Sound l ∧
    (∀ fact next, applyInventoryFact l fact = .ok false next →
      next.revision = l.revision + 1 ∧
      next.toStock.total goodsScale = l.toStock.total goodsScale +
        (fact.moves.map received).sum - (fact.moves.map issued).sum -
          (fact.reservations.map fulfilled).sum) ∧
    (∀ fact, (∃ next, applyInventoryFact l fact = .ok false next) ∨
      (applyInventoryFact l fact).state = l) ∧
    ∀ locationId view, projectInventoryV1 l locationId = .ok view →
      view.reservations.total (valueOf goodsScale) ≤ valueOf goodsScale view.onHand := by
  have hl := h.reached
  refine ⟨hl.sound, ?_, ?_, ?_⟩
  · intro fact next hnext
    obtain ⟨-, -, hchange⟩ := respond_eq_new hnext
    have hchanged := changeInventory_spec hl.kept hchange
    exact ⟨hchanged.revision.1, hchanged.total⟩
  · intro fact
    cases respond_cases (φ := InventoryFact) l (admitInventoryFact l fact)
        (observe l.sources fact.observation (digestOf fact.json)) (changeInventory l fact) with
    | inl hnew => exact .inl hnew
    | inr hsame => exact .inr hsame.1
  · intro locationId view hview
    exact projectInventoryV1_covered hl.kept.covered hview

/-- A ledger of a product that is counted in pieces. -/
def sampleLedger : InventoryLedger :=
  { Stock.empty with
    organizationId := "00000000-0000-4000-8000-000000000001"
    productId := "00000000-0000-4000-8000-000000000002"
    baseUnit := "EA", tracking := .none, revision := 0, sources := ∅ }

def samplePieces (amount : String) : Quantity := ⟨amount, ⟨.ucum, some "EA", none, none, none⟩⟩

/-- Eight pieces arrive from the supplier, and three of them are reserved. -/
def sampleArrival : InventoryFact where
  productId := sampleLedger.productId
  observation := ⟨"scanner", 1⟩
  occurredAt := "2026-01-02T03:04:05Z"
  expectedRevision := 0
  moves := [⟨⟨none, "~supplier", .available⟩, ⟨none, "dock", .available⟩, samplePieces "8", none,
    none, ⟨none, none⟩⟩]
  reservations := [⟨.reserve, "r-1", ⟨none, "dock", .available⟩, samplePieces "3", none⟩]

theorem history_sampleLedger : History sampleLedger [] := by
  apply @History.opened _ sampleLedger.organizationId sampleLedger.productId ⟨.ucum, "EA", .none⟩
  unfold openInventoryLedger
  rw [demand_true _ _ (by decide)]
  rfl

omit [FactHash] in
theorem ledgers_sound_sample :
    letI := sampleHash
    (applyInventoryFact sampleLedger sampleArrival).isNew = true ∧
      (applyInventoryFact sampleLedger sampleArrival).state.toStock.total goodsScale = 8000 ∧
      Sound (applyInventoryFact sampleLedger sampleArrival).state := by
  let := sampleHash
  have hnew : (applyInventoryFact sampleLedger sampleArrival).isNew = true := by decide
  obtain ⟨-, hchange, -⟩ := ledgers_sound history_sampleLedger
  have hafter := (ledgers_sound (history_sampleLedger.given sampleArrival)).1
  refine ⟨hnew, ?_, hafter⟩
  rw [(hchange sampleArrival _ (Result.eq_of_isNew hnew)).2]
  decide

end Inventory

end DirectTrade.Flow
