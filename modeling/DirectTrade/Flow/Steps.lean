import DirectTrade.Flow.Apply
import DirectTrade.Flow.InventoryRuns

/-!
What each step of a fact does to a book. A leg takes from one ledger and gives to one, a
reservation operation changes one, and closing compacts and chains those touched. Every
step keeps what is true of each ledger and moves the totals by what it states.
-/

namespace DirectTrade.Flow

open Library Outcome

variable [FactHash]

/-- The one position of an account. -/
def accountPosition (account : String) : FlowPosition :=
  ⟨none, ⟨some ⟨none, account, none⟩, none⟩, .available, none⟩

/-- A ledger stands under the key of its asset and account. -/
inductive Anchored (key : Digest) (l : FlowLedger) : Prop
  | goods (product : String) (hkey : key = goodsLedgerKey product)
      (hasset : l.asset = ⟨some product, none⟩) (hbalance : l.balance = .nonnegative)
  | money (currency account : String) (hkey : key = moneyLedgerKey currency account)
      (hasset : l.asset = ⟨none, some currency⟩) (haccount : l.account = some account)
      (htracking : l.tracking = .none)

namespace FlowLedger

/-- Positions are real, and money is in its account. -/
def Allows (l : FlowLedger) (p : FlowPosition) : Prop :=
  p.isVirtual = false ∧
    (l.asset.isMoney = true → ∀ account ∈ l.account, p = accountPosition account)

/-- Available goods may be claimed, money not. -/
def Claimable (l : FlowLedger) (p : FlowPosition) : Prop :=
  l.asset.isMoney = false ∧ p.isVirtual = false ∧ p.status = .available

/-- What holds of a ledger between any two steps of a fact. -/
structure Kept (key : Digest) (l : FlowLedger) : Prop where
  anchored : Anchored key l
  contents : l.toStock.Contents flowPositionKey l.Allows l.Claimable
  serialized : l.toStock.Serialized l.tracking l.scale
  covered : l.balance = .nonnegative → l.toStock.Covered l.scale

/-- A ledger without its stock. -/
def frame (l : FlowLedger) : FlowLedger := { l with toStock := Stock.empty }

/-- What a ledger holds in all. -/
def sum (l : FlowLedger) : ℤ := l.toStock.total l.scale

end FlowLedger

namespace FlowBook

def Kept (book : FlowBook) : Prop :=
  ∀ key l, book.ledgers.get? key = some l → l.Kept key

/-- What the ledger under a key holds. -/
def totalAt (book : FlowBook) (key : Digest) : ℤ := book.ledgers.share FlowLedger.sum key

/-- What all ledgers of an asset hold together. -/
def assetTotal (book : FlowBook) (asset : Asset) : ℤ :=
  book.ledgers.total fun l => if l.asset = asset then l.sum else 0

/-- Only the stock of ledgers under some keys may have changed. -/
structure Framed (keys : List Digest) (s t : FlowBook) : Prop where
  sources : t.sources = s.sources
  frames : ∀ k, (t.ledgers.get? k).map FlowLedger.frame = (s.ledgers.get? k).map FlowLedger.frame
  others : ∀ k, k ∉ keys → t.ledgers.get? k = s.ledgers.get? k

variable {keys : List Digest} {s t u : FlowBook}

omit [FactHash] in
theorem Framed.refl (keys : List Digest) (s : FlowBook) : Framed keys s s :=
  ⟨rfl, fun _ => rfl, fun _ _ => rfl⟩

omit [FactHash] in
theorem Framed.trans (h : Framed keys s t) (h' : Framed keys t u) : Framed keys s u where
  sources := h'.sources.trans h.sources
  frames := fun k => (h'.frames k).trans (h.frames k)
  others := fun k hk => (h'.others k hk).trans (h.others k hk)

end FlowBook

/-- What one step does: `dq` to the ledger under one key, which is of one asset. -/
structure Moved (keys : List Digest) (s t : FlowBook) (dq : Digest → ℤ) (da : Asset → ℤ) : Prop
    where
  kept : t.Kept
  framed : FlowBook.Framed keys s t
  total : t.totalAt = s.totalAt + dq
  asset : t.assetTotal = s.assetTotal + da

section Restock

variable {book t : FlowBook} {key : Digest} {l : FlowLedger} {keys : List Digest}

omit [FactHash] in
theorem onLedger_eq_ok {change : FlowLedger → Checked (Stock FlowPosition ObjectRef)}
    (h : book.onLedger key change = .ok t) : ∃ l stock, book.ledgers.get? key = some l ∧
      change l = .ok stock ∧
      t = { book with ledgers := book.ledgers.set key { l with toStock := stock } } := by
  simp only [FlowBook.onLedger, bind_eq_ok, require_eq_ok, pure_eq_ok] at h
  obtain ⟨l, hl, stock, hstock, rfl⟩ := h
  exact ⟨l, stock, hl, hstock, rfl⟩

/-- Another ledger under a key that keeps what holds. -/
theorem FlowBook.Kept.set (hbook : book.Kept) {l' : FlowLedger} (hkept : l'.Kept key) :
    FlowBook.Kept { book with ledgers := book.ledgers.set key l' } := by
  intro k m hm
  have hget : (book.ledgers.set key l').get? k = some m := hm
  rw [Dict.get?_set] at hget
  split at hget
  next hk =>
    cases hget
    rw [hk]
    exact hkept
  next => exact hbook k m hget

omit [FactHash] in
/-- It changes the totals by what it adds. -/
theorem totalAt_set (hl : book.ledgers.get? key = some l) {l' : FlowLedger} {dq : ℤ}
    (hsum : l'.sum = l.sum + dq) :
    FlowBook.totalAt { book with ledgers := book.ledgers.set key l' } =
      book.totalAt + fun k => if k = key then dq else 0 := by
  funext k
  show (book.ledgers.set key l').share FlowLedger.sum k = _
  rw [Dict.share_set, Pi.add_apply]
  split
  next hk =>
    have hold : book.totalAt k = l.sum := by
      rw [hk]
      exact Dict.share_of_get? _ hl
    rw [hold, hsum]
  next =>
    rw [add_zero]
    rfl

omit [FactHash] in
theorem assetTotal_set (hl : book.ledgers.get? key = some l) {l' : FlowLedger} {dq : ℤ}
    (hsame : l'.asset = l.asset) (hsum : l'.sum = l.sum + dq) :
    FlowBook.assetTotal { book with ledgers := book.ledgers.set key l' } =
      book.assetTotal + fun a => if a = l.asset then dq else 0 := by
  funext a
  show (book.ledgers.set key l').total (fun m => if m.asset = a then m.sum else 0) =
    book.ledgers.total (fun m => if m.asset = a then m.sum else 0) +
      if a = l.asset then dq else 0
  rw [Dict.total_set, Dict.share_of_get? _ hl, hsame, hsum]
  by_cases ha : l.asset = a
  · rw [if_pos ha, if_pos ha, if_pos ha.symm]
    omega
  · rw [if_neg ha, if_neg ha, if_neg fun h => ha h.symm]
    omega

theorem moved_of_set (hbook : book.Kept) (hl : book.ledgers.get? key = some l)
    {l' : FlowLedger} (hframe : l'.frame = l.frame) (hkept : l'.Kept key) (hkey : key ∈ keys)
    {asset : Asset} (hasset : l.asset = asset) {dq : ℤ} (hsum : l'.sum = l.sum + dq) :
    Moved keys book { book with ledgers := book.ledgers.set key l' }
      (fun k => if k = key then dq else 0) (fun a => if a = asset then dq else 0) where
  kept := hbook.set hkept
  framed := by
    refine ⟨rfl, ?_, ?_⟩
    · intro k
      show ((book.ledgers.set key l').get? k).map _ = _
      rw [Dict.get?_set]
      split
      next hk =>
        rw [hk, hl, Option.map_some, Option.map_some, hframe]
      next => rfl
    · intro k hk
      show (book.ledgers.set key l').get? k = _
      rw [Dict.get?_set, if_neg]
      intro heq
      rw [heq] at hk
      exact hk hkey
  total := totalAt_set hl hsum
  asset := by
    subst hasset
    have hsame : l'.frame.asset = l.frame.asset := congrArg FlowLedger.asset hframe
    exact assetTotal_set hl hsame hsum

theorem Moved.trans {s t u : FlowBook} {dq dq' : Digest → ℤ} {da da' : Asset → ℤ}
    (h : Moved keys s t dq da) (h' : Moved keys t u dq' da') :
    Moved keys s u (dq + dq') (da + da') where
  kept := h'.kept
  framed := h.framed.trans h'.framed
  total := by rw [h'.total, h.total, add_assoc]
  asset := by rw [h'.asset, h.asset, add_assoc]

theorem Moved.refl (hbook : book.Kept) : Moved keys book book 0 0 where
  kept := hbook
  framed := .refl keys book
  total := (add_zero _).symm
  asset := (add_zero _).symm

/-- A loop of such steps. -/
theorem Moved.run (keys : List Digest) {α : Type} {step : FlowBook → α → Checked FlowBook}
    {list : List α}
    {dq : α → Digest → ℤ} {da : α → Asset → ℤ}
    (hstep : ∀ a ∈ list, ∀ u v, u.Kept → step u a = .ok v → Moved keys u v (dq a) (da a))
    (hbook : book.Kept) (h : list.foldlM step book = .ok t) :
    Moved keys book t (list.map dq).sum (list.map da).sum := by
  induction list generalizing book with
  | nil =>
    simp only [List.foldlM_nil, pure_eq_ok] at h
    subst h
    exact .refl hbook
  | cons a rest ih =>
    rw [List.foldlM_cons, bind_eq_ok] at h
    obtain ⟨u, hu, hrest⟩ := h
    have hfirst := hstep a List.mem_cons_self book u hbook hu
    have hlater := ih (fun b hb => hstep b (List.mem_cons_of_mem a hb)) hfirst.kept hrest
    exact hfirst.trans hlater

end Restock

/-- Exactly one of product and currency. -/
def Asset.Single (a : Asset) : Prop := a.product.isNone ≠ a.currency.isNone

/-- A position outside the book, or one that a ledger of the asset allows. -/
def Placed (asset : Asset) (p : FlowPosition) : Prop :=
  p.isVirtual = false → asset.isMoney = true → ∃ account, p = accountPosition account

/-- What is checked of a leg before any change. -/
structure FlowLeg.Shaped (leg : FlowLeg) : Prop where
  asset : leg.asset.Single
  source : Placed leg.asset leg.fromPosition
  target : Placed leg.asset leg.toPosition
  real : leg.fromPosition.isVirtual = false ∨ leg.toPosition.isVirtual = false

/-- What is checked of a reservation operation before any change. -/
structure FlowReservation.Shaped (op : FlowReservation) : Prop where
  asset : op.asset.Single
  goods : op.asset.isMoney = false
  real : op.position.isVirtual = false
  available : op.position.status = .available

omit [FactHash] in
theorem checkAsset_eq_ok {asset : Asset} {path : String} {v : Unit}
    (h : checkAsset asset path = .ok v) : asset.Single := by
  simp only [checkAsset, bind_eq_ok, demand_eq_ok] at h
  obtain ⟨_, hsingle, -⟩ := h
  exact hsingle

theorem checkPosition_eq_ok {book : FlowBook} {asset : Asset} {p : FlowPosition} {path : String}
    {v : Unit} (h : checkPosition book asset p path = .ok v) : Placed asset p := by
  intro hreal hmoney
  have hvirtual : p.location.virtual = none := by
    unfold FlowPosition.isVirtual at hreal
    cases hp : p.location.virtual with
    | none => rfl
    | some w =>
      rw [hp] at hreal
      cases hreal
  simp only [checkPosition, bind_eq_ok, demand_eq_ok] at h
  obtain ⟨_, hlocation, _, -, h⟩ := h
  rw [hvirtual] at h hlocation
  simp only [bind_eq_ok, demand_eq_ok, hmoney, if_true] at h
  obtain ⟨_, -, found, -, _, hown, hplain⟩ := h
  obtain ⟨lotId, ⟨ref, virtual⟩, status, owner⟩ := p
  cases ref with
  | none => exact absurd rfl hlocation
  | some ref =>
    obtain ⟨mintedBy, root, recordId⟩ := ref
    obtain ⟨rfl, rfl⟩ := hown ⟨mintedBy, root, recordId⟩ rfl
    obtain ⟨rfl, rfl, rfl⟩ := hplain
    have hnone : virtual = none := hvirtual
    subst hnone
    exact ⟨root, rfl⟩

/-- How a quantity of an asset is counted. -/
def Asset.scale (a : Asset) : ℕ := if a.isMoney then moneyScale else goodsScale

def Asset.units (a : Asset) (q : Quantity) : ℤ := baseUnits a.scale q

omit [FactHash] in
theorem toBase_eq_ok {l : Option FlowLedger} {asset : Asset} {q : Quantity}
    {path : String} {qty : ℤ}
    (h : toBase l asset q path = .ok qty) : qty = asset.units q ∧ 0 < qty := by
  simp only [toBase, bind_eq_ok, demand_eq_ok, orRefuse_eq_ok] at h
  obtain ⟨amount, hamount, _, hpos, h⟩ := h
  have hvalue : valueOf asset.scale q.amount = amount := valueOf_of_parse hamount
  cases hcurrency : asset.currency with
  | some currency =>
    rw [hcurrency] at h
    simp only [bind_eq_ok, demand_eq_ok, pure_eq_ok] at h
    obtain ⟨_, hunit, _, -, rfl⟩ := h
    refine ⟨?_, hpos⟩
    unfold Asset.units baseUnits
    rw [hunit.1, hvalue]
    rfl
  | none =>
    have hscale : asset.scale = goodsScale := by
      unfold Asset.scale Asset.isMoney
      rw [hcurrency]
      rfl
    unfold Asset.units
    rw [hscale] at hvalue ⊢
    rw [hcurrency] at h
    simp only at h
    split at h
    next hucum =>
      simp only [bind_eq_ok, pure_eq_ok] at h
      obtain ⟨_, -, _, -, rfl⟩ := h
      refine ⟨?_, hpos⟩
      unfold baseUnits
      rw [hucum, hvalue]
      rfl
    next => exact packsToBase_eq_ok hpos hvalue h

theorem ledgerOf_eq_ok {book : FlowBook} {asset : Asset} {p : FlowPosition} {path : String}
    {found : Digest × FlowLedger} (h : ledgerOf book asset p path = .ok found) :
    found.1 = ledgerKey asset p ∧ book.ledgers.get? (ledgerKey asset p) = some found.2 := by
  simp only [ledgerOf, bind_eq_ok, require_eq_ok, pure_eq_ok] at h
  obtain ⟨l, hl, rfl⟩ := h
  exact ⟨rfl, hl⟩

/-- The ledger under the key of an asset and a position is of that asset, and allows the
position. -/
structure Holds (asset : Asset) (p : FlowPosition) (l : FlowLedger) : Prop where
  same : l.asset = asset
  allows : p.isVirtual = false → l.Allows p
  goods : asset.isMoney = false → l.balance = .nonnegative
  money : asset.isMoney = true → l.tracking = .none

omit [FactHash] in
theorem Holds.scale {asset : Asset} {p : FlowPosition} {l : FlowLedger} (h : Holds asset p l) :
    l.scale = asset.scale := by
  unfold FlowLedger.scale Asset.scale Asset.isMoney
  rw [h.same]

theorem holds_of_anchored {asset : Asset} {p : FlowPosition} {l : FlowLedger}
    (hasset : asset.Single) (hplaced : Placed asset p)
    (h : Anchored (ledgerKey asset p) l) (hreal : p.isVirtual = false) : Holds asset p l := by
  obtain ⟨product, currency⟩ := asset
  cases product with
  | some product =>
    cases currency with
    | some currency => exact absurd rfl hasset
    | none =>
      cases h with
      | goods product' hkey hl hbalance =>
        have hproduct : product = product' := (goodsLedgerKey_inj _ _).mp hkey
        subst hproduct
        refine ⟨hl, ?_, fun _ => hbalance, ?_⟩
        · intro _
          refine ⟨hreal, ?_⟩
          intro hmoney
          rw [hl] at hmoney
          cases hmoney
        · intro hmoney
          cases hmoney
      | money currency account hkey => exact absurd hkey (goodsLedgerKey_ne _ _ _)
  | none =>
    cases currency with
    | none => exact absurd rfl hasset
    | some currency =>
      obtain ⟨own, rfl⟩ := hplaced hreal rfl
      cases h with
      | goods product hkey => exact absurd hkey.symm (goodsLedgerKey_ne _ _ _)
      | money currency' account hkey hl haccount htracking =>
        obtain ⟨hcurrency, hown⟩ : currency = currency' ∧ own = account :=
          (moneyLedgerKey_inj _ _ _ _).mp hkey
        subst hcurrency
        subst hown
        refine ⟨hl, ?_, ?_, fun _ => htracking⟩
        · intro _
          refine ⟨rfl, ?_⟩
          intro _ account haccount'
          rw [haccount] at haccount'
          cases haccount'
          rfl
        · intro hgoods
          cases hgoods

/-- What a fulfilment takes from the ledger under a key, and from an asset. -/
def FlowReservation.fulfilled (op : FlowReservation) : ℤ :=
  if op.kind = .fulfill then op.asset.units op.quantity else 0

def FlowReservation.at (op : FlowReservation) (key : Digest) : ℤ :=
  if key = ledgerKey op.asset op.position then op.fulfilled else 0

section Steps

variable {book t : FlowBook} {keys : List Digest}

/-- Claims are raised and settled only on goods. -/
theorem Kept.reservation {key : Digest} {l : FlowLedger} {op : FlowReservation}
    {stock : Stock FlowPosition ObjectRef} {serialized path : String} (hl : l.Kept key)
    (hholds : Holds op.asset op.position l) (hop : op.Shaped)
    (hqty : 0 < op.asset.units op.quantity)
    (h : l.toStock.reservation goodsMeasure l.tracking serialized op.kind
      (flowPositionKey op.position) op.position op.reservationId (op.asset.units op.quantity)
      op.party path = .ok stock) :
    ({ l with toStock := stock } : FlowLedger).Kept key ∧
      ({ l with toStock := stock } : FlowLedger).sum =
        l.sum + Stock.taken op.kind (op.asset.units op.quantity) := by
  have hscale : l.scale = goodsScale := by
    rw [hholds.scale]
    unfold Asset.scale
    rw [hop.goods]
    rfl
  have hgoods : l.asset.isMoney = false := by
    rw [hholds.same]
    exact hop.goods
  have hclaimable : l.Claimable op.position := ⟨hgoods, hop.real, hop.available⟩
  have hdigits : goodsScale ≤ 12 := by decide
  obtain ⟨heffect, hfree⟩ := Stock.reservation_effect hdigits h
  have hcovered := hl.covered (hholds.goods hop.goods)
  rw [hscale] at hcovered
  refine ⟨⟨?_, ?_, ?_, ?_⟩, ?_⟩
  · cases hl.anchored with
    | goods product hkey hasset hbalance => exact .goods product hkey hasset hbalance
    | money currency account hkey hasset haccount htracking =>
      exact .money currency account hkey hasset haccount htracking
  · exact hl.contents.reservation ⟨rfl, hholds.allows hop.real⟩ hclaimable hqty h
  · have hserialized := hl.serialized
    show Stock.Serialized l.tracking l.scale stock
    rw [hscale] at hserialized ⊢
    exact hserialized.reservation (by decide) h
  · intro _
    show stock.Covered l.scale
    rw [hscale]
    apply hcovered.effect heffect
    have hat := hcovered (flowPositionKey op.position)
    cases hkind : op.kind with
    | reserve =>
      have := hfree hkind
      simp only [Stock.claimed, Stock.taken]
      omega
    | release =>
      simp only [Stock.claimed, Stock.taken]
      omega
    | fulfill =>
      simp only [Stock.claimed, Stock.taken]
      omega
  · show stock.total l.scale = l.toStock.total l.scale + _
    rw [hscale]
    exact heffect.total

theorem applyReservation_moved {phase : Phase} {entry : FlowReservation × ℕ} (hbook : book.Kept)
    (hop : entry.1.Shaped) (hkey : ledgerKey entry.1.asset entry.1.position ∈ keys)
    (h : applyReservation phase book entry = .ok t) :
    Moved keys book t (fun k => if phase = .settle then -entry.1.at k else 0)
      (fun a => if phase = .settle ∧ a = entry.1.asset then -entry.1.fulfilled else 0) := by
  simp only [applyReservation] at h
  split at h
  next hother =>
    simp only [pure_eq_ok] at h
    subst h
    have hnone : phase = .settle → entry.1.fulfilled = 0 := by
      intro hsettle
      unfold FlowReservation.fulfilled
      rw [if_neg]
      intro hkind
      rw [hkind, hsettle] at hother
      exact hother rfl
    have htotal : (fun k => if phase = .settle then -entry.1.at k else 0) = (0 : Digest → ℤ) := by
      funext k
      unfold FlowReservation.at
      split
      next hsettle => simp [hnone hsettle]
      next => rfl
    have hassets : (fun a => if phase = .settle ∧ a = entry.1.asset then -entry.1.fulfilled
        else 0) = (0 : Asset → ℤ) := by
      funext a
      split
      next hsettle => simp [hnone hsettle.1]
      next => rfl
    rw [htotal, hassets]
    exact .refl hbook
  next hphase =>
    have hphase : entry.1.kind.phase = phase := not_not.mp hphase
    simp only [bind_eq_ok] at h
    obtain ⟨found, hfound, qty, hqty, h⟩ := h
    obtain ⟨rfl, hpos⟩ := toBase_eq_ok hqty
    rw [(ledgerOf_eq_ok hfound).1] at h
    obtain ⟨l, stock, hl, hstock, rfl⟩ := onLedger_eq_ok h
    have hholds := holds_of_anchored hop.asset (fun _ hmoney => by
      rw [hop.goods] at hmoney
      cases hmoney) (hbook _ _ hl).anchored hop.real
    obtain ⟨hkept, hsum⟩ := Kept.reservation (hbook _ _ hl) hholds hop hpos hstock
    have hframe : ({ l with toStock := stock } : FlowLedger).frame = l.frame := rfl
    have hmoved := moved_of_set hbook hl hframe hkept hkey hholds.same hsum
    have htaken : Stock.taken entry.1.kind (entry.1.asset.units entry.1.quantity) =
        if phase = .settle then -entry.1.fulfilled else 0 := by
      subst hphase
      unfold FlowReservation.fulfilled
      cases entry.1.kind <;> rfl
    rw [htaken] at hmoved
    have htotal : (fun k => if k = ledgerKey entry.1.asset entry.1.position then
        (if phase = .settle then -entry.1.fulfilled else 0) else 0) =
        fun k => if phase = .settle then -entry.1.at k else 0 := by
      funext k
      unfold FlowReservation.at
      split <;> split <;> simp
    have hassets : (fun a => if a = entry.1.asset then
        (if phase = .settle then -entry.1.fulfilled else 0) else 0) =
        fun a => if phase = .settle ∧ a = entry.1.asset then -entry.1.fulfilled else 0 := by
      funext a
      by_cases hsettle : phase = .settle <;> by_cases ha : a = entry.1.asset <;>
        simp [hsettle, ha]
    rw [htotal, hassets] at hmoved
    exact hmoved

/-- What a leg takes from the ledger under a key, and what it gives to it. -/
def FlowLeg.outOf (leg : FlowLeg) (key : Digest) : ℤ :=
  if leg.fromPosition.isVirtual = false ∧ key = ledgerKey leg.asset leg.fromPosition then
    leg.asset.units leg.quantity else 0

def FlowLeg.into (leg : FlowLeg) (key : Digest) : ℤ :=
  if leg.toPosition.isVirtual = false ∧ key = ledgerKey leg.asset leg.toPosition then
    leg.asset.units leg.quantity else 0

/-- What enters the book by a leg, and what leaves it. -/
def FlowLeg.received (leg : FlowLeg) : ℤ :=
  if leg.fromPosition.isVirtual = true then leg.asset.units leg.quantity else 0

def FlowLeg.issued (leg : FlowLeg) : ℤ :=
  if leg.toPosition.isVirtual = true then leg.asset.units leg.quantity else 0

/-- What one end of a leg puts into an asset. -/
def endOf (p : FlowPosition) (asset : Asset) (qty : ℤ) (a : Asset) : ℤ :=
  if p.isVirtual = false ∧ a = asset then qty else 0

theorem legLedger_cases {asset : Asset} {p : FlowPosition} {path : String}
    {end_ : Option (Digest × FlowLedger)} (h : legLedger book asset p path = .ok end_) :
    (p.isVirtual = true ∧ end_ = none) ∨
    (p.isVirtual = false ∧ ∃ l, end_ = some (ledgerKey asset p, l) ∧
      book.ledgers.get? (ledgerKey asset p) = some l) := by
  unfold legLedger at h
  split at h
  next hvirtual =>
    simp only [pure_eq_ok] at h
    exact .inl ⟨hvirtual, h.symm⟩
  next hreal =>
    simp only [bind_eq_ok, pure_eq_ok] at h
    obtain ⟨found, hfound, rfl⟩ := h
    obtain ⟨hkey, hl⟩ := ledgerOf_eq_ok hfound
    obtain ⟨k, l⟩ := found
    have hk : k = ledgerKey asset p := hkey
    subst hk
    exact .inr ⟨by simpa using hreal, l, rfl, hl⟩

theorem Anchored.restock {key : Digest} {l : FlowLedger} (h : Anchored key l)
    (stock : Stock FlowPosition ObjectRef) : Anchored key { l with toStock := stock } := by
  cases h with
  | goods product hkey hasset hbalance => exact .goods product hkey hasset hbalance
  | money currency account hkey hasset haccount htracking =>
    exact .money currency account hkey hasset haccount htracking

/-- Money is never claimed. -/
theorem FlowLedger.Kept.unclaimed {key : Digest} {l : FlowLedger} (hl : l.Kept key)
    (hmoney : l.asset.isMoney = true) (k : Digest) : l.toStock.reserved k = 0 := by
  apply Dict.total_eq_zero
  intro r hr
  obtain ⟨id, hid⟩ := (Dict.mem_values_iff _ _).mp hr
  obtain ⟨-, pos, -, hgoods, -⟩ := hl.contents.claims id r hid
  rw [hmoney] at hgoods
  cases hgoods

theorem FlowLedger.Kept.debit {key : Digest} {l : FlowLedger} {p : FlowPosition} {asset : Asset}
    {qty : ℤ} {serials : List String} {free path : String}
    {stock : Stock FlowPosition ObjectRef} (hl : l.Kept key) (hholds : Holds asset p l)
    (hreal : p.isVirtual = false) (hmoves : Stock.Moves l.tracking qty serials)
    (h : l.toStock.debit ⟨l.scale, true⟩ (flowPositionKey p) p qty serials
      (decide (l.balance = .nonnegative)) (!asset.isMoney) free path = .ok stock) :
    ({ l with toStock := stock } : FlowLedger).Kept key ∧
      ({ l with toStock := stock } : FlowLedger).sum = l.sum - qty ∧
      ∀ x, stock.serialCount x = l.toStock.serialCount x - serials.count x := by
  have hscale : l.scale ≤ 12 := by
    unfold FlowLedger.scale
    split <;> decide
  obtain ⟨heffect, hfree⟩ := Stock.debit_effect hscale h
  obtain ⟨hserialized, hcount⟩ := hl.serialized.debit hscale hmoves h
  refine ⟨⟨hl.anchored.restock stock, hl.contents.debit ⟨rfl, hholds.allows hreal⟩ h,
    hserialized, ?_⟩, ?_, hcount⟩
  · intro hbalance
    apply (hl.covered hbalance).effect heffect
    have hleft := hfree (decide_eq_true hbalance)
    cases hmoney : asset.isMoney with
    | false =>
      rw [hmoney] at hleft
      simp only [Bool.not_false, if_true] at hleft
      omega
    | true =>
      rw [hmoney] at hleft
      have hnone := hl.unclaimed (by rw [hholds.same]; exact hmoney) (flowPositionKey p)
      simp only [Bool.not_true, Bool.false_eq_true, if_false] at hleft
      omega
  · show stock.total l.scale = l.toStock.total l.scale - qty
    rw [heffect.total]
    omega

theorem FlowLedger.Kept.credit {key : Digest} {l : FlowLedger} {p : FlowPosition} {asset : Asset}
    {qty : ℤ} {serials : List String} {stock : Stock FlowPosition ObjectRef} (hl : l.Kept key)
    (hholds : Holds asset p l) (hreal : p.isVirtual = false) (hqty : 0 < qty)
    (hmoves : Stock.Moves l.tracking qty serials)
    (hnew : ∀ x ∈ serials, l.toStock.serialCount x = 0)
    (h : l.toStock.credit ⟨l.scale, true⟩ (flowPositionKey p) p qty serials = .ok stock) :
    ({ l with toStock := stock } : FlowLedger).Kept key ∧
      ({ l with toStock := stock } : FlowLedger).sum = l.sum + qty := by
  have hscale : l.scale ≤ 12 := by
    unfold FlowLedger.scale
    split <;> decide
  have heffect := Stock.credit_effect hscale h
  refine ⟨⟨hl.anchored.restock stock, hl.contents.credit ⟨rfl, hholds.allows hreal⟩ h,
    hl.serialized.credit hscale hmoves hnew h, ?_⟩, ?_⟩
  · intro hbalance
    apply (hl.covered hbalance).effect heffect
    have := hl.covered hbalance (flowPositionKey p)
    omega
  · exact heffect.total

/-- The ledger at a real end of a leg holds its asset. -/
theorem holds_at {asset : Asset} {p : FlowPosition} {l : FlowLedger} (hbook : book.Kept)
    (hasset : asset.Single) (hplaced : Placed asset p) (hreal : p.isVirtual = false)
    (hl : book.ledgers.get? (ledgerKey asset p) = some l) : Holds asset p l :=
  holds_of_anchored hasset hplaced (hbook _ l hl).anchored hreal

/-- Goods are kept in one ledger wherever they are. -/
theorem ledgerKey_goods {asset : Asset} (hasset : asset.Single) (hgoods : asset.isMoney = false)
    (p q : FlowPosition) : ledgerKey asset p = ledgerKey asset q := by
  obtain ⟨product, currency⟩ := asset
  cases product with
  | some product => rfl
  | none =>
    cases currency with
    | none => exact absurd rfl hasset
    | some currency => cases hgoods

/-- What a leg is applied to: the ledgers of its real ends, and one of them to count by. -/
structure Ends (book : FlowBook) (leg : FlowLeg) (source target : Option (Digest × FlowLedger))
    (anchor : FlowLedger) : Prop where
  source : (leg.fromPosition.isVirtual = true ∧ source = none) ∨
    (leg.fromPosition.isVirtual = false ∧ 
      source = some (ledgerKey leg.asset leg.fromPosition, anchor) ∧
      book.ledgers.get? (ledgerKey leg.asset leg.fromPosition) = some anchor)
  target : (leg.toPosition.isVirtual = true ∧ target = none) ∨
    (leg.toPosition.isVirtual = false ∧
      ∃ l, target = some (ledgerKey leg.asset leg.toPosition, l) ∧
        book.ledgers.get? (ledgerKey leg.asset leg.toPosition) = some l)
  outside : leg.fromPosition.isVirtual = true →
    book.ledgers.get? (ledgerKey leg.asset leg.toPosition) = some anchor
  scale : anchor.scale = leg.asset.scale
  money : leg.asset.isMoney = true → anchor.tracking = .none

/-- The ledger that a leg gives to tracks as the one it is counted by, and knows none of the
serials. -/
def Receives (book : FlowBook) (leg : FlowLeg) (anchor : FlowLedger) (serials : List String) :
    Prop :=
  leg.toPosition.isVirtual = false → ∀ l,
    book.ledgers.get? (ledgerKey leg.asset leg.toPosition) = some l →
      l.tracking = anchor.tracking ∧ ∀ x ∈ serials, l.toStock.serialCount x = 0

variable {leg : FlowLeg} {source target : Option (Digest × FlowLedger)} {anchor : FlowLedger}
  {serials : List String} {path : String}

theorem takeLeg_moved (hbook : book.Kept) (hleg : leg.Shaped)
    (hends : Ends book leg source target anchor)
    (hmoves : Stock.Moves anchor.tracking (leg.asset.units leg.quantity) serials)
    (hkey : leg.fromPosition.isVirtual = false → ledgerKey leg.asset leg.fromPosition ∈ keys)
    (h : takeLeg book leg anchor (leg.asset.units leg.quantity) serials path source = .ok t) :
    Moved keys book t (fun k => -leg.outOf k)
      (endOf leg.fromPosition leg.asset (-leg.asset.units leg.quantity)) ∧
      Receives t leg anchor serials := by
  cases hends.source with
  | inl hvirtual =>
    obtain ⟨hvirtual, rfl⟩ := hvirtual
    simp only [takeLeg, bind_eq_ok, pure_eq_ok] at h
    obtain ⟨_, habsent, rfl⟩ := h
    have htotal : (fun k => -leg.outOf k) = (0 : Digest → ℤ) := by
      funext k
      unfold FlowLeg.outOf
      rw [if_neg (by simp [hvirtual])]
      rfl
    have hassets : endOf leg.fromPosition leg.asset (-leg.asset.units leg.quantity) =
        (0 : Asset → ℤ) := by
      funext a
      unfold endOf
      rw [if_neg (by simp [hvirtual])]
      rfl
    rw [htotal, hassets]
    refine ⟨.refl hbook, ?_⟩
    intro _ l hl
    rw [hends.outside hvirtual] at hl
    cases hl
    exact ⟨rfl, Stock.serialCount_of_absent habsent⟩
  | inr hreal =>
    obtain ⟨hreal, rfl, hanchor⟩ := hreal
    have hholds := holds_at hbook hleg.asset hleg.source hreal hanchor
    simp only [takeLeg] at h
    obtain ⟨l, stock, hl, hstock, rfl⟩ := onLedger_eq_ok h
    rw [hanchor] at hl
    cases hl
    obtain ⟨hkept, hsum, hcount⟩ := (hbook _ _ hanchor).debit hholds hreal hmoves hstock
    have hframe : ({ anchor with toStock := stock } : FlowLedger).frame = anchor.frame := rfl
    have hmoved := moved_of_set hbook hanchor hframe hkept (hkey hreal) hholds.same hsum
    have htotal : (fun k => if k = ledgerKey leg.asset leg.fromPosition then
        -leg.asset.units leg.quantity else 0) = fun k => -leg.outOf k := by
      funext k
      unfold FlowLeg.outOf
      by_cases hk : k = ledgerKey leg.asset leg.fromPosition <;> simp [hk, hreal]
    have hassets : (fun a => if a = leg.asset then -leg.asset.units leg.quantity else 0) =
        endOf leg.fromPosition leg.asset (-leg.asset.units leg.quantity) := by
      funext a
      unfold endOf
      by_cases ha : a = leg.asset <;> simp [ha, hreal]
    rw [htotal, hassets] at hmoved
    refine ⟨hmoved, ?_⟩
    intro htarget m hm
    cases hmoney : leg.asset.isMoney with
    | true =>
      have hm' := holds_at hmoved.kept hleg.asset hleg.target htarget hm
      have hnone := hends.money hmoney
      refine ⟨(hm'.money hmoney).trans hnone.symm, ?_⟩
      rw [hmoves.plain (by rw [hnone]; decide)]
      simp
    | false =>
      -- the goods stay in the ledger that they were taken from
      rw [← ledgerKey_goods hleg.asset hmoney leg.fromPosition leg.toPosition] at hm
      have hself := Dict.get?_set_self book.ledgers (ledgerKey leg.asset leg.fromPosition)
        { anchor with toStock := stock }
      have hsame : some ({ anchor with toStock := stock } : FlowLedger) = some m :=
        hself.symm.trans hm
      cases hsame
      refine ⟨rfl, ?_⟩
      intro x hx
      have hserialized := hkept.serialized.single x
      have hbefore := (hbook _ _ hanchor).serialized.single x
      have hone := List.nodup_iff_count_le_one.mp hmoves.distinct x
      have hpositive := List.count_pos_iff.mpr hx
      have hnonneg : 0 ≤ stock.serialCount x :=
        Dict.total_nonneg fun _ _ => Int.natCast_nonneg _
      have hafter := hcount x
      show stock.serialCount x = 0
      omega

theorem giveLeg_moved (hbook : book.Kept) (hleg : leg.Shaped)
    (htarget : (leg.toPosition.isVirtual = true ∧ target = none) ∨
      (leg.toPosition.isVirtual = false ∧
        ∃ l, target = some (ledgerKey leg.asset leg.toPosition, l)))
    (hscale : anchor.scale = leg.asset.scale) (hqty : 0 < leg.asset.units leg.quantity)
    (hmoves : Stock.Moves anchor.tracking (leg.asset.units leg.quantity) serials)
    (hreceives : Receives book leg anchor serials)
    (hkey : leg.toPosition.isVirtual = false → ledgerKey leg.asset leg.toPosition ∈ keys)
    (h : giveLeg book leg anchor (leg.asset.units leg.quantity) serials target = .ok t) :
    Moved keys book t leg.into (endOf leg.toPosition leg.asset (leg.asset.units leg.quantity)) := by
  cases htarget with
  | inl hvirtual =>
    obtain ⟨hvirtual, rfl⟩ := hvirtual
    simp only [giveLeg, pure_eq_ok] at h
    subst h
    have htotal : leg.into = (0 : Digest → ℤ) := by
      funext k
      unfold FlowLeg.into
      rw [if_neg (by simp [hvirtual])]
      rfl
    have hassets : endOf leg.toPosition leg.asset (leg.asset.units leg.quantity) =
        (0 : Asset → ℤ) := by
      funext a
      unfold endOf
      rw [if_neg (by simp [hvirtual])]
      rfl
    rw [htotal, hassets]
    exact .refl hbook
  | inr hreal =>
    obtain ⟨hreal, l₀, rfl⟩ := hreal
    simp only [giveLeg] at h
    obtain ⟨l, stock, hl, hstock, rfl⟩ := onLedger_eq_ok h
    have hholds := holds_at hbook hleg.asset hleg.target hreal hl
    obtain ⟨htracking, hnew⟩ := hreceives hreal l hl
    rw [← htracking] at hmoves
    rw [hscale, ← hholds.scale] at hstock
    obtain ⟨hkept, hsum⟩ := (hbook _ _ hl).credit hholds hreal hqty hmoves hnew hstock
    have hframe : ({ l with toStock := stock } : FlowLedger).frame = l.frame := rfl
    have hmoved := moved_of_set hbook hl hframe hkept (hkey hreal) hholds.same hsum
    have htotal : (fun k => if k = ledgerKey leg.asset leg.toPosition then
        leg.asset.units leg.quantity else 0) = leg.into := by
      funext k
      unfold FlowLeg.into
      by_cases hk : k = ledgerKey leg.asset leg.toPosition <;> simp [hk, hreal]
    have hassets : (fun a => if a = leg.asset then leg.asset.units leg.quantity else 0) =
        endOf leg.toPosition leg.asset (leg.asset.units leg.quantity) := by
      funext a
      unfold endOf
      by_cases ha : a = leg.asset <;> simp [ha, hreal]
    rw [htotal, hassets] at hmoved
    exact hmoved

/-- The keys of the ledgers at the real ends of a leg. -/
def FlowLeg.Touches (leg : FlowLeg) (keys : List Digest) : Prop :=
  (leg.fromPosition.isVirtual = false → ledgerKey leg.asset leg.fromPosition ∈ keys) ∧
    (leg.toPosition.isVirtual = false → ledgerKey leg.asset leg.toPosition ∈ keys)

theorem ends_of {anchorKey : Digest} (hbook : book.Kept) (hleg : leg.Shaped)
    (hsource : legLedger book leg.asset leg.fromPosition path = .ok source)
    (htarget : legLedger book leg.asset leg.toPosition path = .ok target)
    (hanchor : source.or target = some (anchorKey, anchor)) :
    Ends book leg source target anchor := by
  have hscale : ∀ p, Placed leg.asset p → p.isVirtual = false →
      book.ledgers.get? (ledgerKey leg.asset p) = some anchor →
      anchor.scale = leg.asset.scale ∧ (leg.asset.isMoney = true → anchor.tracking = .none) := by
    intro p hplaced hreal hl
    have hholds := holds_at hbook hleg.asset hplaced hreal hl
    exact ⟨hholds.scale, hholds.money⟩
  have hto := legLedger_cases htarget
  obtain ⟨hvirtual, rfl⟩ | ⟨hreal, l, rfl, hl⟩ := legLedger_cases hsource
  · have hmissing : leg.toPosition.isVirtual = false := by
      cases hleg.real with
      | inl hfrom =>
        rw [hvirtual] at hfrom
        cases hfrom
      | inr hreal => exact hreal
    obtain ⟨hvirtual', -⟩ | ⟨-, l, rfl, hl⟩ := hto
    · rw [hmissing] at hvirtual'
      cases hvirtual'
    · cases hanchor
      obtain ⟨hs, hm⟩ := hscale _ hleg.target hmissing hl
      exact ⟨.inl ⟨hvirtual, rfl⟩, .inr ⟨hmissing, anchor, rfl, hl⟩, fun _ => hl, hs, hm⟩
  · cases hanchor
    obtain ⟨hs, hm⟩ := hscale _ hleg.source hreal hl
    refine ⟨.inr ⟨hreal, rfl, hl⟩, hto, ?_, hs, hm⟩
    intro hvirtual
    rw [hreal] at hvirtual
    cases hvirtual

/-- A leg takes from one end what it gives to the other. -/
theorem applyLeg_moved {entry : FlowLeg × ℕ} (hbook : book.Kept) (hleg : entry.1.Shaped)
    (htouches : entry.1.Touches keys) (h : applyLeg book entry = .ok t) :
    Moved keys book t (fun k => entry.1.into k - entry.1.outOf k)
      (fun a => if a = entry.1.asset then entry.1.received - entry.1.issued else 0) := by
  simp only [applyLeg, bind_eq_ok, require_eq_ok] at h
  obtain ⟨source, hsource, target, htarget, ⟨anchorKey, anchor⟩, hanchor, qty, hqty, serials,
    hserials, taken, htaken, hgiven⟩ := h
  obtain ⟨rfl, hpos⟩ := toBase_eq_ok hqty
  have hends := ends_of hbook hleg hsource htarget hanchor
  have hmoves := Stock.serialsOf_eq_ok hserials
  obtain ⟨hfirst, hreceives⟩ := takeLeg_moved hbook hleg hends hmoves htouches.1 htaken
  have hend : (entry.1.toPosition.isVirtual = true ∧ target = none) ∨
      (entry.1.toPosition.isVirtual = false ∧
        ∃ l, target = some (ledgerKey entry.1.asset entry.1.toPosition, l)) := by
    obtain hvirtual | ⟨hreal, l, hl, -⟩ := hends.target
    · exact .inl hvirtual
    · exact .inr ⟨hreal, l, hl⟩
  have hsecond := giveLeg_moved hfirst.kept hleg hend hends.scale hpos hmoves hreceives
    htouches.2 hgiven
  have hboth := hfirst.trans hsecond
  have htotal : (fun k => -entry.1.outOf k) + entry.1.into =
      fun k => entry.1.into k - entry.1.outOf k := by
    funext k
    show -entry.1.outOf k + entry.1.into k = _
    omega
  have hassets : endOf entry.1.fromPosition entry.1.asset
        (-entry.1.asset.units entry.1.quantity) +
      endOf entry.1.toPosition entry.1.asset (entry.1.asset.units entry.1.quantity) =
      fun a => if a = entry.1.asset then entry.1.received - entry.1.issued else 0 := by
    funext a
    rw [Pi.add_apply]
    unfold endOf FlowLeg.received FlowLeg.issued
    by_cases ha : a = entry.1.asset
    · cases entry.1.fromPosition.isVirtual <;> cases entry.1.toPosition.isVirtual <;> simp [ha]
    · simp [ha]
  rw [htotal, hassets] at hboth
  exact hboth

end Steps

end DirectTrade.Flow
