import DirectTrade.Flow.BookRuns
import Mathlib.Algebra.BigOperators.Ring.List

/-!
The inventory view of a product's ledger. Positions that are spelled the same are summed;
the view drops nothing that is the company's own, and promises no more than it shows.
-/

namespace DirectTrade.Flow

open Library Outcome

variable [FactHash]

/-- The key that a position is projected to. -/
def spelledKey (p : PositionState FlowPosition) : Digest :=
  Inventory.positionKey (spelled p.position)

abbrev Spelled := Dict Digest (PositionState Inventory.Position)

/-- A measure of positions that spelling the same adds up. -/
def Adds (scale : ℕ) (g : PositionState Inventory.Position → ℤ)
    (f : PositionState FlowPosition → ℤ) : Prop :=
  ∀ (d d' : Spelled) p, spellPosition scale d p = .ok d' →
    ∃ q, d' = d.set (spelledKey p) q ∧ g q = d.share g (spelledKey p) + f p

variable {scale : ℕ} {d d' : Spelled} {p : PositionState FlowPosition}

/-- What spelling one position writes. -/
theorem spellPosition_eq_ok (h : spellPosition scale d p = .ok d') : ∃ q,
    d' = d.set (spelledKey p) q ∧ q.position = spelled p.position ∧
    valueOf scale q.quantity =
      d.share (fun q => valueOf scale q.quantity) (spelledKey p) + valueOf scale p.quantity ∧
    (∀ x, (q.serials.count x : ℤ) =
      d.share (fun q => (q.serials.count x : ℤ)) (spelledKey p) + p.serials.count x) ∧
    (q.serials.length : ℤ) =
      d.share (fun q => (q.serials.length : ℤ)) (spelledKey p) + p.serials.length := by
  unfold spellPosition at h
  have hkey : Inventory.positionKey (spelled p.position) = spelledKey p := rfl
  simp only [hkey] at h
  cases hget : d.get? (spelledKey p) with
  | none =>
    rw [hget] at h
    cases h
    refine ⟨_, rfl, rfl, ?_, ?_, ?_⟩
    · rw [Dict.share_of_none _ hget, zero_add]
    · intro x
      rw [Dict.share_of_none _ hget, zero_add]
    · rw [Dict.share_of_none _ hget, zero_add]
  | some same =>
    rw [hget] at h
    simp only [bind_eq_ok, pure_eq_ok] at h
    obtain ⟨before, hbefore, more, hmore, quantity, hquantity, rfl⟩ := h
    have hsorted := List.mergeSort_perm (same.serials ++ p.serials)
      (fun a b => decide (codeUnits a ≤ codeUnits b))
    refine ⟨_, rfl, rfl, ?_, ?_, ?_⟩
    · rw [Dict.share_of_get? _ hget, valueOf_of_parse hbefore, valueOf_of_parse hmore]
      exact valueOf_of_parse (parseDecimal_formatDecimal hquantity fun _ => rfl)
    · intro x
      rw [Dict.share_of_get? _ hget]
      show ((sortTexts (same.serials ++ p.serials)).count x : ℤ) = _
      unfold sortTexts
      rw [hsorted.count_eq, List.count_append]
      omega
    · rw [Dict.share_of_get? _ hget]
      show ((sortTexts (same.serials ++ p.serials)).length : ℤ) = _
      unfold sortTexts
      rw [hsorted.length_eq, List.length_append]
      omega

theorem adds_value (scale : ℕ) : Adds scale (fun q => valueOf scale q.quantity)
    (fun p => valueOf scale p.quantity) := by
  intro d d' p h
  obtain ⟨q, hq, -, hvalue, -, -⟩ := spellPosition_eq_ok h
  exact ⟨q, hq, hvalue⟩

theorem adds_count (scale : ℕ) (x : String) : Adds scale (fun q => (q.serials.count x : ℤ))
    (fun p => (p.serials.count x : ℤ)) := by
  intro d d' p h
  obtain ⟨q, hq, -, -, hcount, -⟩ := spellPosition_eq_ok h
  exact ⟨q, hq, hcount x⟩

theorem adds_length (scale : ℕ) : Adds scale (fun q => (q.serials.length : ℤ))
    (fun p => (p.serials.length : ℤ)) := by
  intro d d' p h
  obtain ⟨q, hq, -, -, -, hlength⟩ := spellPosition_eq_ok h
  exact ⟨q, hq, hlength⟩

/-- Spelling a list of positions sums such a measure at every key and in all. -/
theorem Adds.fold {g : PositionState Inventory.Position → ℤ}
    {f : PositionState FlowPosition → ℤ} (hadds : Adds scale g f)
    {list : List (PositionState FlowPosition)} (h : list.foldlM (spellPosition scale) ∅ = .ok d) :
    (∀ k, d.share g k = (list.map fun p => if spelledKey p = k then f p else 0).sum) ∧
      d.total g = (list.map f).sum := by
  apply foldlM_prefix (fun pre (d : Spelled) =>
    (∀ k, d.share g k = (pre.map fun p => if spelledKey p = k then f p else 0).sum) ∧
      d.total g = (pre.map f).sum) _ _ h
  · intro pre p d d' hd hstep
    obtain ⟨q, rfl, hq⟩ := hadds d d' p hstep
    constructor
    · intro k
      rw [Dict.share_set, List.map_append, List.sum_append, List.map_singleton,
        List.sum_singleton]
      by_cases hk : k = spelledKey p
      · rw [if_pos hk, hq, hd.1, hk, if_pos rfl]
      · rw [if_neg hk, hd.1, if_neg fun heq => hk heq.symm, add_zero]
    · rw [Dict.total_set, hd.2, hq, List.map_append, List.sum_append, List.map_singleton,
        List.sum_singleton]
      omega
  · exact ⟨fun _ => rfl, rfl⟩

/-- The keys of what was spelled. -/
theorem spelled_keys {list : List (PositionState FlowPosition)}
    (h : list.foldlM (spellPosition scale) ∅ = .ok d) :
    d.Named (fun q => Inventory.positionKey q.position) ∧
      ∀ p ∈ list, ∃ q, d.get? (spelledKey p) = some q := by
  apply foldlM_prefix (fun pre (d : Spelled) =>
    d.Named (fun q => Inventory.positionKey q.position) ∧
      ∀ p ∈ pre, ∃ q, d.get? (spelledKey p) = some q) _ _ h
  · intro pre p d d' hd hstep
    obtain ⟨q, rfl, hposition, -⟩ := spellPosition_eq_ok hstep
    have hkey : Inventory.positionKey q.position = spelledKey p := by
      rw [hposition]
      rfl
    refine ⟨hd.1.set hkey, ?_⟩
    intro p' hp'
    rw [Dict.get?_set]
    split
    · exact ⟨q, rfl⟩
    next hne =>
      cases List.mem_append.mp hp' with
      | inl hbefore => exact hd.2 p' hbefore
      | inr hlast =>
        rw [List.mem_singleton.mp hlast] at hne
        exact absurd rfl hne
  · exact ⟨Dict.named_empty _, List.forall_mem_nil _⟩

/-- The positions of a ledger that are the company's own. -/
def FlowLedger.owned (l : FlowLedger) : Dict Digest (PositionState FlowPosition) :=
  l.positions.filter fun _ p => p.position.owner = none

/-- What the view of a ledger shows. -/
structure Shows (l : FlowLedger) (view : InventoryView) : Prop where
  distinct : (view.positions.values.map PositionState.position).Nodup
  quantity : ∀ k q, view.positions.get? k = some q → valueOf l.scale q.quantity =
    (l.owned.values.map fun p =>
      if spelled p.position = q.position then valueOf l.scale p.quantity else 0).sum
  total : (view.positions.total fun q => valueOf l.scale q.quantity) =
    l.owned.total fun p => valueOf l.scale p.quantity
  claims : ∀ id r, view.reservations.get? id = some r →
    ∃ q, view.positions.get? r.position = some q
  covered : ∀ k q, view.positions.get? k = some q →
    (view.reservations.total fun r => if r.position = k then valueOf goodsScale r.quantity else 0) ≤
      valueOf l.scale q.quantity
  serials : (view.positions.values.flatMap PositionState.serials).Nodup
  counted : l.tracking = .serial → ∀ k q, view.positions.get? k = some q →
    valueOf l.scale q.quantity = 1000 * q.serials.length
  positions : ∀ k p, l.positions.get? k = some p → p.position.owner = none →
    ∃ q, view.positions.get? (spelledKey p) = some q ∧ q.position = spelled p.position
  reservations : ∀ id r p, l.reservations.get? id = some r →
    l.positions.get? r.position = some p → p.position.owner = none →
      ∃ r', view.reservations.get? id = some r' ∧ r'.position = spelledKey p ∧
        r'.quantity = r.quantity

section View

variable {l : FlowLedger} {key : Digest}

omit [FactHash] in
theorem mem_owned {k : Digest} : l.owned.get? k = some p ↔
    l.positions.get? k = some p ∧ p.position.owner = none := by
  unfold FlowLedger.owned
  rw [Dict.get?_filter, Option.filter_eq_some_iff, decide_eq_true_eq]

omit [FactHash] in
/-- What the positions under some keys hold is the sum over those positions. -/
theorem sum_owned_keys (l : FlowLedger) (c : PositionState FlowPosition → Bool) :
    (((l.owned.entries.filter fun e => c e.2).map Prod.fst).map
      (l.toStock.quantityAt l.scale)).sum =
    (l.owned.values.map fun p => if c p = true then valueOf l.scale p.quantity else 0).sum := by
  have hquantity : ∀ e ∈ l.owned.entries,
      l.toStock.quantityAt l.scale e.1 = valueOf l.scale e.2.quantity := by
    intro e he
    have howned := (Dict.mem_entries_iff _ e.1 e.2).mp he
    exact Dict.share_of_get? _ (mem_owned.mp howned).1
  unfold Dict.values
  generalize l.owned.entries = entries at hquantity ⊢
  induction entries with
  | nil => rfl
  | cons e rest ih =>
    have hrest := ih fun x hx => hquantity x (List.mem_cons_of_mem e hx)
    have he := hquantity e List.mem_cons_self
    by_cases hc : c e.2 = true
    · simp only [List.filter_cons, List.map_cons, List.sum_cons, he, hc, if_true, hrest]
    · simp only [List.filter_cons, List.map_cons, List.sum_cons, hc, Bool.false_eq_true, if_false,
        zero_add, hrest]

/-- The keys of the own positions that are spelled as one. -/
def FlowLedger.spelledAt (l : FlowLedger) (k : Digest) : List Digest :=
  (l.owned.entries.filter fun e => spelledKey e.2 = k).map Prod.fst

theorem mem_spelledAt {a k : Digest} :
    a ∈ l.spelledAt k ↔ (l.owned.get? a).map spelledKey = some k := by
  unfold FlowLedger.spelledAt
  rw [List.mem_map]
  constructor
  · intro h
    obtain ⟨e, he, rfl⟩ := h
    obtain ⟨hentry, hkey⟩ := List.mem_filter.mp he
    rw [(Dict.mem_entries_iff _ e.1 e.2).mp hentry, Option.map_some]
    exact congrArg some (of_decide_eq_true hkey)
  · intro h
    obtain ⟨p, hp, rfl⟩ := Option.map_eq_some_iff.mp h
    refine ⟨(a, p), ?_, rfl⟩
    exact List.mem_filter.mpr ⟨(Dict.mem_entries_iff _ a p).mpr hp, decide_eq_true rfl⟩

theorem nodup_spelledAt (l : FlowLedger) (k : Digest) : (l.spelledAt k).Nodup :=
  (List.filter_sublist.map Prod.fst).nodup l.owned.nodup

/-- What the view claims at a position is what the ledger claims at those spelled so. -/
theorem claims_spelledAt (k : Digest) (party : Claim ObjectRef → Option String) :
    (((l.reservations.filter fun _ r =>
        ((l.owned.mapValues spelledKey).get? r.position).isSome).mapValues fun r =>
      { position := ((l.owned.mapValues spelledKey).get? r.position).getD r.position
        quantity := r.quantity, party := party r : Claim String }).total fun r =>
      if r.position = k then valueOf goodsScale r.quantity else 0) =
    l.reservations.total fun r =>
      if r.position ∈ l.spelledAt k then valueOf goodsScale r.quantity else 0 := by
  rw [Dict.total_mapValues,
    Dict.total_filter_ite _ _ fun r : Claim ObjectRef =>
      ((l.owned.mapValues spelledKey).get? r.position).isSome]
  apply Dict.total_congr
  intro r _
  simp only [mem_spelledAt, Dict.get?_mapValues]
  cases (l.owned.get? r.position).map spelledKey with
  | none => simp
  | some k' => simp

theorem owned_serials (hl : l.Kept key) (x : String) :
    (l.owned.total fun p => (p.serials.count x : ℤ)) ≤ 1 := by
  have hle : (l.owned.total fun p => (p.serials.count x : ℤ)) ≤ l.toStock.serialCount x := by
    unfold FlowLedger.owned
    rw [Dict.total_filter_ite _ _ fun p : PositionState FlowPosition => p.position.owner = none]
    apply List.sum_le_sum
    intro p _
    split <;> omega
  have hsingle := hl.serialized.single x
  omega

theorem projectInventory2_shows {book : FlowBook} {productId : String} {view : InventoryView}
    (hbook : book.Kept) (hview : projectInventory2 book productId = .ok view) :
    ∃ l, book.ledgers.get? (goodsLedgerKey productId) = some l ∧ view.revision = l.revision ∧
      view.tracking = l.tracking ∧ Shows l view := by
  simp only [projectInventory2, bind_eq_ok, require_eq_ok, pure_eq_ok] at hview
  obtain ⟨l, hl, positions, hpositions, rfl⟩ := hview
  have hkept := hbook _ l hl
  replace hpositions : l.owned.values.foldlM (spellPosition l.scale) ∅ = .ok positions :=
    hpositions
  have hvalues := (adds_value l.scale).fold hpositions
  have hlengths := (adds_length l.scale).fold hpositions
  obtain ⟨hnamed, hpresent⟩ := spelled_keys hpositions
  have hmem : ∀ k p, l.owned.get? k = some p → p ∈ l.owned.values := fun k p hp =>
    Dict.mem_values_of_get? hp
  have hquantity : ∀ k q, positions.get? k = some q → valueOf l.scale q.quantity =
      (l.owned.values.map fun p =>
        if spelledKey p = k then valueOf l.scale p.quantity else 0).sum := by
    intro k q hq
    rw [← hvalues.1 k]
    exact (Dict.share_of_get? (fun q : PositionState Inventory.Position =>
      valueOf l.scale q.quantity) hq).symm
  refine ⟨l, hl, rfl, rfl, ?_, ?_, hvalues.2, ?_, ?_, ?_, ?_, ?_, ?_⟩
  · have hnodup := hnamed.nodup
    have hcompose : (fun q : PositionState Inventory.Position =>
        Inventory.positionKey q.position) = Inventory.positionKey ∘ PositionState.position := rfl
    rw [hcompose, ← List.map_map] at hnodup
    exact hnodup.of_map _
  · intro k q hq
    rw [hquantity k q hq]
    congr 1
    apply List.map_congr_left
    intro p _
    have hkey : spelledKey p = k ↔ spelled p.position = q.position := by
      rw [← hnamed k q hq]
      exact Inventory.positionKey_inj _ _
    simp only [hkey]
  · intro id r hr
    have hget : ((l.reservations.filter _).mapValues _).get? id = some r := hr
    rw [Dict.get?_mapValues, Dict.get?_filter] at hget
    obtain ⟨old, hold, rfl⟩ := Option.map_eq_some_iff.mp hget
    obtain ⟨-, hsome⟩ := (Option.filter_eq_some_iff ..).mp hold
    obtain ⟨k, hk⟩ := Option.isSome_iff_exists.mp hsome
    have howned := hk
    rw [Dict.get?_mapValues] at howned
    obtain ⟨p, hp, rfl⟩ := Option.map_eq_some_iff.mp howned
    obtain ⟨q, hq⟩ := hpresent p (hmem _ p hp)
    have hmoved : (l.owned.mapValues spelledKey).get? old.position = some (spelledKey p) := hk
    refine ⟨q, ?_⟩
    show positions.get? (((l.owned.mapValues spelledKey).get? old.position).getD old.position) = _
    rw [hmoved]
    exact hq
  · intro k q hq
    have hgoods : l.balance = .nonnegative := by
      cases hkept.anchored with
      | goods product _ _ hbalance => exact hbalance
      | money currency account hkey => exact absurd hkey (goodsLedgerKey_ne _ _ _)
    have hclaims := (hkept.covered hgoods).claims_le (nodup_spelledAt l k)
    have hsum := sum_owned_keys l fun p => decide (spelledKey p = k)
    simp only [decide_eq_true_eq] at hsum
    rw [hquantity k q hq, ← hsum]
    refine le_trans (le_of_eq ?_) hclaims
    exact claims_spelledAt k _
  · rw [List.nodup_iff_count_le_one]
    intro x
    have hcount := ((adds_count l.scale x).fold hpositions).2
    have howned := owned_serials hkept x
    have hcast : (((positions.values.flatMap PositionState.serials).count x : ℕ) : ℤ) =
        positions.total fun q => (q.serials.count x : ℤ) := Stock.count_serials positions x
    have htotal : (l.owned.total fun p => (p.serials.count x : ℤ)) =
        (l.owned.values.map fun p => (p.serials.count x : ℤ)).sum := rfl
    show (positions.values.flatMap PositionState.serials).count x ≤ 1
    omega
  · intro hserial k q hq
    replace hq : positions.get? k = some q := hq
    have hlength : (q.serials.length : ℤ) = (l.owned.values.map fun p =>
        if spelledKey p = k then (p.serials.length : ℤ) else 0).sum := by
      rw [← hlengths.1 k]
      exact (Dict.share_of_get? (fun q : PositionState Inventory.Position =>
        (q.serials.length : ℤ)) hq).symm
    rw [hquantity k q hq, hlength, ← List.sum_map_mul_left]
    congr 1
    apply List.map_congr_left
    intro p hp
    obtain ⟨j, hj⟩ := (Dict.mem_values_iff _ _).mp hp
    have hcounted := hkept.serialized.counted hserial j p (mem_owned.mp hj).1
    split <;> omega
  · intro k p hp howner
    obtain ⟨q, hq⟩ := hpresent p (hmem k p (mem_owned.mpr ⟨hp, howner⟩))
    refine ⟨q, hq, ?_⟩
    exact (Inventory.positionKey_inj _ _).mp (hnamed _ q hq)
  · intro id r p hr hp howner
    have howned := mem_owned.mpr ⟨hp, howner⟩
    have hmoved : (l.owned.mapValues spelledKey).get? r.position = some (spelledKey p) := by
      rw [Dict.get?_mapValues, howned]
      rfl
    have hheld : (l.reservations.filter fun _ r =>
        ((l.owned.mapValues spelledKey).get? r.position).isSome).get? id = some r := by
      rw [Dict.get?_filter, hr]
      simp [hmoved]
    refine ⟨_, (Dict.get?_mapValues _ _ id).trans (congrArg (Option.map _) hheld), ?_, ?_⟩
    · show ((l.owned.mapValues spelledKey).get? r.position).getD r.position = _
      rw [hmoved]
      rfl
    · rfl

end View

section Runs

/-- Whenever the view of a product's ledger is shown, it is of the ledger's own positions:
none dropped, those spelled the same summed, and no more claimed than is there. -/
theorem projections_sound {book : FlowBook} {done : List FlowFact} (h : BookHistory book done)
    {productId : String} {view : InventoryView}
    (hview : projectInventory2 book productId = .ok view) :
    ∃ l, book.ledgers.get? (goodsLedgerKey productId) = some l ∧ view.revision = l.revision ∧
      view.tracking = l.tracking ∧ Shows l view :=
  projectInventory2_shows h.reached.kept hview

end Runs

omit [FactHash] in
theorem projections_sound_sample :
    letI := sampleHash
    ∃ view, projectInventory2 (applyFlowFact sampleBook sampleFact).state sampleProduct =
        .ok view ∧
      ∃ l, (applyFlowFact sampleBook sampleFact).state.ledgers.get?
        (goodsLedgerKey sampleProduct) = some l ∧ Shows l view := by
  let := sampleHash
  have hok : (projectInventory2 (applyFlowFact sampleBook sampleFact).state
      sampleProduct).toBool = true := by decide
  cases hview : projectInventory2 (applyFlowFact sampleBook sampleFact).state sampleProduct with
  | error e =>
    rw [hview] at hok
    cases hok
  | ok view =>
    have hhistory := history_sampleBook.given sampleFact
    obtain ⟨l, hl, -, -, hshows⟩ := projections_sound hhistory hview
    exact ⟨view, rfl, l, hl, hshows⟩

end DirectTrade.Flow
