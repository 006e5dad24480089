import Mathlib.Algebra.BigOperators.Group.List.Basic
import DirectTrade.Near.Accounts

/-!
Lots under the calls of the contract. Each accepted call changes a lot in one of a
few ways; what is left of a lot, what contracts were promised of it and what
transformations consumed of it always add up to what it was created with.
-/

namespace DirectTrade.Near

open Library Outcome

variable {s t u : DTPContract} {env : Env} {m : Method} {id : String}

/-- What a contract takes of a lot. -/
def TradeContract.takes (c : TradeContract) (lotId : String) : ℕ :=
  if c.lotId = some lotId then c.goods.quantity.milliamount.val else 0

/-- What all contracts take of a lot. -/
def DTPContract.promised (s : DTPContract) (lotId : String) : ℕ :=
  (s.contracts.values.map fun c => c.takes lotId).sum

/-- What a list of inputs takes of a lot, each entry counted. -/
def consumedBy (inputs : List InputLotRef) (lotId : String) : ℕ :=
  (inputs.map fun input => if input.lotId = lotId then input.milliamount.val else 0).sum

/-- What a call consumes of a lot when it is accepted. -/
def Method.consumes : Method → String → ℕ
  | .transformLot inputs _, lotId => consumedBy inputs lotId
  | _, _ => 0

/-- What the accepted calls of a run consume of a lot. -/
def consumed : DTPContract → List (Env × Method) → String → ℕ
  | _, [], _ => 0
  | s, r :: rest, lotId =>
    (match execute s r.1 r.2 with
      | .ok _ => r.2.consumes lotId
      | .error _ => 0) + consumed (call s r) rest lotId

theorem Method.consumes_of_not_stocks (m : Method) (h : m.stocks = false) (id : String) :
    m.consumes id = 0 := by
  cases m <;> first | rfl | cases h

theorem promised_of_eq (h : t.contracts = s.contracts) (id : String) :
    t.promised id = s.promised id := by
  simp [DTPContract.promised, h]

theorem promised_set {cid : String} {c c' : TradeContract} (hc : s.contracts.get? cid = some c)
    (hrestated : Restated c c') (h : t.contracts = s.contracts.set cid c') (id : String) :
    t.promised id = s.promised id := by
  have htakes : c'.takes id = c.takes id := by
    rw [hrestated]
    rfl
  rw [DTPContract.promised, h, Dict.map_values_set hc htakes]
  rfl

theorem Forms.promised {offer : Offer} {c : TradeContract} (h : Forms s t env offer c)
    (hs : Filed s) (id : String) : t.promised id = s.promised id + c.takes id := by
  rw [DTPContract.promised, h.contracts, Dict.values_set_of_none (h.fresh hs)]
  simp [DTPContract.promised]

/-- Nothing of a lot is promised to a new contract or consumed. -/
structure Untaken (s t : DTPContract) (m : Method) (id : String) : Prop where
  promised : t.promised id = s.promised id
  consumes : m.consumes id = 0
  formed : ∀ cid c, t.contracts.get? cid = some c → c.lotId = some id →
    s.contracts.get? cid ≠ none

theorem Untaken.of_eq (h : t.contracts = s.contracts) (hm : m.consumes id = 0) :
    Untaken s t m id where
  promised := promised_of_eq h id
  consumes := hm
  formed := by
    intro cid c hc _
    rw [h] at hc
    simp [hc]

theorem Untaken.of_set {cid : String} {c c' : TradeContract} (hc : s.contracts.get? cid = some c)
    (hrestated : Restated c c') (h : t.contracts = s.contracts.set cid c')
    (hm : m.consumes id = 0) : Untaken s t m id where
  promised := promised_set hc hrestated h id
  consumes := hm
  formed := by
    intro i x hx _
    rw [h, Dict.get?_set] at hx
    split at hx
    next hi => simp [hi, hc]
    next => simp [hx]

theorem Forms.untaken {offer : Offer} {c : TradeContract} (h : Forms s t env offer c)
    (hs : Filed s) (hlot : c.lotId ≠ some id) (hm : m.consumes id = 0) : Untaken s t m id where
  promised := by simp [h.promised hs, TradeContract.takes, hlot]
  consumes := hm
  formed := by
    intro i x hx hbacked
    rw [h.contracts, Dict.get?_set] at hx
    split at hx
    next =>
      cases hx
      exact absurd hbacked hlot
    next => simp [hx]

/-- A lot of which `q` was taken. -/
structure Debited (lot lot' : GoodsLot) (q : ℕ) : Prop where
  rest : lot'.availableMilliamount.val + q = lot.availableMilliamount.val
  status : lot'.status = lot.status ∨ lot'.status = .fullyAllocated ∨
    lot'.status = .partiallyAllocated
  same : lot' = { lot with
    availableMilliamount := lot'.availableMilliamount, status := lot'.status
    updatedAt := lot'.updatedAt }

theorem Debited.of_le {lot : GoodsLot} {q now : U64} (h : q ≤ lot.availableMilliamount) :
    Debited lot (lot.debited (saturatingSub lot.availableMilliamount q) now) q.val where
  rest := Nat.sub_add_cancel h
  status := by
    unfold GoodsLot.debited
    split
    · exact .inr (.inl rfl)
    · exact .inr (.inr rfl)
  same := rfl

theorem Debited.trans {lot lot' lot'' : GoodsLot} {q r : ℕ} (h : Debited lot lot' q)
    (h' : Debited lot' lot'' r) : Debited lot lot'' (q + r) where
  rest := by
    have hfirst := h.rest
    have hsecond := h'.rest
    omega
  status := by
    obtain hsame | hallocated := h'.status
    · rw [hsame]
      exact h.status
    · exact .inr hallocated
  same := by
    rw [h'.same, h.same]

theorem consumedBy_cons (input : InputLotRef) (inputs : List InputLotRef) (id : String) :
    consumedBy (input :: inputs) id =
      (if input.lotId = id then input.milliamount.val else 0) + consumedBy inputs id := by
  simp [consumedBy]

theorem consumedBy_eq_zero {inputs : List InputLotRef} (h : ∀ i ∈ inputs, i.lotId ≠ id) :
    consumedBy inputs id = 0 := by
  induction inputs with
  | nil => rfl
  | cons input rest ih =>
    have hrest := ih fun i hi => h i (List.mem_cons_of_mem _ hi)
    have hinput := h input List.mem_cons_self
    simp [consumedBy_cons, hrest, hinput]

theorem debitInput_spec {input : InputLotRef} (h : debitInput env s input = .ok t) :
    ∃ lot, s.lots.get? input.lotId = some lot ∧
      input.milliamount ≤ lot.availableMilliamount ∧
      t.lots = s.lots.set input.lotId
        (lot.debited (saturatingSub lot.availableMilliamount input.milliamount) env.nowMs) := by
  simp only [debitInput, bind_eq_ok, require_eq_ok, demand_eq_ok] at h
  obtain ⟨lot, hlot, _, -, -, hle, h⟩ := h
  cases h
  exact ⟨lot, hlot, hle, rfl⟩

/-- A lot that no input names is as it was. -/
theorem debitInputs_other {inputs : List InputLotRef}
    (h : inputs.foldlM (debitInput env) s = .ok t) (hid : ∀ i ∈ inputs, i.lotId ≠ id) :
    t.lots.get? id = s.lots.get? id := by
  refine foldlM_invariant (fun u => u.lots.get? id = s.lots.get? id) _ inputs ?_ rfl h
  intro input hinput u v hu hstep
  obtain ⟨lot, -, -, hset⟩ := debitInput_spec hstep
  rw [hset, Dict.get?_set_of_ne _ _ (Ne.symm (hid input hinput)), hu]

/-- The inputs debit each lot for all of its entries together. -/
theorem debitInputs_lot {inputs : List InputLotRef} {lot : GoodsLot}
    (h : inputs.foldlM (debitInput env) s = .ok t) (hlot : s.lots.get? id = some lot) :
    ∃ lot', t.lots.get? id = some lot' ∧ Debited lot lot' (consumedBy inputs id) := by
  induction inputs generalizing s lot with
  | nil =>
    cases h
    exact ⟨lot, hlot, rfl, .inl rfl, rfl⟩
  | cons input rest ih =>
    rw [List.foldlM_cons, bind_eq_ok] at h
    obtain ⟨u, hstep, hrest⟩ := h
    obtain ⟨first, hfirst, hle, hset⟩ := debitInput_spec hstep
    by_cases hid : input.lotId = id
    · rw [hid, hlot] at hfirst
      cases hfirst
      have hu : u.lots.get? id = some (lot.debited
          (saturatingSub lot.availableMilliamount input.milliamount) env.nowMs) := by
        rw [hset, hid, Dict.get?_set_self]
      obtain ⟨lot', hlot', hdebited⟩ := ih hrest hu
      refine ⟨lot', hlot', ?_⟩
      rw [consumedBy_cons, if_pos hid]
      exact (Debited.of_le hle).trans hdebited
    · have hu : u.lots.get? id = some lot := by
        rw [hset, Dict.get?_set_of_ne _ _ (Ne.symm hid)]
        exact hlot
      obtain ⟨lot', hlot', hdebited⟩ := ih hrest hu
      refine ⟨lot', hlot', ?_⟩
      rw [consumedBy_cons, if_neg hid, zero_add]
      exact hdebited

/-- No input names a lot that does not exist. -/
theorem debitInputs_none {inputs : List InputLotRef}
    (h : inputs.foldlM (debitInput env) s = .ok t) (hlot : s.lots.get? id = none) :
    t.lots.get? id = none ∧ ∀ i ∈ inputs, i.lotId ≠ id := by
  induction inputs generalizing s with
  | nil =>
    cases h
    exact ⟨hlot, fun i hi => nomatch hi⟩
  | cons input rest ih =>
    rw [List.foldlM_cons, bind_eq_ok] at h
    obtain ⟨u, hstep, hrest⟩ := h
    obtain ⟨first, hfirst, -, hset⟩ := debitInput_spec hstep
    have hne : input.lotId ≠ id := by
      intro heq
      rw [heq, hlot] at hfirst
      cases hfirst
    have hu : u.lots.get? id = none := by
      rw [hset, Dict.get?_set_of_ne _ _ (Ne.symm hne)]
      exact hlot
    obtain ⟨hnone, hothers⟩ := ih hrest hu
    refine ⟨hnone, ?_⟩
    intro i hi
    rw [List.mem_cons] at hi
    obtain hi | hi := hi
    · rw [hi]
      exact hne
    · exact hothers i hi

/-- A lot in which only its certificates and the time of its last update differ. -/
def Noted (lot lot' : GoodsLot) : Prop :=
  lot' = { lot with lotCertifications := lot'.lotCertifications, updatedAt := lot'.updatedAt }

/-- The effect of an accepted call on a lot. -/
inductive Change (s t : DTPContract) (env : Env) (m : Method) (id : String)
    (lot lot' : GoodsLot) : Prop
  | kept (h : Noted lot lot') (huntaken : Untaken s t m id)
  | disposed (disposition : LotStatus) (hm : m = .disposeLot id disposition)
      (hbefore : lot.status = .available ∨ lot.status = .partiallyAllocated)
      (h : lot' = { lot with status := disposition, updatedAt := env.nowMs })
      (hcontracts : t.contracts = s.contracts)
  | allocated (offer : Offer) (c : TradeContract) (hforms : Forms s t env offer c)
      (hm : ∃ id arbitrator agreement, m = .acceptOffer id arbitrator agreement ∧
        s.offers.get? id = some offer)
      (hlot : c.lotId = some id) (h : Debited lot lot' c.goods.quantity.milliamount.val)
  | consumed (inputs : List InputLotRef) (output : OutputSpec)
      (hm : m = .transformLot inputs output)
      (hinput : ∃ i ∈ inputs, i.lotId = id) (h : Debited lot lot' (consumedBy inputs id))
      (hcontracts : t.contracts = s.contracts)
  | handed (ful : String) (c c' : TradeContract) (f f' : Fulfillment) (st : Settlement)
      (hconcludes : Concludes s t env ful c c' f f' st)
      (hsettling : Settling s env c m) (hm : m.stocks = false)
      (hlot : c.lotId = some id) (h : lot' = lot.transferred c env.nowMs)

theorem Noted.refl (lot : GoodsLot) : Noted lot lot := rfl

/-- A new lot does not replace one that exists. -/
theorem LotsIssued.ne_new (hs : LotsIssued s) {lot : GoodsLot} (hlot : s.lots.get? id = some lot)
    {made : String} {n : ℕ} (hn : s.idCounter.val < n) (hmade : made = "lot-" ++ toString n) :
    id ≠ made := by
  intro heq
  rw [heq, hmade, Issued.fresh hs hn] at hlot
  cases hlot

theorem Stocks.lot (h : Stocks s t env m) (hs : LotsIssued s)
    (hcontracts : t.contracts = s.contracts) {lot : GoodsLot} (hlot : s.lots.get? id = some lot) :
    ∃ lot', t.lots.get? id = some lot' ∧ Change s t env m id lot lot' := by
  have huntaken : m.consumes id = 0 → Untaken s t m id := .of_eq hcontracts
  cases h with
  | created made new n hn hmade hnew hlots =>
    refine ⟨lot, ?_, .kept (.refl lot) (huntaken rfl)⟩
    rw [hlots, Dict.get?_set_of_ne _ _ (hs.ne_new hlot hn hmade)]
    exact hlot
  | @annotated i certType issuer docHash expiresAt noted certs hnoted hlots =>
    by_cases hi : id = i
    · subst i
      rw [hlot] at hnoted
      cases hnoted
      refine ⟨_, by rw [hlots, Dict.get?_set_self], .kept ?_ (huntaken rfl)⟩
      unfold Noted
      rfl
    · refine ⟨lot, ?_, .kept (.refl lot) (huntaken rfl)⟩
      rw [hlots, Dict.get?_set_of_ne _ _ hi]
      exact hlot
  | @disposed i disposition found hfound hstatus hdisposition hlots =>
    by_cases hi : id = i
    · subst i
      rw [hlot] at hfound
      cases hfound
      exact ⟨_, by rw [hlots, Dict.get?_set_self], .disposed disposition rfl hstatus rfl hcontracts⟩
    · refine ⟨lot, ?_, .kept (.refl lot) (huntaken rfl)⟩
      rw [hlots, Dict.get?_set_of_ne _ _ hi]
      exact hlot
  | @transformed inputs output u made new n hdebits hn hmade hnew hlots =>
    obtain ⟨lot', hlot', hdebited⟩ := debitInputs_lot hdebits hlot
    have hset : t.lots.get? id = some lot' := by
      rw [hlots, Dict.get?_set_of_ne _ _ (hs.ne_new hlot hn hmade)]
      exact hlot'
    by_cases hinput : ∃ i ∈ inputs, i.lotId = id
    · exact ⟨lot', hset, .consumed inputs output rfl hinput hdebited hcontracts⟩
    · have hnone : ∀ i ∈ inputs, i.lotId ≠ id := fun i hi heq => hinput ⟨i, hi, heq⟩
      rw [debitInputs_other hdebits hnone, hlot] at hlot'
      cases hlot'
      exact ⟨lot, hset, .kept (.refl lot) (huntaken (consumedBy_eq_zero hnone))⟩

/-- Every accepted call keeps a lot, changed in one of the ways above. -/
theorem Turn.lot (h : Turn s t env m) (hs : Filed s) {lot : GoodsLot}
    (hlot : s.lots.get? id = some lot) :
    ∃ lot', t.lots.get? id = some lot' ∧ Change s t env m id lot lot' := by
  have hsame : t.lots = s.lots → Untaken s t m id →
      ∃ lot', t.lots.get? id = some lot' ∧ Change s t env m id lot lot' := by
    intro hlots huntaken
    exact ⟨lot, by rw [hlots]; exact hlot, .kept (.refl lot) huntaken⟩
  have hother : ∀ {i : String} {made : GoodsLot}, id ≠ i → t.lots = s.lots.set i made →
      Untaken s t m id → ∃ lot', t.lots.get? id = some lot' ∧ Change s t env m id lot lot' := by
    intro i made hi hset huntaken
    refine ⟨lot, ?_, .kept (.refl lot) huntaken⟩
    rw [hset, Dict.get?_set_of_ne _ _ hi]
    exact hlot
  cases h with
  | kept h how =>
    cases how with
    | quiet h hm => exact hsame h.stock (.of_eq h.contracts (m.consumes_of_not_stocks hm id))
    | stocked hstocks => exact hstocks.lot hs.lots h.contracts hlot
    | bonded _ hm hlots _ => exact hsame hlots (.of_eq h.contracts (m.consumes_of_not_stocks hm id))
  | formed offer c h hm =>
    have hconsumes : m.consumes id = 0 := by
      obtain ⟨_, _, _, hcall, -⟩ := hm
      rw [hcall]
      rfl
    have hallocated := h.allocated
    cases hbacking : c.lotId with
    | none =>
      rw [hbacking] at hallocated
      exact hsame hallocated (h.untaken hs (by simp [hbacking]) hconsumes)
    | some lid =>
      rw [hbacking] at hallocated
      obtain ⟨found, hfound, hle, hset⟩ := hallocated
      by_cases hid : id = lid
      · subst lid
        rw [hlot] at hfound
        cases hfound
        exact ⟨_, by rw [hset, Dict.get?_set_self],
          .allocated offer c h hm hbacking (.of_le hle)⟩
      · exact hother hid hset (h.untaken hs (by simp [hbacking, Ne.symm hid]) hconsumes)
  | attested ful c c' f h hbefore hafter hattested hnone hful hcounter hm =>
    exact hsame h.rest.stock
      (.of_set h.contract h.restated h.contracts (m.consumes_of_not_stocks hm id))
  | disputed ful c c' f f' h hf hfor hbefore hafter hdisputed hm =>
    exact hsame h.rest.stock
      (.of_set h.contract h.restated h.contracts (m.consumes_of_not_stocks hm id))
  | concluded ful c c' f f' st h hsettling hm =>
    have huntaken : Untaken s t m id :=
      .of_set h.contract h.restated h.contracts (m.consumes_of_not_stocks hm id)
    have hhanded := h.handed
    cases hbacking : c.lotId with
    | none =>
      rw [hbacking] at hhanded
      exact hsame hhanded huntaken
    | some lid =>
      rw [hbacking] at hhanded
      obtain ⟨found, hfound, hset⟩ := hhanded
      by_cases hid : id = lid
      · subst lid
        rw [hlot] at hfound
        cases hfound
        exact ⟨_, by rw [hset, Dict.get?_set_self],
          .handed ful c c' f f' st h hsettling hm hbacking rfl⟩
      · exact hother hid hset huntaken

/-- Of a lot that did not exist, nothing is taken; if it exists now it is new. -/
theorem Turn.newLot (h : Turn s t env m) (hs : Filed s) (hnone : s.lots.get? id = none) :
    (∀ lot, t.lots.get? id = some lot → lot.IsNew) ∧ Untaken s t m id := by
  have hmissing : t.lots.get? id = none → ∀ lot, t.lots.get? id = some lot → lot.IsNew := by
    intro hmissing lot hlot
    rw [hmissing] at hlot
    cases hlot
  have hsame : t.lots = s.lots → ∀ lot, t.lots.get? id = some lot → lot.IsNew := by
    intro hlots
    exact hmissing (by rw [hlots]; exact hnone)
  have hwritten : ∀ {i : String} {found made : GoodsLot}, s.lots.get? i = some found →
      t.lots = s.lots.set i made → ∀ lot, t.lots.get? id = some lot → lot.IsNew := by
    intro i found made hfound hset
    have hne : id ≠ i := by
      intro heq
      rw [heq, hfound] at hnone
      cases hnone
    refine hmissing ?_
    rw [hset, Dict.get?_set_of_ne _ _ hne]
    exact hnone
  have hadded : ∀ {u : DTPContract} {i : String} {made : GoodsLot}, u.lots.get? id = none →
      made.IsNew → t.lots = u.lots.set i made → ∀ lot, t.lots.get? id = some lot → lot.IsNew := by
    intro u i made hu hnew hset lot hlot
    rw [hset, Dict.get?_set] at hlot
    split at hlot
    · cases hlot
      exact hnew
    · rw [hu] at hlot
      cases hlot
  cases h with
  | kept h how =>
    cases how with
    | quiet h hm => exact ⟨hsame h.stock, .of_eq h.contracts (m.consumes_of_not_stocks hm id)⟩
    | bonded _ hm hlots _ =>
      exact ⟨hsame hlots, .of_eq h.contracts (m.consumes_of_not_stocks hm id)⟩
    | stocked hstocks =>
      cases hstocks with
      | created made new n hn hmade hnew hlots =>
        exact ⟨hadded hnone hnew hlots, .of_eq h.contracts rfl⟩
      | annotated noted certs hnoted hlots =>
        exact ⟨hwritten hnoted hlots, .of_eq h.contracts rfl⟩
      | disposed found hfound hstatus hdisposition hlots =>
        exact ⟨hwritten hfound hlots, .of_eq h.contracts rfl⟩
      | transformed u made new n hdebits hn hmade hnew hlots =>
        obtain ⟨hu, hothers⟩ := debitInputs_none hdebits hnone
        exact ⟨hadded hu hnew hlots, .of_eq h.contracts (consumedBy_eq_zero hothers)⟩
  | formed offer c h hm =>
    have hconsumes : m.consumes id = 0 := by
      obtain ⟨_, _, _, hcall, -⟩ := hm
      rw [hcall]
      rfl
    have hallocated := h.allocated
    cases hbacking : c.lotId with
    | none =>
      rw [hbacking] at hallocated
      exact ⟨hsame hallocated, h.untaken hs (by simp [hbacking]) hconsumes⟩
    | some lid =>
      rw [hbacking] at hallocated
      obtain ⟨found, hfound, -, hset⟩ := hallocated
      have hne : lid ≠ id := by
        intro heq
        rw [heq, hnone] at hfound
        cases hfound
      exact ⟨hwritten hfound hset, h.untaken hs (by simp [hbacking, hne]) hconsumes⟩
  | attested ful c c' f h hbefore hafter hattested _ hful hcounter hm =>
    exact ⟨hsame h.rest.stock,
      .of_set h.contract h.restated h.contracts (m.consumes_of_not_stocks hm id)⟩
  | disputed ful c c' f f' h hf hfor hbefore hafter hdisputed hm =>
    exact ⟨hsame h.rest.stock,
      .of_set h.contract h.restated h.contracts (m.consumes_of_not_stocks hm id)⟩
  | concluded ful c c' f f' st h hsettling hm =>
    refine ⟨?_, .of_set h.contract h.restated h.contracts (m.consumes_of_not_stocks hm id)⟩
    have hhanded := h.handed
    cases hbacking : c.lotId with
    | none =>
      rw [hbacking] at hhanded
      exact hsame hhanded
    | some lid =>
      rw [hbacking] at hhanded
      obtain ⟨found, hfound, hset⟩ := hhanded
      exact hwritten hfound hset

theorem Filed.call (hs : Filed s) (r : Env × Method) : Filed (Near.call s r) := by
  unfold Near.call
  split
  next t h => exact hs.turn (execute_turn hs.lots hs.named h)
  next => exact hs

theorem Filed.run (hs : Filed s) (requests : List (Env × Method)) :
    Filed (Near.run s requests) := by
  induction requests generalizing s with
  | nil => exact hs
  | cons r rest ih => exact ih (hs.call r)

theorem Change.total {lot lot' : GoodsLot} (h : Change s t env m id lot lot') :
    lot'.totalMilliamount = lot.totalMilliamount := by
  cases h with
  | kept h => rw [h]
  | disposed disposition hm hbefore h => rw [h]
  | allocated offer c hforms hm hlot h => rw [h.same]
  | consumed inputs output hm hinput h => rw [h.same]
  | handed ful c c' f f' st hconcludes hsettling hm hlot h => rw [h]; rfl

/-- What is left of a lot, what contracts were promised of it and what was used of it add
up to its total. -/
structure Balanced (s : DTPContract) (used : String → ℕ) : Prop where
  known : ∀ id lot, s.lots.get? id = some lot →
    lot.availableMilliamount.val + s.promised id + used id = lot.totalMilliamount.val
  unknown : ∀ id, s.lots.get? id = none → s.promised id = 0 ∧ used id = 0

theorem Balanced.new (owner : AccountId) : Balanced (.new owner) fun _ => 0 where
  known := fun _ _ h => nomatch h
  unknown := fun _ _ => ⟨rfl, rfl⟩

theorem Balanced.turn {used : String → ℕ} (hb : Balanced s used) (hs : Filed s)
    (h : Turn s t env m) : Balanced t fun id => used id + m.consumes id where
  known := by
    intro id lot' hlot'
    cases hlot : s.lots.get? id with
    | none =>
      obtain ⟨hnew, huntaken⟩ := h.newLot hs hlot
      obtain ⟨hnothing, hunused⟩ := hb.unknown id hlot
      have hfull := (hnew lot' hlot').available
      rw [hfull, huntaken.promised, huntaken.consumes, hnothing, hunused]
      omega
    | some lot =>
      obtain ⟨changed, hchanged, hchange⟩ := h.lot hs hlot
      rw [hlot', Option.some.injEq] at hchanged
      subst changed
      have hbefore := hb.known id lot hlot
      have htotal := hchange.total
      cases hchange with
      | kept hnoted huntaken =>
        have hleft : lot'.availableMilliamount = lot.availableMilliamount := by rw [hnoted]
        rw [hleft, huntaken.promised, huntaken.consumes, htotal]
        omega
      | disposed disposition hm hstatus hset hcontracts =>
        have hleft : lot'.availableMilliamount = lot.availableMilliamount := by rw [hset]
        have hconsumes : m.consumes id = 0 := by rw [hm]; rfl
        rw [hleft, promised_of_eq hcontracts, hconsumes, htotal]
        omega
      | allocated offer c hforms hm hbacking hdebited =>
        have hconsumes : m.consumes id = 0 := by
          obtain ⟨_, _, _, hcall, -⟩ := hm
          rw [hcall]
          rfl
        have htakes : c.takes id = c.goods.quantity.milliamount.val := if_pos hbacking
        have hrest := hdebited.rest
        rw [hforms.promised hs, htakes, hconsumes, htotal]
        omega
      | consumed inputs output hm hinput hdebited hcontracts =>
        have hconsumes : m.consumes id = consumedBy inputs id := by rw [hm]; rfl
        have hrest := hdebited.rest
        rw [promised_of_eq hcontracts, hconsumes, htotal]
        omega
      | handed ful c c' f f' st hconcludes hsettling hm hbacking hset =>
        have hleft : lot'.availableMilliamount = lot.availableMilliamount := by rw [hset]; rfl
        have hconsumes := m.consumes_of_not_stocks hm id
        have hpromised := promised_set hconcludes.contract hconcludes.restated
          hconcludes.contracts id
        rw [hleft, hpromised, hconsumes, htotal]
        omega
  unknown := by
    intro id hnone
    cases hlot : s.lots.get? id with
    | none =>
      obtain ⟨-, huntaken⟩ := h.newLot hs hlot
      obtain ⟨hnothing, hunused⟩ := hb.unknown id hlot
      exact ⟨by rw [huntaken.promised, hnothing], by rw [hunused, huntaken.consumes]⟩
    | some lot =>
      obtain ⟨changed, hchanged, -⟩ := h.lot hs hlot
      rw [hnone] at hchanged
      cases hchanged

theorem Balanced.run {used : String → ℕ} (hb : Balanced s used) (hs : Filed s)
    (requests : List (Env × Method)) :
    Balanced (Near.run s requests) fun id => used id + consumed s requests id := by
  induction requests generalizing s used with
  | nil => exact hb
  | cons r rest ih =>
    have hfiled := hs.call r
    cases hexecute : execute s r.1 r.2 with
    | ok t =>
      have hcall : call s r = t := by simp only [call, hexecute]
      have hstep := hb.turn hs (execute_turn hs.lots hs.named hexecute)
      rw [hcall] at hfiled
      have hrest := ih hstep hfiled
      show Balanced (Near.run (call s r) rest) _
      simpa only [hcall, consumed, hexecute, add_assoc] using hrest
    | error e =>
      have hcall : call s r = s := by simp only [call, hexecute]
      show Balanced (Near.run (call s r) rest) _
      simpa only [hcall, consumed, hexecute, zero_add] using ih hb hs

theorem Filed.total_run (hs : Filed s) (requests : List (Env × Method)) {lot : GoodsLot}
    (hlot : s.lots.get? id = some lot) : ∃ lot', (Near.run s requests).lots.get? id = some lot' ∧
      lot'.totalMilliamount = lot.totalMilliamount := by
  induction requests generalizing s lot with
  | nil => exact ⟨lot, hlot, rfl⟩
  | cons r rest ih =>
    have hstep : ∃ lot', (Near.call s r).lots.get? id = some lot' ∧
        lot'.totalMilliamount = lot.totalMilliamount := by
      unfold Near.call
      split
      next t h =>
        obtain ⟨lot', hlot', hchange⟩ := (execute_turn hs.lots hs.named h).lot hs hlot
        exact ⟨lot', hlot', hchange.total⟩
      next => exact ⟨lot, hlot, rfl⟩
    obtain ⟨lot₁, hlot₁, htotal₁⟩ := hstep
    obtain ⟨lot₂, hlot₂, htotal₂⟩ := ih (hs.call r) hlot₁
    exact ⟨lot₂, hlot₂, htotal₂.trans htotal₁⟩

/-- After any run, what is left of each lot, what all contracts take of it and what the
accepted transformations consumed of it add up to its total, which never changes. -/
theorem lots_conserved (owner : AccountId) (before after : List (Env × Method)) :
    Balanced (run (.new owner) (before ++ after)) (consumed (.new owner) (before ++ after)) ∧
      ∀ id lot, (run (.new owner) before).lots.get? id = some lot →
        ∃ lot', (run (.new owner) (before ++ after)).lots.get? id = some lot' ∧
          lot'.totalMilliamount = lot.totalMilliamount := by
  have hnew := Filed.new owner
  have hbalanced := (Balanced.new owner).run hnew (before ++ after)
  refine ⟨?_, ?_⟩
  · simpa only [zero_add] using hbalanced
  · intro id lot hlot
    have hsplit : run (.new owner) (before ++ after) = run (run (.new owner) before) after :=
      List.foldl_append
    rw [hsplit]
    exact (hnew.run before).total_run after hlot

end DirectTrade.Near
