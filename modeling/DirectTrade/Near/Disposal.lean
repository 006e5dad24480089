import DirectTrade.Near.Once
import DirectTrade.Near.Lots

/-!
Lots taken out of trade. A disposed lot stays as it is and no contract, listing,
transformation or settlement touches it, in the runs in which no call uses what the
calls do not check: the contracts that are open when a lot is disposed of, and the
status of the lot behind an accepted offer, an input or a contract settled again.
-/

namespace DirectTrade.Near

open Library Outcome

variable {s t u : DTPContract} {env : Env} {m : Method} {id : String}

def LotStatus.disposed (status : LotStatus) : Prop :=
  status = .spoiled ∨ status = .donated ∨ status = .recalled

/-- A contract that is not settled is backed by the lot. -/
def Unsettled (s : DTPContract) (id : String) : Prop :=
  ∃ cid c, s.contracts.get? cid = some c ∧ c.lotId = some id ∧ ¬ c.status.final

/-- The lot on which a call posts a listing. -/
def Method.lists : Method → Option String
  | .postListing lotId .. => lotId
  | _ => none

/-- The lots that a call transforms. -/
def Method.inputs : Method → List String
  | .transformLot inputs _ => inputs.map InputLotRef.lotId
  | _ => []

/-- A call whose guards pass although it disposes of a lot with an unsettled contract, or
trades a lot that was disposed of. -/
def TradesDisposed (s : DTPContract) (env : Env) : Method → Prop
  | .disposeLot id disposition => Unsettled s id ∧ disposition.disposed ∧
      ∃ lot, s.lots.get? id = some lot ∧ requirePartyOrAgent s env lot.owner = .ok () ∧
        (lot.status = .available ∨ lot.status = .partiallyAllocated)
  | .acceptOffer offerId _ _ => ∃ offer listing id lot, s.offers.get? offerId = some offer ∧
      (offer.status = .submitted ∨ offer.status = .shortlisted) ∧ offer.targetType = .listing ∧
      s.listings.get? offer.targetId = some listing ∧ listing.seller = env.predecessor ∧
      listing.status = .active ∧ listing.lotId = some id ∧ s.lots.get? id = some lot ∧
      offer.goods.quantity.milliamount ≤ lot.availableMilliamount ∧ lot.status.disposed
  | .transformLot inputs output => requireParty s env.predecessor = .ok () ∧
      0 < output.milliamount.val ∧ (s.catalogs.get? output.catalogId).isSome = true ∧
      (∃ u, inputs.foldlM (debitInput env) s = .ok u) ∧
      ∃ input ∈ inputs, ∃ lot, s.lots.get? input.lotId = some lot ∧ lot.status.disposed
  | m => ∃ c id lot, Settling s env c m ∧ c.status = .settled ∧ c.lotId = some id ∧
      s.lots.get? id = some lot ∧ lot.status.disposed

theorem Settling.tradesDisposed {c : TradeContract} {lot : GoodsLot} (h : Settling s env c m)
    (hsettled : c.status = .settled) (hlotId : c.lotId = some id) (hlot : s.lots.get? id = some lot)
    (hdisposed : lot.status.disposed) : TradesDisposed s env m := by
  cases m with
  | buyerAttestDelivery ful notes deductions =>
    exact ⟨c, id, lot, h, hsettled, hlotId, hlot, hdisposed⟩
  | triggerAutoSettlement ful => exact ⟨c, id, lot, h, hsettled, hlotId, hlot, hdisposed⟩
  | resolveDispute contractId resolution deductions =>
    exact ⟨c, id, lot, h, hsettled, hlotId, hlot, hdisposed⟩
  | _ => exact False.elim h

theorem postListing_guards {lotId : Option String} {goods : GoodsSpec} {delivery : DeliverySpec}
    {pricing : SellerPricing} {finance : Option FinanceTerms} {freight : Option FreightTerms}
    {certifications : List CertificationRef} {availableFrom expiresAt : U64} {new : String}
    (h : postListing s env lotId goods delivery pricing finance freight certifications
      availableFrom expiresAt = .ok (t, new)) (hid : lotId = some id) :
    ∃ lot, s.lots.get? id = some lot ∧
      (lot.status = .available ∨ lot.status = .partiallyAllocated) := by
  subst hid
  simp only [postListing, checkListedLot, bind_eq_ok, require_eq_ok, demand_eq_ok] at h
  obtain ⟨_, -, _, -, _, -, _, ⟨lot, hlot, _, -, hstatus⟩, -⟩ := h
  exact ⟨lot, hlot, hstatus⟩

theorem disposeLot_guards {disposition : LotStatus}
    (h : disposeLot s env id disposition = .ok t) : disposition.disposed ∧
      ∃ lot, s.lots.get? id = some lot ∧ requirePartyOrAgent s env lot.owner = .ok () ∧
        (lot.status = .available ∨ lot.status = .partiallyAllocated) := by
  simp only [disposeLot, bind_eq_ok, require_eq_ok, demand_eq_ok] at h
  obtain ⟨lot, hlot, _, hcaller, _, hdisposition, _, hstatus, -⟩ := h
  exact ⟨hdisposition, lot, hlot, hcaller, hstatus⟩

theorem acceptOffer_guards {offerId new : String} {arbitrator : Option AccountId}
    {agreement : Option String}
    (h : acceptOffer s env offerId arbitrator agreement = .ok (t, new)) {offer : Offer}
    (hoffer : s.offers.get? offerId = some offer) (hbacked : backingLot s offer = some id) :
    ∃ listing lot, (offer.status = .submitted ∨ offer.status = .shortlisted) ∧
      offer.targetType = .listing ∧ s.listings.get? offer.targetId = some listing ∧
      listing.seller = env.predecessor ∧ listing.status = .active ∧ listing.lotId = some id ∧
      s.lots.get? id = some lot ∧
      offer.goods.quantity.milliamount ≤ lot.availableMilliamount := by
  simp only [acceptOffer, bind_eq_ok, require_eq_ok, demand_eq_ok] at h
  obtain ⟨found, hfound, _, hstatus, ⟨s₁, formation⟩, htarget, _, -, ⟨s₂, cid⟩, hid, s₃, hlot,
    -⟩ := h
  rw [hoffer] at hfound
  cases hfound
  obtain ⟨-, h₁, hformation, -⟩ := acceptTarget_spec htarget
  obtain ⟨-, h₂, -⟩ := nextIdFor_spec hid
  have hlots : s₂.lots = s.lots := by rw [h₂, h₁]
  obtain ⟨-, hallocated⟩ := allocateLot_spec hlot
  rw [hformation, hbacked, hlots] at hallocated
  obtain ⟨lot, hget, hle, -⟩ := hallocated
  unfold acceptTarget at htarget
  split at htarget
  next htype => simp [backingLot, htype] at hbacked
  next htype =>
    simp only [bind_eq_ok, require_eq_ok, demand_eq_ok] at htarget
    obtain ⟨listing, hlisting, _, hseller, _, hactive, -⟩ := htarget
    have hlotId : listing.lotId = some id := by simpa [backingLot, htype, hlisting] using hbacked
    exact ⟨listing, lot, hstatus, htype, hlisting, hseller, hactive, hlotId, hget, hle⟩

theorem transformLot_guards {inputs : List InputLotRef} {output : OutputSpec} {new : String}
    (h : transformLot s env inputs output = .ok (t, new)) :
    requireParty s env.predecessor = .ok () ∧ 0 < output.milliamount.val ∧
      (s.catalogs.get? output.catalogId).isSome = true ∧
      ∃ u, inputs.foldlM (debitInput env) s = .ok u := by
  simp only [transformLot, bind_eq_ok, demand_eq_ok] at h
  obtain ⟨_, hparty, _, -, _, hquantity, _, hcatalog, u, hdebits, -⟩ := h
  exact ⟨hparty, hquantity, hcatalog, u, hdebits⟩

theorem LotStatus.not_disposed {status : LotStatus}
    (h : status = .available ∨ status = .partiallyAllocated) : ¬ status.disposed := by
  obtain h | h := h <;> simp [LotStatus.disposed, h]

/-- A contract keeps its terms, and once its trade is over it stays over. -/
theorem Turn.contract (h : Turn s t env m) (hs : Filed s) {cid : String} {c : TradeContract}
    (hc : s.contracts.get? cid = some c) :
    ∃ c', t.contracts.get? cid = some c' ∧ Restated c c' ∧
      (c.status.final → c'.status.final) := by
  have hset : ∀ {i : String} {x x' : TradeContract}, s.contracts.get? i = some x →
      Restated x x' → t.contracts = s.contracts.set i x' → (x.status.final → x'.status.final) →
      ∃ c', t.contracts.get? cid = some c' ∧ Restated c c' ∧
        (c.status.final → c'.status.final) := by
    intro i x x' hx hrestated hcontracts hfinal
    by_cases hi : cid = i
    · subst i
      rw [hc] at hx
      cases hx
      exact ⟨x', by rw [hcontracts, Dict.get?_set_self], hrestated, hfinal⟩
    · refine ⟨c, ?_, .refl c, fun hfinal => hfinal⟩
      rw [hcontracts, Dict.get?_set_of_ne _ _ hi]
      exact hc
  cases h with
  | kept h how => exact ⟨c, by rw [h.contracts]; exact hc, .refl c, fun hfinal => hfinal⟩
  | formed offer x h hm =>
    have hne : cid ≠ x.contractId := by
      intro heq
      rw [heq, h.fresh hs] at hc
      cases hc
    refine ⟨c, ?_, .refl c, fun hfinal => hfinal⟩
    rw [h.contracts, Dict.get?_set_of_ne _ _ hne]
    exact hc
  | attested ful x x' f h hbefore =>
    refine hset h.contract h.restated h.contracts ?_
    obtain hactive | hdelivering := hbefore
    · simp [ContractStatus.final, hactive]
    · simp [ContractStatus.final, hdelivering]
  | disputed ful x x' f f' h hf hfor hbefore =>
    refine hset h.contract h.restated h.contracts ?_
    obtain hdelivering | hdelivered := hbefore
    · simp [ContractStatus.final, hdelivering]
    · simp [ContractStatus.final, hdelivered]
  | concluded ful x x' f f' st h hsettling hm =>
    refine hset h.contract h.restated h.contracts fun _ => ?_
    obtain ⟨-, hsettled, -⟩ | ⟨-, hbuyer | hseller, -⟩ := h.cases
    · exact .inl hsettled
    · exact .inr (.inl hbuyer)
    · exact .inr (.inr hseller)

/-- A call that takes nothing of a lot opens no contract on it. -/
theorem Untaken.unsettled (h : Untaken s t m id) (hturn : Turn s t env m) (hs : Filed s)
    (hopen : Unsettled t id) : Unsettled s id := by
  obtain ⟨cid, c', hc', hlot, hnot⟩ := hopen
  cases hc : s.contracts.get? cid with
  | none => exact absurd hc (h.formed cid c' hc' hlot)
  | some c =>
    obtain ⟨x, hx, hrestated, hfinal⟩ := hturn.contract hs hc
    rw [hc', Option.some.injEq] at hx
    subst x
    have hsame : c.lotId = some id := by
      rw [hrestated] at hlot
      exact hlot
    exact ⟨cid, c, hc, hsame, fun hover => hnot (hfinal hover)⟩

/-- A disposed lot backs no unsettled contract. -/
structure Retired (s : DTPContract) : Prop where
  filed : Filed s
  staged : Staged s
  cleared : ∀ id lot, s.lots.get? id = some lot → lot.status.disposed → ¬ Unsettled s id

theorem Retired.new (owner : AccountId) : Retired (.new owner) where
  filed := .new owner
  staged := fun _ _ _ h => nomatch h
  cleared := fun _ _ h => nomatch h

/-- An accepted call that leaves a lot as it is, beside its certificates, and neither lists
it, nor consumes it, nor promises any of it to a contract. -/
structure LeftAlone (s t : DTPContract) (m : Method) (id : String) (lot : GoodsLot) : Prop where
  kept : ∃ lot', t.lots.get? id = some lot' ∧ Noted lot lot'
  listed : m.lists ≠ some id
  input : id ∉ m.inputs
  formed : ∀ cid c, t.contracts.get? cid = some c → c.lotId = some id →
    s.contracts.get? cid ≠ none

theorem not_listed (h : execute s env m = .ok t) {lot : GoodsLot}
    (hlot : s.lots.get? id = some lot) (hdisposed : lot.status.disposed) :
    m.lists ≠ some id := by
  intro hlists
  cases m with
  | postListing lotId goods delivery pricing finance freight certs availableFrom expiresAt =>
    obtain ⟨⟨_, new⟩, hcall, rfl⟩ := (map_eq_ok _ _ _).mp h
    obtain ⟨found, hfound, hstatus⟩ := postListing_guards hcall hlists
    rw [hlot] at hfound
    cases hfound
    exact LotStatus.not_disposed hstatus hdisposed
  | _ => cases hlists

theorem not_input (hgood : ¬ TradesDisposed s env m) (h : execute s env m = .ok t)
    {lot : GoodsLot} (hlot : s.lots.get? id = some lot) (hdisposed : lot.status.disposed) :
    id ∉ m.inputs := by
  intro hinput
  cases m with
  | transformLot inputs output =>
    obtain ⟨⟨_, new⟩, hcall, rfl⟩ := (map_eq_ok _ _ _).mp h
    obtain ⟨input, hmem, hid⟩ := List.mem_map.mp hinput
    obtain ⟨hparty, hquantity, hcatalog, hdebits⟩ := transformLot_guards hcall
    have hget : s.lots.get? input.lotId = some lot := by
      rw [hid]
      exact hlot
    exact hgood ⟨hparty, hquantity, hcatalog, hdebits, input, hmem, lot, hget, hdisposed⟩
  | _ => cases hinput

theorem not_allocated (hgood : ¬ TradesDisposed s env m) (h : execute s env m = .ok t)
    {offer : Offer} {c : TradeContract} (hforms : Forms s t env offer c)
    (hm : ∃ id arbitrator agreement, m = .acceptOffer id arbitrator agreement ∧
      s.offers.get? id = some offer) (hlotId : c.lotId = some id) {lot : GoodsLot}
    (hlot : s.lots.get? id = some lot) : ¬ lot.status.disposed := by
  intro hdisposed
  obtain ⟨offerId, arbitrator, agreement, rfl, hoffer⟩ := hm
  obtain ⟨⟨_, new⟩, hcall, rfl⟩ := (map_eq_ok _ _ _).mp h
  have hbacked : backingLot s offer = some id := by
    rw [← hforms.backed]
    exact hlotId
  obtain ⟨listing, found, hstatus, htype, hlisting, hseller, hactive, hlists, hfound, hle⟩ :=
    acceptOffer_guards hcall hoffer hbacked
  rw [hlot] at hfound
  cases hfound
  apply hgood
  exact ⟨offer, listing, id, lot, hoffer, hstatus, htype, hlisting, hseller, hactive, hlists, hlot,
    hle, hdisposed⟩

/-- The contract behind a settlement is open, or it is settled again. -/
theorem Retired.not_handed (hs : Retired s) (hgood : ¬ TradesDisposed s env m) {ful : String}
    {c c' : TradeContract} {f f' : Fulfillment} {st : Settlement}
    (hconcludes : Concludes s t env ful c c' f f' st) (hsettling : Settling s env c m)
    (hlotId : c.lotId = some id) {lot : GoodsLot} (hlot : s.lots.get? id = some lot) :
    ¬ lot.status.disposed := by
  intro hdisposed
  have hfinal : c.status.final := by
    by_contra hopen
    exact hs.cleared id lot hlot hdisposed ⟨c.contractId, c, hconcludes.contract, hlotId, hopen⟩
  have hcontract : s.contracts.get? f.contractId = some c := by
    rw [hconcludes.belongs]
    exact hconcludes.contract
  have hstage := hs.staged ful f c hconcludes.fulfillment hcontract
  obtain ⟨hattested, -, -⟩ | ⟨hdisputed, -, -⟩ := hconcludes.cases
  · -- the seller's attestation stands: of the final statuses only settled allows it
    have hsettled : c.status = .settled := by
      rw [hattested] at hstage
      obtain hsettled | hbuyer | hseller := hfinal
      · exact hsettled
      · simp [hbuyer, ContractStatus.fulfillments] at hstage
      · simp [hseller, ContractStatus.fulfillments] at hstage
    exact hgood (hsettling.tradesDisposed hsettled hlotId hlot hdisposed)
  · simp [ContractStatus.final, hdisputed] at hfinal

theorem Retired.leaves (hs : Retired s) (hgood : ¬ TradesDisposed s env m)
    (h : execute s env m = .ok t) {lot : GoodsLot} (hlot : s.lots.get? id = some lot)
    (hdisposed : lot.status.disposed) : LeftAlone s t m id lot := by
  have hturn := execute_turn hs.filed.lots hs.filed.named h
  have hinput := not_input hgood h hlot hdisposed
  obtain ⟨lot', hlot', hchange⟩ := hturn.lot hs.filed hlot
  cases hchange with
  | kept hnoted huntaken =>
    exact ⟨⟨lot', hlot', hnoted⟩, not_listed h hlot hdisposed, hinput, huntaken.formed⟩
  | disposed disposition hm hbefore => exact absurd hdisposed (LotStatus.not_disposed hbefore)
  | allocated offer c hforms hm hlotId =>
    exact absurd hdisposed (not_allocated hgood h hforms hm hlotId hlot)
  | consumed inputs output hm hnamed =>
    obtain ⟨input, hmem, hid⟩ := hnamed
    have hnamed : id ∈ m.inputs := by
      rw [hm]
      exact List.mem_map.mpr ⟨input, hmem, hid⟩
    exact absurd hnamed hinput
  | handed ful c c' f f' st hconcludes hsettling hm hlotId =>
    exact absurd hdisposed (hs.not_handed hgood hconcludes hsettling hlotId hlot)

/-- Disposal requires that no contract of the lot is open. -/
theorem disposes_cleared (hgood : ¬ TradesDisposed s env m) (h : execute s env m = .ok t)
    {disposition : LotStatus} (hm : m = .disposeLot id disposition) : ¬ Unsettled s id := by
  intro hopen
  subst hm
  exact hgood ⟨hopen, disposeLot_guards h⟩

theorem Retired.step (hs : Retired s) (hgood : ¬ TradesDisposed s env m)
    (h : execute s env m = .ok t) : Retired t := by
  have hturn := execute_turn hs.filed.lots hs.filed.named h
  refine ⟨hs.filed.turn hturn, hs.staged.turn hs.filed hturn, ?_⟩
  intro id lot' hlot' hdisposed
  cases hlot : s.lots.get? id with
  | none =>
    have hnew := (hturn.newLot hs.filed hlot).1 lot' hlot'
    exact absurd hdisposed (LotStatus.not_disposed (.inl hnew.status))
  | some lot =>
    obtain ⟨changed, hchanged, hchange⟩ := hturn.lot hs.filed hlot
    rw [hlot', Option.some.injEq] at hchanged
    subst changed
    cases hchange with
    | kept hnoted huntaken =>
      intro hopen
      have hbefore : lot.status.disposed := by
        rw [hnoted] at hdisposed
        exact hdisposed
      exact hs.cleared id lot hlot hbefore (huntaken.unsettled hturn hs.filed hopen)
    | disposed disposition hm hbefore hset hcontracts =>
      have hclear := disposes_cleared hgood h hm
      unfold Unsettled at hclear ⊢
      rwa [hcontracts]
    | allocated offer c hforms hm hlotId hdebited =>
      have hbefore := not_allocated hgood h hforms hm hlotId hlot
      obtain hstatus | hstatus | hstatus := hdebited.status
      · rw [hstatus] at hdisposed
        exact absurd hdisposed hbefore
      all_goals simp [LotStatus.disposed, hstatus] at hdisposed
    | consumed inputs output hm hinput hdebited hcontracts =>
      obtain hstatus | hstatus | hstatus := hdebited.status
      · rw [hstatus] at hdisposed
        have hnamed : id ∈ m.inputs := by
          rw [hm]
          obtain ⟨input, hmem, hid⟩ := hinput
          exact List.mem_map.mpr ⟨input, hmem, hid⟩
        exact absurd hnamed (not_input hgood h hlot hdisposed)
      all_goals simp [LotStatus.disposed, hstatus] at hdisposed
    | handed ful c c' f f' st hconcludes hsettling hm hlotId hset =>
      rw [hset] at hdisposed
      simp [LotStatus.disposed, GoodsLot.transferred] at hdisposed

/-- Lots are disposed of only without unsettled contracts; from then on their status stays
and every accepted call leaves them alone. -/
structure DisposalRespected (owner : AccountId) (requests : List (Env × Method)) : Prop where
  guarded : ∀ before r after t id disposition, requests = before ++ r :: after →
    execute (run (.new owner) before) r.1 r.2 = .ok t → r.2 = .disposeLot id disposition →
    ¬ Unsettled (run (.new owner) before) id
  stays : ∀ before after id lot, requests = before ++ after →
    (run (.new owner) before).lots.get? id = some lot → lot.status.disposed →
    ∃ lot', (run (.new owner) requests).lots.get? id = some lot' ∧ lot'.status = lot.status
  alone : ∀ before r after t id lot, requests = before ++ r :: after →
    execute (run (.new owner) before) r.1 r.2 = .ok t →
    (run (.new owner) before).lots.get? id = some lot → lot.status.disposed →
    LeftAlone (run (.new owner) before) t r.2 id lot

theorem Retired.run (hs : Retired s) {requests : List (Env × Method)}
    (hgood : Avoids TradesDisposed s requests) : Retired (Near.run s requests) :=
  hgood.invariant (fun _ _ _ _ hs hgood h => hs.step hgood h) hs

theorem Retired.stays (hs : Retired s) {requests : List (Env × Method)}
    (hgood : Avoids TradesDisposed s requests) {lot : GoodsLot}
    (hlot : s.lots.get? id = some lot) (hdisposed : lot.status.disposed) :
    ∃ lot', (Near.run s requests).lots.get? id = some lot' ∧ lot'.status = lot.status := by
  -- along the run, the state stays sound and the lot keeps its status
  let P : DTPContract → Prop := fun u =>
    Retired u ∧ ∃ lot', u.lots.get? id = some lot' ∧ lot'.status = lot.status
  have hstep : ∀ u env m v, P u → ¬ TradesDisposed u env m → execute u env m = .ok v → P v := by
    intro u env m v hu hgood h
    obtain ⟨hretired, found, hfound, hstatus⟩ := hu
    have hleft := hretired.leaves hgood h hfound (by rw [hstatus]; exact hdisposed)
    obtain ⟨lot', hlot', hnoted⟩ := hleft.kept
    refine ⟨hretired.step hgood h, lot', hlot', ?_⟩
    rw [hnoted]
    exact hstatus
  have hfirst : P s := ⟨hs, lot, hlot, rfl⟩
  exact (hgood.invariant hstep hfirst).2

/-- In every run in which no call trades disposed goods by a way that the calls do not
check, disposed lots are out of trade for good. -/
theorem disposed_never_trades (owner : AccountId) (requests : List (Env × Method))
    (hgood : Avoids TradesDisposed (.new owner) requests) :
    DisposalRespected owner requests := by
  have hnew := Retired.new owner
  constructor
  · intro before r after t id disposition hsplit h hm
    rw [hsplit] at hgood
    exact disposes_cleared hgood.split.2.1 h hm
  · intro before after id lot hsplit hlot hdisposed
    rw [hsplit] at hgood ⊢
    obtain ⟨hbefore, hafter⟩ := hgood.split
    rw [run_append]
    exact (hnew.run hbefore).stays hafter hlot hdisposed
  · intro before r after t id lot hsplit h hlot hdisposed
    rw [hsplit] at hgood
    obtain ⟨hbefore, hafter⟩ := hgood.split
    exact (hnew.run hbefore).leaves hafter.1 h hlot hdisposed

def sampleEntry : GoodsCatalogEntry :=
  { catalogId := "", owner := sampleSeller, version := 0, productName := "Blueberries"
    category := "food.produce.berries.blueberries", createdAt := 0, updatedAt := 0 }

def sampleLot : GoodsLot :=
  { lotId := "", owner := sampleSeller, availableMilliamount := 0, provenance := []
    status := .available, createdAt := 0, updatedAt := 0, catalogId := "cat-1"
    originAccount := sampleSeller, totalMilliamount := 1000, unit := "lb", lotNumber := none
    packDate := none, harvestDate := none, bestBy := none, lotCertifications := []
    inputLots := [] }

/-- A lot of a registered seller. -/
def sampleStock : List (Env × Method) :=
  [(⟨sampleBuyer, 0⟩, .registerParty),
   (⟨sampleSeller, 0⟩, .registerParty),
   (⟨sampleSeller, 0⟩, .createCatalogEntry sampleEntry),
   (⟨sampleSeller, 0⟩, .createLot sampleLot)]

def samplePart : GoodsSpec := ⟨⟨400, "lb"⟩, []⟩

/-- Part of the lot is sold. -/
def sampleSale : List (Env × Method) :=
  [(⟨sampleSeller, 0⟩, .postListing (some "lot-2") samplePart ⟨0, 0⟩ ⟨5000000⟩ none none [] 0 0),
   (⟨sampleBuyer, 0⟩, .submitOffer "lst-3" .listing samplePart ⟨0, 0⟩ none none 5000000 5000000
     [] 0),
   (⟨sampleSeller, 0⟩, .acceptOffer "off-4" none none)]

def sampleDisposes : Env × Method := (⟨sampleSeller, 0⟩, .disposeLot "lot-2" .spoiled)

/-- The sale is delivered and settled. -/
def sampleDelivery : List (Env × Method) :=
  [(⟨sampleSeller, 0⟩, .sellerAttestDelivery "ctr-5" ⟨400, "lb"⟩ none),
   (⟨sampleBuyer, 0⟩, .buyerAttestDelivery "ful-6" none [])]

/-- After the disposal the lot is not listed again, and another lot is sold to the end. -/
def sampleResale : List (Env × Method) :=
  [(⟨sampleSeller, 0⟩, .postListing (some "lot-2") samplePart ⟨0, 0⟩ ⟨5000000⟩ none none [] 0 0),
   (⟨sampleSeller, 0⟩, .createLot sampleLot),
   (⟨sampleSeller, 0⟩, .postListing (some "lot-3") samplePart ⟨0, 0⟩ ⟨5000000⟩ none none [] 0 0),
   (⟨sampleBuyer, 0⟩, .submitOffer "lst-4" .listing samplePart ⟨0, 0⟩ none none 5000000 5000000
     [] 0),
   (⟨sampleSeller, 0⟩, .acceptOffer "off-5" none none),
   (⟨sampleSeller, 0⟩, .sellerAttestDelivery "ctr-6" ⟨400, "lb"⟩ none),
   (⟨sampleBuyer, 0⟩, .buyerAttestDelivery "ful-7" none [])]

theorem field_eq {α β : Type} {o : Option α} {x : α} {f : α → β} {v : β} (hx : o = some x)
    (h : o.map f = some v) : f x = v := by
  rw [hx, Option.map_some, Option.some.injEq] at h
  exact h

theorem sampleResale_spared : Avoids TradesDisposed
    (run (.new sampleOwner) (sampleStock ++ [sampleDisposes])) sampleResale := by
  refine ⟨?_, ?_, ?_, ?_, ?_, ?_, ?_, trivial⟩
  iterate 4
    rintro ⟨_, _, _, hsettling, -⟩
    exact hsettling
  · -- the lot behind the accepted offer is the second one
    rintro ⟨offer, listing, id, lot, hoffer, -, -, hlisting, -, -, hlotId, hlot, -, hdisposed⟩
    have htarget : offer.targetId = "lst-4" := field_eq hoffer (by decide)
    rw [htarget] at hlisting
    have hlists : listing.lotId = some "lot-3" := field_eq hlisting (by decide)
    rw [hlotId, Option.some.injEq] at hlists
    rw [hlists] at hlot
    have hstatus : lot.status = .available := field_eq hlot (by decide)
    exact LotStatus.not_disposed (.inl hstatus) hdisposed
  · rintro ⟨_, _, _, hsettling, -⟩
    exact hsettling
  · -- its contract is settled for the first time
    rintro ⟨c, id, lot, ⟨f, hf, hc, -⟩, hsettled, -⟩
    have hcontract : f.contractId = "ctr-6" := field_eq hf (by decide)
    rw [hcontract] at hc
    have hopen : c.status = .inFulfillment := field_eq hc (by decide)
    rw [hsettled] at hopen
    cases hopen

/-- The disposed lot stays spoiled while the other one is sold and settled. -/
theorem disposed_never_trades_sample :
    DisposalRespected sampleOwner (sampleStock ++ sampleDisposes :: sampleResale) ∧
      ((run (.new sampleOwner) (sampleStock ++ [sampleDisposes])).lots.get? "lot-2").map
        GoodsLot.status = some .spoiled ∧
      ((run (.new sampleOwner) (sampleStock ++ sampleDisposes :: sampleResale)).lots.get?
        "lot-2").map GoodsLot.status = some .spoiled ∧
      ((run (.new sampleOwner) (sampleStock ++ sampleDisposes :: sampleResale)).contracts.get?
        "ctr-6").map TradeContract.status = some .settled := by
  refine ⟨disposed_never_trades sampleOwner _ ?_, by decide, by decide, by decide⟩
  refine ⟨?_, ?_, ?_, ?_, ?_, sampleResale_spared⟩
  iterate 4
    rintro ⟨_, _, _, hsettling, -⟩
    exact hsettling
  rintro ⟨⟨cid, c, hc, -⟩, -⟩
  have hnone : (run (.new sampleOwner) sampleStock).contracts.entries = [] := by decide
  have hget : (run (.new sampleOwner) sampleStock).contracts.get? cid = some c := hc
  rw [Dict.get?, hnone] at hget
  cases hget

/-- A lot is disposed of while a contract on it is open; the settlement hands it over. -/
theorem disposed_lot_trades :
    Ordered (sampleStock ++ sampleSale ++ sampleDisposes :: sampleDelivery) ∧
      ¬ DisposalRespected sampleOwner
        (sampleStock ++ sampleSale ++ sampleDisposes :: sampleDelivery) := by
  refine ⟨by unfold Ordered; decide, ?_⟩
  intro h
  have hbefore : ((run (.new sampleOwner) (sampleStock ++ sampleSale ++ [sampleDisposes])).lots.get?
      "lot-2").map GoodsLot.status = some .spoiled := by decide
  have hafter : ((run (.new sampleOwner) (sampleStock ++ sampleSale ++
      sampleDisposes :: sampleDelivery)).lots.get? "lot-2").map GoodsLot.status =
      some .fulfilled := by decide
  obtain ⟨lot, hlot, hstatus⟩ := Option.map_eq_some_iff.mp hbefore
  obtain ⟨lot', hlot', hsame⟩ := h.stays (sampleStock ++ sampleSale ++ [sampleDisposes])
    sampleDelivery "lot-2" lot rfl hlot (.inl hstatus)
  rw [hlot', Option.map_some, hsame, hstatus] at hafter
  cases hafter

end DirectTrade.Near
