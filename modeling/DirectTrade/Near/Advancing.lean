import DirectTrade.Near.Keeping

/-!
The calls that form and advance a trade. Accepting an offer adds a contract; an
attestation, a dispute and a settlement rewrite one contract and its fulfillment;
the settlement routine adds one settlement and counts it once everywhere.
-/

namespace DirectTrade.Near

open Library Outcome

variable {s t u : DTPContract} {env : Env}

@[simp] theorem GoodsLot.transferred_provenance (lot : GoodsLot) (c : TradeContract) (now : U64) :
    (lot.transferred c now).provenance = lot.provenance ++
      [⟨c.seller, c.buyer, c.goods.quantity.milliamount, c.goods.quantity.unit, c.contractId,
        now⟩] := rfl

@[simp] theorem RelationshipRecord.afterTrade_tradesCompleted (rel : RelationshipRecord)
    (trades : U32) (volume : Amount) (now : U64) (onTime : Bool) :
    (rel.afterTrade trades volume now onTime).tradesCompleted = trades := rfl

@[simp] theorem RelationshipRecord.afterTrade_totalVolume (rel : RelationshipRecord)
    (trades : U32) (volume : Amount) (now : U64) (onTime : Bool) :
    (rel.afterTrade trades volume now onTime).totalVolume = volume := rfl

/-- A lot that a contract names is handed over to its buyer. -/
def Handed (lots lots' : Dict String GoodsLot) (now : U64) (c : TradeContract) :
    Option String → Prop
  | none => lots' = lots
  | some id => ∃ lot, lots.get? id = some lot ∧ lots' = lots.set id (lot.transferred c now)

theorem transferLotOwnership_spec {c : TradeContract} {lotId : Option String}
    (h : transferLotOwnership s env c lotId = .ok t) :
    t = { s with lots := t.lots, auditLog := t.auditLog, auditIndex := t.auditIndex } ∧
      Handed s.lots t.lots env.nowMs c lotId := by
  cases lotId with
  | none =>
    cases h
    exact ⟨rfl, rfl⟩
  | some lid =>
    simp only [transferLotOwnership, bind_eq_ok, require_eq_ok] at h
    obtain ⟨lot, hlot, h⟩ := h
    rw [emit_eq_ok h]
    exact ⟨rfl, lot, hlot, rfl⟩

theorem Handed.issued {c : TradeContract} {lotId : Option String} {now : U64} {n : ℕ}
    {lots lots' : Dict String GoodsLot} (h : Handed lots lots' now c lotId)
    (hs : Issued "lot-" n lots) : Issued "lot-" n lots' := by
  cases lotId with
  | none =>
    have hsame : lots' = lots := h
    rwa [hsame]
  | some lid =>
    obtain ⟨lot, hlot, hset⟩ := h
    rw [hset]
    exact hs.replace hlot _

theorem Handed.transfers {c : TradeContract} {lotId : Option String} {now : U64}
    (h : Handed s.lots t.lots now c lotId) (l x : String) : t.transfers l x =
      s.transfers l x + if lotId = some l ∧ c.contractId = x then 1 else 0 := by
  cases lotId with
  | none =>
    have hsame : t.lots = s.lots := h
    simp [DTPContract.transfers, hsame]
  | some lid =>
    obtain ⟨lot, hlot, hset⟩ := h
    by_cases hl : l = lid
    · subst l
      simp [DTPContract.transfers, hset, hlot, List.countP_append, List.countP_cons]
    · have hne : lid ≠ l := Ne.symm hl
      simp [DTPContract.transfers, hset, Dict.get?_set_of_ne _ _ hl, hne]

/-- The record of a pair counts one more trade. -/
def Related (rels rels' : Dict String RelationshipRecord) (now : U64) (buyer seller : AccountId)
    (volume : Amount) : Prop :=
  ∃ rel trades total onTime,
    rel = (rels.get? (RelationshipRecord.key buyer seller)).getD (.fresh buyer seller now) ∧
    trades.val = rel.tradesCompleted.val + 1 ∧ total.val = rel.totalVolume.val + volume.val ∧
    rels' = rels.set (RelationshipRecord.key buyer seller) (rel.afterTrade trades total now onTime)

theorem updateRelationship_spec {buyer seller : AccountId} {volume : Amount} {onTime : Bool}
    (h : updateRelationship s env buyer seller volume onTime = .ok t) :
    t = { s with
          relationships := t.relationships, auditLog := t.auditLog, auditIndex := t.auditIndex } ∧
      Related s.relationships t.relationships env.nowMs buyer seller volume := by
  simp only [updateRelationship, bind_eq_ok] at h
  obtain ⟨trades, htrades, total, htotal, h⟩ := h
  rw [emit_eq_ok h]
  exact ⟨rfl, _, trades, total, onTime, rfl, checkedAdd_eq_ok htrades, checkedAdd_eq_ok htotal, rfl⟩

theorem Related.traded {now : U64} {buyer seller : AccountId} {volume : Amount}
    (h : Related s.relationships t.relationships now buyer seller volume) (k : String) :
    t.traded k =
      if k = RelationshipRecord.key buyer seller
      then ((s.traded k).1 + 1, (s.traded k).2 + volume.val) else s.traded k := by
  obtain ⟨rel, trades, total, onTime, hrel, htrades, htotal, hset⟩ := h
  by_cases hk : k = RelationshipRecord.key buyer seller
  · subst k
    cases hget : s.relationships.get? (RelationshipRecord.key buyer seller) with
    | none =>
      rw [hget, Option.getD_none] at hrel
      rw [hrel] at htrades htotal
      simp [DTPContract.traded, hset, hget, htrades, htotal, RelationshipRecord.fresh]
    | some old =>
      rw [hget, Option.getD_some] at hrel
      rw [hrel] at htrades htotal
      simp [DTPContract.traded, hset, hget, htrades, htotal]
  · simp [DTPContract.traded, hset, Dict.get?_set_of_ne _ _ hk, hk]

/-- A reputation after one more trade. -/
structure Reputed (r r' : ReputationRecord) : Prop where
  completed : r'.tradesCompleted.val = r.tradesCompleted.val + 1
  disputed : r'.tradesDisputed.val ≤ r.tradesDisputed.val + 1
  onTime : r'.tradesSettledOnTime.val ≤ r.tradesSettledOnTime.val + 1
  accuracy : r'.averageDeliveryAccuracy = r.averageDeliveryAccuracy
  score : r'.recompute = r'

/-- Reputations change by trades alone. -/
def Scored (s t : DTPContract) : Prop :=
  ∀ a p', t.parties.get? a = some p' →
    ∃ p, s.parties.get? a = some p ∧ Relation.ReflTransGen Reputed p.reputation p'.reputation

theorem Scored.trans (h : Scored s t) (h' : Scored t u) : Scored s u := by
  intro a p' hp'
  obtain ⟨q, hq, hsteps'⟩ := h' a p' hp'
  obtain ⟨p, hp, hsteps⟩ := h a q hq
  exact ⟨p, hp, hsteps.trans hsteps'⟩

theorem countIf_le {flag : Bool} {n m : U32} (h : countIf flag n = .ok m) :
    m.val ≤ n.val + 1 := by
  unfold countIf at h
  split at h
  · exact (checkedAdd_eq_ok h).le
  · cases h
    omega

theorem updateReputation_spec {account : AccountId} {disputed onTime : Bool}
    (h : updateReputation s env account true disputed onTime = .ok t) :
    t = { s with parties := t.parties } ∧ Scored s t ∧
      ∀ a, t.completed a =
        if a = account then (s.completed a).map (· + 1) else s.completed a := by
  unfold updateReputation at h
  cases hparty : s.parties.get? account with
  | none =>
    simp only [hparty] at h
    cases h
    refine ⟨rfl, fun a p' hp' => ⟨p', hp', .refl⟩, ?_⟩
    intro a
    by_cases ha : a = account
    · subst a
      simp [DTPContract.completed, hparty]
    · simp [ha]
  | some party =>
    simp only [hparty, bind_eq_ok] at h
    obtain ⟨trades, htrades, disputes, hdisputes, ontime, hontime, h⟩ := h
    have htrades : trades.val = party.reputation.tradesCompleted.val + 1 :=
      checkedAdd_eq_ok (by simpa [countIf] using htrades)
    cases h
    refine ⟨rfl, ?_, ?_⟩
    · intro a p' hp'
      by_cases ha : a = account
      · subst a
        simp only [Dict.get?_set_self, Option.some.injEq] at hp'
        refine ⟨party, hparty, .single ?_⟩
        rw [← hp']
        exact {
          completed := by simpa using htrades
          disputed := by simpa using countIf_le hdisputes
          onTime := by simpa using countIf_le hontime
          accuracy := by simp
          score := ReputationRecord.recompute_recompute _ }
      · rw [Dict.get?_set_of_ne _ _ ha] at hp'
        exact ⟨p', hp', .refl⟩
    · intro a
      by_cases ha : a = account
      · subst a
        simp [DTPContract.completed, hparty, htrades]
      · simp [DTPContract.completed, Dict.get?_set_of_ne _ _ ha, ha]

/-- One settlement of `c` is recorded and counted once in each place. -/
structure Counts (s t : DTPContract) (env : Env) (c : TradeContract) (st : Settlement) :
    Prop where
  settlements : t.settlements = s.settlements.set st.settlementId st
  numbered : st.settlementId = "set-" ++ toString t.idCounter.val
  counter : t.idCounter.val = s.idCounter.val + 1
  owed : st.contractId = c.contractId ∧ st.netAmount ≤ c.totalValue
  handed : Handed s.lots t.lots env.nowMs c c.lotId
  traders : Traders s → Traders t
  agreements : t.standingAgreements = s.standingAgreements
  related : Related s.relationships t.relationships env.nowMs c.buyer c.seller st.netAmount
  scored : Scored s t
  completed : ∀ a, t.completed a =
    (s.completed a).map fun n =>
      n + (if a = c.buyer then 1 else 0) + if a = c.seller then 1 else 0

theorem Counts.lots {c : TradeContract} {st : Settlement} (h : Counts s t env c st)
    (hs : LotsIssued s) : LotsIssued t :=
  h.handed.issued (Issued.mono hs (by rw [h.counter]; omega))

theorem Counts.transfers {c : TradeContract} {st : Settlement} (h : Counts s t env c st)
    (l x : String) : t.transfers l x =
      s.transfers l x + if c.lotId = some l ∧ c.contractId = x then 1 else 0 :=
  h.handed.transfers l x

theorem Counts.traded {c : TradeContract} {st : Settlement} (h : Counts s t env c st)
    (k : String) : t.traded k =
      if k = RelationshipRecord.key c.buyer c.seller
      then ((s.traded k).1 + 1, (s.traded k).2 + st.netAmount.val) else s.traded k :=
  h.related.traded k

/-- What the settlement routine does, its contract included. -/
structure Settles (s t : DTPContract) (env : Env) (c : TradeContract) (st : Settlement) : Prop
    extends Counts s t env c st where
  contracts : t.contracts =
    s.contracts.set c.contractId { c with status := .settled, updatedAt := env.nowMs }
  fulfillments : t.fulfillments = s.fulfillments

theorem recordSettlement_spec {ful : String} {c : TradeContract} {ded : List Deduction}
    {st : Settlement} (h : recordSettlement s env ful c ded = .ok (t, st)) :
    t = { s with idCounter := t.idCounter, settlements := s.settlements.set st.settlementId st } ∧
      t.idCounter.val = s.idCounter.val + 1 ∧
      st.settlementId = "set-" ++ toString t.idCounter.val ∧
      st.contractId = c.contractId ∧ st.netAmount ≤ c.totalValue := by
  simp only [recordSettlement, bind_eq_ok] at h
  obtain ⟨⟨u, id⟩, hid, total, -, h⟩ := h
  obtain ⟨hcount, hu, hname⟩ := nextIdFor_spec hid
  cases h
  refine ⟨?_, hcount, ?_, rfl, ?_⟩
  · rw [hu]
  · show id = _
    rw [hname, hcount]
  · exact Nat.sub_le _ _

theorem executeSettlement_spec {ful id : String} {c : TradeContract} {ded : List Deduction}
    {loser : Option AccountId}
    (h : executeSettlement s env ful c ded loser = .ok (t, id)) :
    ∃ st, Settles s t env c st := by
  simp only [executeSettlement, bind_eq_ok] at h
  obtain ⟨⟨s₁, st⟩, hrecord, s₂, hlot, s₃, hrel, s₄, hbuyer, s₅, hseller, s₆, hcreated, s₇,
    hreleased, h⟩ := h
  cases h
  obtain ⟨h₁, hcount, hname, howed⟩ := recordSettlement_spec hrecord
  obtain ⟨h₂, hhanded⟩ := transferLotOwnership_spec hlot
  obtain ⟨h₃, hrelated⟩ := updateRelationship_spec hrel
  obtain ⟨h₄, hscored, hcompleted⟩ := updateReputation_spec hbuyer
  obtain ⟨h₅, hscored', hcompleted'⟩ := updateReputation_spec hseller
  have h₆ := emit_eq_ok hcreated
  have h₇ := emit_eq_ok hreleased
  -- everything that the routine leaves alone, at once
  have hshape : t = { s with
      idCounter := t.idCounter, settlements := s.settlements.set st.settlementId st
      contracts := s.contracts.set c.contractId
        { c with status := .settled, updatedAt := env.nowMs }
      lots := t.lots, relationships := t.relationships, parties := t.parties
      auditLog := t.auditLog, auditIndex := t.auditIndex } := by
    rw [h₇, h₆, h₅, h₄, h₃, h₂, h₁]
    rfl
  have hcounter : t.idCounter = s₁.idCounter := by
    rw [h₇, h₆, h₅, h₄, h₃, h₂]
    rfl
  have hlots : t.lots = s₂.lots := by
    rw [h₇, h₆, h₅, h₄, h₃]
    rfl
  have hrelationships : t.relationships = s₃.relationships := by
    rw [h₇, h₆, h₅, h₄]
    rfl
  have hparties : t.parties = s₅.parties := by
    rw [h₇, h₆]
    rfl
  have hparties₃ : s₃.parties = s.parties := by
    rw [h₃, h₂, h₁]
  have hcompletes : ∀ a, t.completed a = (s.completed a).map fun n =>
      n + (if a = c.buyer then 1 else 0) + if a = c.seller then 1 else 0 := by
    intro a
    have hseller := hcompleted' a
    have hbuyer := hcompleted a
    have hsame : s₃.completed a = s.completed a := by simp [DTPContract.completed, hparties₃]
    have hlast : t.completed a = s₅.completed a := by simp [DTPContract.completed, hparties]
    rw [hlast, hseller, hbuyer, hsame]
    cases s.completed a <;> split <;> split <;> simp
  refine ⟨st, ?_⟩
  exact {
    contracts := by rw [hshape]
    fulfillments := by rw [hshape]
    settlements := by rw [hshape]
    numbered := by rw [hname, hcounter]
    counter := by rw [hcounter, hcount]
    owed := howed
    handed := by
      have hsame : s₁.lots = s.lots := by rw [h₁]
      rw [hlots, ← hsame]
      exact hhanded
    traders := by
      intro hs
      refine hs.of_tables (by rw [hshape]) (by rw [hshape]) (by rw [hshape]) ?_
      intro a ha
      unfold Registered at ha ⊢
      rw [hcompletes]
      cases hn : s.completed a with
      | none => exact absurd hn ha
      | some n => simp
    agreements := by rw [hshape]
    related := by
      have hsame : s₂.relationships = s.relationships := by rw [h₂, h₁]
      rw [hrelationships, ← hsame]
      exact hrelated
    scored := by
      intro a p' hp'
      rw [hparties] at hp'
      obtain ⟨p, hp, hsteps⟩ := hscored.trans hscored' a p' hp'
      rw [hparties₃] at hp
      exact ⟨p, hp, hsteps⟩
    completed := hcompletes }

/-- A contract in which only the status and the time of its last update differ. -/
def Restated (c c' : TradeContract) : Prop :=
  c' = { c with status := c'.status, updatedAt := c'.updatedAt }

/-- The lot that an offer's listing names, if its target is a listing. -/
def backingLot (s : DTPContract) (offer : Offer) : Option String :=
  match offer.targetType with
  | .intent => none
  | .listing => (s.listings.get? offer.targetId).bind SupplyListing.lotId

/-- Quantity of a lot is reserved, where a lot is named. -/
def Allocated (lots lots' : Dict String GoodsLot) (now q : U64) : Option String → Prop
  | none => lots' = lots
  | some id => ∃ lot, lots.get? id = some lot ∧ q ≤ lot.availableMilliamount ∧
      lots' = lots.set id (lot.debited (saturatingSub lot.availableMilliamount q) now)

/-- A new contract on an offer, and nothing else that concerns trades. -/
structure Forms (s t : DTPContract) (env : Env) (offer : Offer) (c : TradeContract) : Prop where
  contracts : t.contracts = s.contracts.set c.contractId c
  numbered : c.contractId = "ctr-" ++ toString t.idCounter.val
  counter : t.idCounter.val = s.idCounter.val + 1
  status : c.status = .active
  parties : Traders s → Registered s c.buyer ∧ Registered s c.seller
  backed : c.lotId = backingLot s offer
  allocated : Allocated s.lots t.lots env.nowMs c.goods.quantity.milliamount c.lotId
  rest : Kept s { t with contracts := s.contracts }
  agreements : t.standingAgreements = s.standingAgreements
  relationships : t.relationships = s.relationships
  reputations : t.parties = s.parties

/-- A delivery is attested or disputed: one contract and one fulfillment are written. -/
structure Handles (s t : DTPContract) (ful : String) (c c' : TradeContract) (f' : Fulfillment) :
    Prop where
  contract : s.contracts.get? f'.contractId = some c
  contracts : t.contracts = s.contracts.set f'.contractId c'
  restated : Restated c c'
  fulfillments : t.fulfillments = s.fulfillments.set ful f'
  rest : Quiet s { t with contracts := s.contracts, fulfillments := s.fulfillments }

/-- A contract is settled: it and its fulfillment are written and one settlement counted. -/
structure Closes (s t : DTPContract) (env : Env) (ful : String) (c c' : TradeContract)
    (f f' : Fulfillment) (st : Settlement) : Prop extends Counts s t env c st where
  fulfillment : s.fulfillments.get? ful = some f
  belongs : f.contractId = c.contractId
  contract : s.contracts.get? c.contractId = some c
  contracts : t.contracts = s.contracts.set c.contractId c'
  restated : Restated c c'
  fulfillments : t.fulfillments = s.fulfillments.set ful f'
  stays : f'.contractId = f.contractId

/-- Only intents and listings are written, and the terms name registered parties. -/
theorem acceptTarget_spec {offer : Offer} {formation : Formation}
    (h : acceptTarget s env offer = .ok (t, formation)) :
    Kept s t ∧ t = { s with intents := t.intents, listings := t.listings } ∧
      formation.lotId = backingLot s offer ∧
      (Traders s → Registered s offer.offerer →
        Registered s formation.buyer ∧ Registered s formation.seller) := by
  unfold acceptTarget at h
  split at h
  next htype =>
    simp only [bind_eq_ok, require_eq_ok, demand_eq_ok] at h
    obtain ⟨intent, hintent, -, hbuyer, -, -, h⟩ := h
    cases h
    refine ⟨.setIntent fun hs => hs.buyers _ intent hintent, rfl, ?_, ?_⟩
    · simp [backingLot, htype]
    · intro hs hofferer
      have hcaller := hs.buyers _ intent hintent
      rw [hbuyer] at hcaller
      exact ⟨hcaller, hofferer⟩
  next htype =>
    simp only [bind_eq_ok, require_eq_ok, demand_eq_ok] at h
    obtain ⟨listing, hlisting, -, hseller, -, -, h⟩ := h
    cases h
    refine ⟨.setListing fun hs => hs.sellers _ listing hlisting, rfl, ?_, ?_⟩
    · simp [backingLot, htype, hlisting]
    · intro hs hofferer
      have hcaller := hs.sellers _ listing hlisting
      rw [hseller] at hcaller
      exact ⟨hofferer, hcaller⟩

theorem allocateLot_spec {q : U64} {lotId : Option String}
    (h : allocateLot s env q lotId = .ok t) :
    t = { s with lots := t.lots } ∧ Allocated s.lots t.lots env.nowMs q lotId := by
  cases lotId with
  | none =>
    cases h
    exact ⟨rfl, rfl⟩
  | some lid =>
    simp only [allocateLot, bind_eq_ok, require_eq_ok, demand_eq_ok] at h
    obtain ⟨lot, hlot, -, hq, h⟩ := h
    cases h
    exact ⟨rfl, lot, hlot, hq, rfl⟩

theorem requestFinancing_spec {id : String} {finance : Option FinanceTerms}
    (h : requestFinancing s env id finance = .ok t) :
    t = { s with auditLog := t.auditLog, auditIndex := t.auditIndex } := by
  unfold requestFinancing at h
  split at h
  · cases h
    rfl
  · split at h
    · rw [emit_eq_ok h]
      rfl
    · cases h
      rfl

theorem acceptOffer_spec {offerId id : String} {arbitrator : Option AccountId}
    {agreement : Option String} (h : acceptOffer s env offerId arbitrator agreement = .ok (t, id)) :
    ∃ offer c, s.offers.get? offerId = some offer ∧ Forms s t env offer c := by
  simp only [acceptOffer, bind_eq_ok, require_eq_ok] at h
  obtain ⟨offer, hoffer, _, -, ⟨s₁, formation⟩, htarget, _, -, ⟨s₂, contractId⟩, hid, s₃, hlot,
    s₄, hcreated, s₅, hlocked, s₆, hfinance, h⟩ := h
  cases h
  obtain ⟨hkept, h₁, hbacked, hparties⟩ := acceptTarget_spec htarget
  obtain ⟨hcount, h₂, hname⟩ := nextIdFor_spec hid
  obtain ⟨h₃, hallocated⟩ := allocateLot_spec hlot
  have h₄ := emit_eq_ok hcreated
  have h₅ := emit_eq_ok hlocked
  have h₆ := requestFinancing_spec hfinance
  have hoffers : s₁.offers = s.offers := by rw [h₁]
  have hlots : s₂.lots = s.lots := by rw [h₂, h₁]
  have hcontracts : s₃.contracts = s.contracts := by rw [h₃, h₂, h₁]
  have hcounter : t.idCounter = s₂.idCounter := by
    rw [h₆, h₅, h₄, h₃]
    rfl
  have hkept₂ : Kept s s₂ := by
    refine (hkept.trans (.setOffer fun hs => ?_)).trans (.nextIdFor hid)
    exact hs.offerers offerId offer (by rw [hoffers]; exact hoffer)
  have hkept₃ : Kept s s₃ := hkept₂.trans (.allocateLot hlot)
  refine ⟨offer, formation.contract env offer offerId contractId s₃.defaultDisputeWindowHours
    arbitrator agreement, hoffer, {
    contracts := by
      rw [← hcontracts]
      rw [h₆, h₅, h₄]
      rfl
    numbered := by
      rw [hcounter, hcount]
      exact hname
    counter := by
      rw [hcounter, hcount, h₁]
    status := rfl
    parties := fun hs => hparties hs (hs.offerers offerId offer hoffer)
    backed := hbacked
    allocated := by
      rw [← hlots]
      rw [h₆, h₅, h₄]
      exact hallocated
    rest := by
      refine hkept₃.trans (.of_tables ?_ ?_ ?_ ?_ ?_ ?_ ?_ ?_ ?_ ?_)
      · exact hcontracts.symm
      all_goals
        rw [h₆, h₅, h₄]
        rfl
    agreements := by
      rw [h₆, h₅, h₄, h₃, h₂, h₁]
      rfl
    relationships := by
      rw [h₆, h₅, h₄, h₃, h₂, h₁]
      rfl
    reputations := by
      rw [h₆, h₅, h₄, h₃, h₂, h₁]
      rfl }⟩

/-- The seller attests: a fulfillment is opened for a contract that has none. -/
theorem sellerAttestDelivery_spec {contractId id : String} {quantity : Quantity}
    {notes : Option String}
    (h : sellerAttestDelivery s env contractId quantity notes = .ok (t, id)) :
    ∃ c c' f, Handles s t id c c' f ∧ f.contractId = contractId ∧
      (c.status = .active ∨ c.status = .inFulfillment) ∧ c'.status = .inFulfillment ∧
      f.status = .sellerAttested ∧ (∀ g ∈ s.fulfillments.values, g.contractId ≠ contractId) ∧
      id = "ful-" ++ toString (s.idCounter.val + 1) ∧
      t.idCounter.val = s.idCounter.val + 1 := by
  simp only [sellerAttestDelivery, bind_eq_ok, require_eq_ok, demand_eq_ok] at h
  obtain ⟨c, hc, _, -, _, hstatus, _, hnone, ⟨s₁, ful⟩, hid, s₂, hemit, h⟩ := h
  cases h
  obtain ⟨hcount, h₁, hname⟩ := nextIdFor_spec hid
  have h₂ := emit_eq_ok hemit
  have hkept := Quiet.nextIdFor hid
  have hcounter : t.idCounter = s₁.idCounter := by
    rw [h₂]
    rfl
  refine ⟨c, { c with status := .inFulfillment, updatedAt := env.nowMs }, ⟨ful, contractId,
    env.nowMs, quantity, ⟨env.predecessor, env.nowMs, notes⟩, none, .sellerAttested⟩, {
      contract := hc
      contracts := by
        rw [← hkept.contracts, h₂]
        rfl
      restated := rfl
      fulfillments := by
        rw [← hkept.fulfillments, h₂]
        rfl
      rest := ?_ }, rfl, hstatus, rfl, rfl, hnone, hname, by rw [hcounter, hcount]⟩
  refine hkept.trans (.of_kept (.of_tables hkept.contracts.symm hkept.fulfillments.symm ?_ ?_ ?_ ?_
    ?_ ?_ ?_ ?_) ?_ ?_ ?_ ?_)
  all_goals
    rw [h₂]
    rfl

theorem initiateDispute_spec {ful : String} (h : initiateDispute s env ful = .ok t) :
    ∃ c c' f f', Handles s t ful c c' f' ∧ s.fulfillments.get? ful = some f ∧
      f'.contractId = f.contractId ∧ (c.status = .inFulfillment ∨ c.status = .delivered) ∧
      c'.status = .disputed ∧ f'.status = .disputed ∧ t.idCounter = s.idCounter := by
  simp only [initiateDispute, bind_eq_ok, require_eq_ok, demand_eq_ok] at h
  obtain ⟨f, hf, c, hc, _, -, _, hstatus, closes, -, _, -, h⟩ := h
  rw [emit_eq_ok h]
  exact ⟨c, { c with status := .disputed, updatedAt := env.nowMs }, f,
    { f with status := .disputed }, {
      contract := hc
      contracts := rfl
      restated := rfl
      fulfillments := rfl
      rest := .aside rfl le_rfl }, hf, rfl, hstatus, rfl, rfl, rfl⟩

/-- A call that settles a trade, with the statuses it requires and leaves. -/
structure Concludes (s t : DTPContract) (env : Env) (ful : String) (c c' : TradeContract)
    (f f' : Fulfillment) (st : Settlement) : Prop extends Closes s t env ful c c' f f' st where
  cases :
    (f.status = .sellerAttested ∧ c'.status = .settled ∧
      (f'.status = .complete ∨ f'.status = .sellerAttested)) ∨
    (c.status = .disputed ∧ (c'.status = .resolvedBuyer ∨ c'.status = .resolvedSeller) ∧ f' = f)

/-- The settlement routine on a contract whose status alone was rewritten before. -/
theorem Settles.closes {ful : String} {c c' : TradeContract} {f f' : Fulfillment}
    {st : Settlement} (h : Settles u t env c' st) (hcounts : Counts s t env c st)
    (hf : s.fulfillments.get? ful = some f) (hbelongs : f.contractId = c.contractId)
    (hc : s.contracts.get? c.contractId = some c) (hrestated : Restated c c')
    (hcontracts : u.contracts = s.contracts.set c.contractId c')
    (hfulfillments : u.fulfillments = s.fulfillments.set ful f')
    (hstays : f'.contractId = f.contractId) :
    Closes s t env ful c { c' with status := .settled, updatedAt := env.nowMs } f f' st where
  toCounts := hcounts
  fulfillment := hf
  belongs := hbelongs
  contract := hc
  contracts := by
    have hid : c'.contractId = c.contractId := by rw [hrestated]
    rw [h.contracts, hcontracts, hid, Dict.set_set]
  restated := by
    unfold Restated
    rw [hrestated]
  fulfillments := h.fulfillments.trans hfulfillments
  stays := hstays

theorem buyerAttestDelivery_spec {ful id : String} {notes : Option String}
    {deductions : List Deduction} (hnamed : s.contracts.Named TradeContract.contractId)
    (h : buyerAttestDelivery s env ful notes deductions = .ok (t, id)) :
    ∃ c c' f f' st, Concludes s t env ful c c' f f' st ∧ c.buyer = env.predecessor ∧
      f.status = .sellerAttested := by
  simp only [buyerAttestDelivery, bind_eq_ok, require_eq_ok, demand_eq_ok] at h
  obtain ⟨f, hf, c, hc, _, hbuyer, _, hstatus, s₁, hemit, h⟩ := h
  have h₁ := emit_eq_ok hemit
  obtain ⟨st, hst⟩ := executeSettlement_spec h
  have hid : c.contractId = f.contractId := hnamed _ c hc
  rw [h₁] at hst
  refine ⟨c, _, f, { f with
    buyerAttestation := some ⟨env.predecessor, env.nowMs, notes⟩, status := .complete }, st,
    ⟨hst.closes ⟨hst.settlements, hst.numbered, hst.counter, hst.owed, hst.handed, ?_,
      hst.agreements, hst.related, hst.scored, hst.completed⟩ hf hid.symm (by rw [hid]; exact hc)
      rfl (by rw [hid]; rfl) rfl rfl,
      .inl ⟨hstatus, rfl, .inl rfl⟩⟩, hbuyer, hstatus⟩
  exact fun hs => hst.traders (hs.of_tables rfl rfl rfl fun _ ha => ha)

theorem triggerAutoSettlement_spec {ful id : String}
    (hnamed : s.contracts.Named TradeContract.contractId)
    (h : triggerAutoSettlement s env ful = .ok (t, id)) :
    ∃ c c' f f' st, Concludes s t env ful c c' f f' st ∧ f.status = .sellerAttested ∧
      f.sellerAttestation.signedAt.val + c.disputeWindowHours.val * 3600000 < env.nowMs.val := by
  simp only [triggerAutoSettlement, bind_eq_ok, require_eq_ok, demand_eq_ok] at h
  obtain ⟨f, hf, c, hc, _, hstatus, closes, hwindow, _, hlate, h⟩ := h
  obtain ⟨st, hst⟩ := executeSettlement_spec h
  have hid : c.contractId = f.contractId := hnamed _ c hc
  have hcontract : s.contracts.get? c.contractId = some c := by rw [hid]; exact hc
  have hcloses := checkedAdd_eq_ok hwindow
  refine ⟨c, _, f, f, st, ⟨hst.closes hst.toCounts hf hid.symm hcontract rfl
    (Dict.set_eq_self hcontract).symm (Dict.set_eq_self hf).symm rfl,
    .inl ⟨hstatus, rfl, .inr hstatus⟩⟩, hstatus, ?_⟩
  rw [← hcloses]
  exact hlate

theorem resolveDispute_spec {contractId : String} {resolution : DisputeResolution}
    {deductions : List Deduction} (hnamed : s.contracts.Named TradeContract.contractId)
    (h : resolveDispute s env contractId resolution deductions = .ok t) :
    ∃ ful c c' f f' st, Concludes s t env ful c c' f f' st ∧ s.contracts.get? contractId = some c ∧
      c.status = .disputed ∧ (c.arbitrator = some env.predecessor ∨ env.predecessor = s.owner) := by
  simp only [resolveDispute, bind_eq_ok, require_eq_ok, demand_eq_ok] at h
  obtain ⟨c, hc, _, harbiter, _, hstatus, ⟨ful, f⟩, hfind, ⟨s₁, _⟩, hsettle, c₁, hc₁, h⟩ := h
  obtain ⟨st, hst⟩ := executeSettlement_spec hsettle
  have hid : c.contractId = contractId := hnamed _ c hc
  have hmem := List.mem_of_find?_eq_some hfind
  have hf : s.fulfillments.get? ful = some f := (Dict.mem_entries_iff _ _ _).mp hmem
  have hfor : f.contractId = contractId := by simpa using List.find?_some hfind
  have hcontract : s.contracts.get? c.contractId = some c := by rw [hid]; exact hc
  have hsettled : c₁ = { c with status := .settled, updatedAt := env.nowMs } := by
    have hget : s₁.contracts.get? contractId = some c₁ := hc₁
    rw [hst.contracts, ← hid, Dict.get?_set_self] at hget
    exact (Option.some.inj hget).symm
  have h₂ := emit_eq_ok h
  have hcontracts : t.contracts = s.contracts.set c.contractId
      { c with status := resolution.finalStatus, updatedAt := env.nowMs } := by
    rw [h₂, hsettled]
    show s₁.contracts.set contractId _ = _
    rw [hst.contracts, hid, Dict.set_set]
  have hcounts : Counts s t env c st := by
    rw [h₂]
    exact ⟨hst.settlements, hst.numbered, hst.counter, hst.owed, hst.handed,
      fun hs => (hst.traders hs).of_tables rfl rfl rfl fun _ ha => ha, hst.agreements, hst.related,
      hst.scored, hst.completed⟩
  have hfulfillments : t.fulfillments = s.fulfillments.set ful f := by
    rw [Dict.set_eq_self hf, h₂]
    exact hst.fulfillments
  refine ⟨ful, c, _, f, f, st, ⟨⟨hcounts, hf, by rw [hfor, hid], hcontract, hcontracts, rfl,
    hfulfillments, rfl⟩, .inr ⟨hstatus, ?_, rfl⟩⟩, hc, hstatus, harbiter⟩
  cases resolution with
  | buyer => exact .inl rfl
  | seller => exact .inr rfl

end DirectTrade.Near
