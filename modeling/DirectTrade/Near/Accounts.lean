import DirectTrade.Near.Advancing

/-!
The accounts of a state. Whatever the calls, ids are issued once, a contract has
at most one fulfillment, and every settlement is of a known contract, within its
value, and counted once for the lot, for the pair and for each party.
-/

namespace DirectTrade.Near

open Library Outcome

variable {s t : DTPContract} {env : Env} {m : Method}

/-- The buyer and the seller of a settlement. -/
def DTPContract.deal (s : DTPContract) (st : Settlement) : Option (AccountId × AccountId) :=
  (s.contracts.get? st.contractId).map fun c => (c.buyer, c.seller)

/-- The settlements of the pair that a key names. -/
def DTPContract.settlementsBetween (s : DTPContract) (key : String) : List Settlement :=
  s.settlements.values.filter fun st =>
    decide ((s.deal st).map (fun d => RelationshipRecord.key d.1 d.2) = some key)

def DTPContract.bought (s : DTPContract) (a : AccountId) : ℕ :=
  s.settlements.values.countP fun st => decide ((s.deal st).map Prod.fst = some a)

def DTPContract.sold (s : DTPContract) (a : AccountId) : ℕ :=
  s.settlements.values.countP fun st => decide ((s.deal st).map Prod.snd = some a)

section Appending

variable {paid : List Settlement} (hvalues : t.settlements.values = s.settlements.values ++ paid)
  (hdeals : ∀ st ∈ s.settlements.values, t.deal st = s.deal st)

include hvalues

theorem settlementsOf_append (id : String) : t.settlementsOf id =
    s.settlementsOf id ++ paid.filter fun st => decide (st.contractId = id) := by
  simp [DTPContract.settlementsOf, hvalues]

include hdeals

theorem settlementsBetween_append (key : String) : t.settlementsBetween key =
    s.settlementsBetween key ++ paid.filter fun st =>
      decide ((t.deal st).map (fun d => RelationshipRecord.key d.1 d.2) = some key) := by
  rw [DTPContract.settlementsBetween, hvalues, List.filter_append]
  congr 1
  apply List.filter_congr
  intro st hst
  rw [hdeals st hst]

theorem bought_append (a : AccountId) : t.bought a =
    s.bought a + paid.countP fun st => decide ((t.deal st).map Prod.fst = some a) := by
  rw [DTPContract.bought, hvalues, List.countP_append]
  congr 1
  apply List.countP_congr
  intro st hst
  rw [hdeals st hst]

theorem sold_append (a : AccountId) : t.sold a =
    s.sold a + paid.countP fun st => decide ((t.deal st).map Prod.snd = some a) := by
  rw [DTPContract.sold, hvalues, List.countP_append]
  congr 1
  apply List.countP_congr
  intro st hst
  rw [hdeals st hst]

end Appending

/-- The guards of a settling call pass although its contract is settled already. -/
def Resettles (s : DTPContract) (env : Env) : Method → Prop
  | .buyerAttestDelivery ful _ _ => ∃ f c, s.fulfillments.get? ful = some f ∧
      s.contracts.get? f.contractId = some c ∧ c.status = .settled ∧
      f.status = .sellerAttested ∧ c.buyer = env.predecessor
  | .triggerAutoSettlement ful => ∃ f c, s.fulfillments.get? ful = some f ∧
      s.contracts.get? f.contractId = some c ∧ c.status = .settled ∧
      f.status = .sellerAttested ∧
      f.sellerAttestation.signedAt.val + c.disputeWindowHours.val * 3600000 < env.nowMs.val
  | _ => False

/-- The guards of a call that settles a contract pass. -/
def Settling (s : DTPContract) (env : Env) (c : TradeContract) : Method → Prop
  | .buyerAttestDelivery ful _ _ => ∃ f, s.fulfillments.get? ful = some f ∧
      s.contracts.get? f.contractId = some c ∧ f.status = .sellerAttested ∧
      c.buyer = env.predecessor
  | .triggerAutoSettlement ful => ∃ f, s.fulfillments.get? ful = some f ∧
      s.contracts.get? f.contractId = some c ∧ f.status = .sellerAttested ∧
      f.sellerAttestation.signedAt.val + c.disputeWindowHours.val * 3600000 < env.nowMs.val
  | .resolveDispute contractId _ _ => s.contracts.get? contractId = some c ∧
      c.status = .disputed ∧ (c.arbitrator = some env.predecessor ∨ env.predecessor = s.owner) ∧
      ∃ f ∈ s.fulfillments.values, f.contractId = contractId
  | _ => False

theorem Settling.resettles {c : TradeContract} (h : Settling s env c m)
    (hsettled : c.status = .settled) : Resettles s env m := by
  cases m with
  | buyerAttestDelivery ful notes deductions =>
    obtain ⟨f, hf, hc, hattested, hbuyer⟩ := h
    exact ⟨f, c, hf, hc, hsettled, hattested, hbuyer⟩
  | triggerAutoSettlement ful =>
    obtain ⟨f, hf, hc, hattested, hlate⟩ := h
    exact ⟨f, c, hf, hc, hsettled, hattested, hlate⟩
  | resolveDispute contractId resolution deductions =>
    obtain ⟨-, hdisputed, -⟩ := h
    rw [hsettled] at hdisputed
    cases hdisputed
  | _ => exact absurd h id

/-- The effect of an accepted call on the trades. -/
inductive Turn (s t : DTPContract) (env : Env) (m : Method) : Prop
  | kept (h : Kept s t) (how : Manner s t env m)
  | formed (offer : Offer) (c : TradeContract) (h : Forms s t env offer c)
      (hm : ∃ id arbitrator agreement, m = .acceptOffer id arbitrator agreement ∧
        s.offers.get? id = some offer)
  | attested (ful : String) (c c' : TradeContract) (f : Fulfillment) (h : Handles s t ful c c' f)
      (hbefore : c.status = .active ∨ c.status = .inFulfillment)
      (hafter : c'.status = .inFulfillment) (hattested : f.status = .sellerAttested)
      (hnone : ∀ g ∈ s.fulfillments.values, g.contractId ≠ f.contractId)
      (hful : ful = "ful-" ++ toString (s.idCounter.val + 1))
      (hcounter : t.idCounter.val = s.idCounter.val + 1) (hm : m.stocks = false)
  | disputed (ful : String) (c c' : TradeContract) (f f' : Fulfillment)
      (h : Handles s t ful c c' f') (hf : s.fulfillments.get? ful = some f)
      (hfor : f'.contractId = f.contractId)
      (hbefore : c.status = .inFulfillment ∨ c.status = .delivered)
      (hafter : c'.status = .disputed) (hdisputed : f'.status = .disputed)
      (hm : m.stocks = false)
  | concluded (ful : String) (c c' : TradeContract) (f f' : Fulfillment) (st : Settlement)
      (h : Concludes s t env ful c c' f f' st) (hsettling : Settling s env c m)
      (hm : m.stocks = false)

theorem Turn.quietly (h : Quiet s t) (hm : m.stocks = false) : Turn s t env m :=
  .kept h.toKept (.quiet h hm)

/-- The counter of ids never goes back. -/
theorem Turn.counter_le (h : Turn s t env m) : s.idCounter.val ≤ t.idCounter.val := by
  cases h with
  | kept h how => exact h.counter
  | formed offer c h hm => exact h.rest.counter
  | attested ful c c' f h hbefore hafter hattested hnone hful hcounter hm => exact h.rest.counter
  | disputed ful c c' f f' h hf hfor hbefore hafter hdisputed hm => exact h.rest.counter
  | concluded ful c c' f f' st h hsettling hm =>
    rw [h.counter]
    exact Nat.le_succ _

theorem execute_turn (hissued : LotsIssued s) (hnamed : s.contracts.Named TradeContract.contractId)
    (h : execute s env m = .ok t) : Turn s t env m := by
  cases m with
  | registerParty => exact .quietly (.registerParty h) rfl
  | addCertification cert => exact .quietly (.addCertification h) rfl
  | addKybAttestation kyb => exact .quietly (.addKybAttestation h) rfl
  | updatePartyIdentity gln duns pcqi uri => exact .quietly (.updatePartyIdentity h) rfl
  | authorizeAgent agent => exact .quietly (.authorizeAgent h) rfl
  | revokeAgent agent => exact .quietly (.revokeAgent h) rfl
  | postIntent goods delivery pricing finance freight expiresAt =>
    obtain ⟨⟨_, id⟩, hcall, rfl⟩ := (map_eq_ok _ _ _).mp h
    exact .quietly (.postIntent hcall) rfl
  | cancelIntent id => exact .quietly (.cancelIntent h) rfl
  | postListing lotId goods delivery pricing finance freight certs availableFrom expiresAt =>
    obtain ⟨⟨_, id⟩, hcall, rfl⟩ := (map_eq_ok _ _ _).mp h
    exact .quietly (.postListing hcall) rfl
  | withdrawListing id => exact .quietly (.withdrawListing h) rfl
  | submitOffer targetId targetType goods delivery finance freight price total certs expiresAt =>
    obtain ⟨⟨_, id⟩, hcall, rfl⟩ := (map_eq_ok _ _ _).mp h
    exact .quietly (.submitOffer hcall) rfl
  | retractOffer id => exact .quietly (.retractOffer h) rfl
  | acceptOffer offerId arbitrator agreement =>
    obtain ⟨⟨_, id⟩, hcall, rfl⟩ := (map_eq_ok _ _ _).mp h
    obtain ⟨offer, c, hoffer, hforms⟩ := acceptOffer_spec hcall
    exact .formed offer c hforms ⟨offerId, arbitrator, agreement, rfl, hoffer⟩
  | sellerAttestDelivery contractId quantity notes =>
    obtain ⟨⟨_, id⟩, hcall, rfl⟩ := (map_eq_ok _ _ _).mp h
    obtain ⟨c, c', f, hhandles, hfor, hbefore, hafter, hattested, hnone, hful, hcounter⟩ :=
      sellerAttestDelivery_spec hcall
    rw [← hfor] at hnone
    exact .attested id c c' f hhandles hbefore hafter hattested hnone hful hcounter rfl
  | buyerAttestDelivery ful notes deductions =>
    obtain ⟨⟨_, id⟩, hcall, rfl⟩ := (map_eq_ok _ _ _).mp h
    obtain ⟨c, c', f, f', st, hconcludes, hbuyer, hattested⟩ :=
      buyerAttestDelivery_spec hnamed hcall
    have hcontract : s.contracts.get? f.contractId = some c := by
      rw [hconcludes.belongs]
      exact hconcludes.contract
    exact .concluded ful c c' f f' st hconcludes
      ⟨f, hconcludes.fulfillment, hcontract, hattested, hbuyer⟩ rfl
  | initiateDispute ful reason =>
    obtain ⟨c, c', f, f', hhandles, hf, hfor, hbefore, hafter, hdisputed, -⟩ :=
      initiateDispute_spec h
    exact .disputed ful c c' f f' hhandles hf hfor hbefore hafter hdisputed rfl
  | triggerAutoSettlement ful =>
    obtain ⟨⟨_, id⟩, hcall, rfl⟩ := (map_eq_ok _ _ _).mp h
    obtain ⟨c, c', f, f', st, hconcludes, hattested, hlate⟩ :=
      triggerAutoSettlement_spec hnamed hcall
    have hcontract : s.contracts.get? f.contractId = some c := by
      rw [hconcludes.belongs]
      exact hconcludes.contract
    exact .concluded ful c c' f f' st hconcludes
      ⟨f, hconcludes.fulfillment, hcontract, hattested, hlate⟩ rfl
  | resolveDispute contractId resolution deductions =>
    obtain ⟨ful, c, c', f, f', st, hconcludes, hc, hdisputed, harbiter⟩ :=
      resolveDispute_spec hnamed h
    have hfor : f.contractId = contractId := by
      rw [hconcludes.belongs]
      exact hnamed _ c hc
    exact .concluded ful c c' f f' st hconcludes ⟨hc, hdisputed, harbiter, f,
      Dict.mem_values_of_get? hconcludes.fulfillment, hfor⟩ rfl
  | proposeStandingAgreement role counterparty goods start finish volume pricing cadence renewal =>
    obtain ⟨⟨_, id⟩, hcall, rfl⟩ := (map_eq_ok _ _ _).mp h
    obtain ⟨hbonds, hlots, hparties⟩ := Bonds.proposeStandingAgreement hcall
    exact .kept (.proposeStandingAgreement hcall) (.bonded hbonds rfl hlots hparties)
  | signStandingAgreement id =>
    obtain ⟨hbonds, hlots, hparties⟩ := Bonds.signStandingAgreement h
    exact .kept (.signStandingAgreement h) (.bonded hbonds rfl hlots hparties)
  | createCatalogEntry entry =>
    obtain ⟨⟨_, id⟩, hcall, rfl⟩ := (map_eq_ok _ _ _).mp h
    exact .quietly (.createCatalogEntry hcall) rfl
  | updateCatalogEntry id entry => exact .quietly (.updateCatalogEntry h) rfl
  | createLot lot =>
    obtain ⟨⟨_, id⟩, hcall, rfl⟩ := (map_eq_ok _ _ _).mp h
    obtain ⟨hstock, hagreements, hrelationships, hparties⟩ := Stocks.createLot hcall
    exact .kept (.createLot hissued hcall) (.stocked hstock hagreements hrelationships hparties)
  | disposeLot id disposition =>
    obtain ⟨hstock, hagreements, hrelationships, hparties⟩ := Stocks.disposeLot h
    exact .kept (.disposeLot h) (.stocked hstock hagreements hrelationships hparties)
  | recordCteReceiving request gln => exact .quietly (.recordCte h) rfl
  | recordCteShipping request gln => exact .quietly (.recordCte h) rfl
  | recordCteGrowing request commodity variety gln => exact .quietly (.recordCte h) rfl
  | recordCteCreating request commodity variety gln => exact .quietly (.recordCte h) rfl
  | transformLot inputs output =>
    obtain ⟨⟨_, id⟩, hcall, rfl⟩ := (map_eq_ok _ _ _).mp h
    obtain ⟨hstock, hagreements, hrelationships, hparties⟩ := Stocks.transformLot hcall
    exact .kept (.transformLot hissued hcall) (.stocked hstock hagreements hrelationships hparties)
  | anchorCoa id certType issuer docHash expiresAt =>
    obtain ⟨hstock, hagreements, hrelationships, hparties⟩ := Stocks.anchorCoa h
    exact .kept (.anchorCoa h) (.stocked hstock hagreements hrelationships hparties)
  | registerFinancePool poolId account rate available => exact .quietly (.registerFinancePool h) rfl
  | confirmFinancing contractId poolId => exact .quietly (.confirmFinancing h) rfl

/-- Every contract keeps its terms. -/
def Rewritten (s t : DTPContract) : Prop :=
  ∀ id c, s.contracts.get? id = some c → ∃ c', t.contracts.get? id = some c' ∧ Restated c c'

theorem Restated.refl (c : TradeContract) : Restated c c := rfl

theorem Rewritten.of_eq (h : t.contracts = s.contracts) : Rewritten s t := by
  intro id c hc
  exact ⟨c, by rw [h]; exact hc, .refl c⟩

theorem Rewritten.of_new {id : String} {c : TradeContract} (hnew : s.contracts.get? id = none)
    (h : t.contracts = s.contracts.set id c) : Rewritten s t := by
  intro i x hx
  have hne : i ≠ id := by
    intro heq
    rw [heq, hnew] at hx
    cases hx
  exact ⟨x, by rw [h, Dict.get?_set_of_ne _ _ hne]; exact hx, .refl x⟩

theorem Rewritten.of_set {id : String} {c c' : TradeContract} (hc : s.contracts.get? id = some c)
    (hrestated : Restated c c') (h : t.contracts = s.contracts.set id c') : Rewritten s t := by
  intro i x hx
  by_cases hi : i = id
  · subst i
    rw [hc] at hx
    cases hx
    exact ⟨c', by rw [h, Dict.get?_set_self], hrestated⟩
  · exact ⟨x, by rw [h, Dict.get?_set_of_ne _ _ hi]; exact hx, .refl x⟩

theorem Rewritten.deal (h : Rewritten s t) {st : Settlement} {c : TradeContract}
    (hc : s.contracts.get? st.contractId = some c) : t.deal st = s.deal st := by
  obtain ⟨c', hc', hrestated⟩ := h _ c hc
  rw [hrestated] at hc'
  simp [DTPContract.deal, hc, hc']

/-- Every settlement is of a known contract, within its value, and was counted once
for the lot, for the pair and for each of the two parties. -/
structure Accounted (s : DTPContract) : Prop where
  settled : ∀ st ∈ s.settlements.values,
    ∃ c, s.contracts.get? st.contractId = some c ∧ st.netAmount ≤ c.totalValue
  parties : ∀ id c, s.contracts.get? id = some c →
    Registered s c.buyer ∧ Registered s c.seller
  transfers : ∀ id c l, s.contracts.get? id = some c →
    s.transfers l id = if c.lotId = some l then (s.settlementsOf id).length else 0
  strays : ∀ id l, s.contracts.get? id = none → s.transfers l id = 0
  traded : ∀ key, s.traded key = ((s.settlementsBetween key).length,
    ((s.settlementsBetween key).map fun st => st.netAmount.val).sum)
  completed : ∀ a n, s.completed a = some n → n = s.bought a + s.sold a

theorem Accounted.deals (hs : Accounted s) (h : Rewritten s t) :
    ∀ st ∈ s.settlements.values, t.deal st = s.deal st := by
  intro st hst
  obtain ⟨c, hc, -⟩ := hs.settled st hst
  exact h.deal hc

/-- A contract that does not exist was not settled. -/
theorem Accounted.settlementsOf_none (hs : Accounted s) {id : String}
    (h : s.contracts.get? id = none) : s.settlementsOf id = [] := by
  apply List.filter_eq_nil_iff.mpr
  intro st hst hid
  obtain ⟨c, hc, -⟩ := hs.settled st hst
  have heq : st.contractId = id := by simpa using hid
  rw [heq, h] at hc
  cases hc

/-- A party that is not registered has not traded. -/
theorem Accounted.untraded (hs : Accounted s) {a : AccountId} (ha : s.completed a = none) :
    s.bought a = 0 ∧ s.sold a = 0 := by
  constructor
  all_goals
    apply List.countP_eq_zero.mpr
    intro st hst hdeal
    obtain ⟨c, hc, -⟩ := hs.settled st hst
    have hparty : Registered s a := by
      simp [DTPContract.deal, hc] at hdeal
      first | exact hdeal ▸ (hs.parties _ c hc).1 | exact hdeal ▸ (hs.parties _ c hc).2
    exact hparty ha

theorem Accounted.new (owner : AccountId) : Accounted (.new owner) where
  settled := fun _ h => nomatch h
  parties := fun _ _ h => nomatch h
  transfers := fun _ _ _ h => nomatch h
  strays := fun _ _ _ => rfl
  traded := fun _ => rfl
  completed := fun _ _ h => nomatch h

/-- Calls that settle nothing keep the accounts. -/
theorem Accounted.silent (hs : Accounted s) (hrewritten : Rewritten s t)
    (hkept : Kept s { t with contracts := s.contracts, fulfillments := s.fulfillments })
    (hnew : ∀ id c, s.contracts.get? id = none → t.contracts.get? id = some c →
      Registered s c.buyer ∧ Registered s c.seller) : Accounted t := by
  have hvalues : t.settlements.values = s.settlements.values ++ [] := by
    have hsame : t.settlements = s.settlements := hkept.settlements
    rw [hsame, List.append_nil]
  have hdeals := hs.deals hrewritten
  have htransfers : ∀ l x, t.transfers l x = s.transfers l x := hkept.transfers
  have htraded : ∀ k, t.traded k = s.traded k := hkept.traded
  have hof : ∀ id, t.settlementsOf id = s.settlementsOf id := by
    intro id
    simpa using settlementsOf_append hvalues id
  have hbetween : ∀ key, t.settlementsBetween key = s.settlementsBetween key := by
    intro key
    simpa using settlementsBetween_append hvalues hdeals key
  have hbought : ∀ a, t.bought a = s.bought a := by
    intro a
    simpa using bought_append hvalues hdeals a
  have hsold : ∀ a, t.sold a = s.sold a := by
    intro a
    simpa using sold_append hvalues hdeals a
  have hregistered : ∀ a, Registered s a → Registered t a := fun a => hkept.registered
  -- a contract of the new state is new, or an old one with the same terms
  have hback : ∀ id c, t.contracts.get? id = some c →
      s.contracts.get? id = none ∨ ∃ x, s.contracts.get? id = some x ∧ Restated x c := by
    intro id c hc
    cases hx : s.contracts.get? id with
    | none => exact .inl rfl
    | some x =>
      obtain ⟨c', hc', hrestated⟩ := hrewritten id x hx
      rw [hc] at hc'
      cases hc'
      exact .inr ⟨x, rfl, hrestated⟩
  exact {
    settled := by
      intro st hst
      rw [hvalues, List.append_nil] at hst
      obtain ⟨c, hc, hnet⟩ := hs.settled st hst
      obtain ⟨c', hc', hrestated⟩ := hrewritten _ c hc
      rw [hrestated] at hc'
      exact ⟨_, hc', hnet⟩
    parties := by
      intro id c hc
      obtain hnone | ⟨x, hx, hrestated⟩ := hback id c hc
      · obtain ⟨hbuyer, hseller⟩ := hnew id c hnone hc
        exact ⟨hregistered _ hbuyer, hregistered _ hseller⟩
      · obtain ⟨hbuyer, hseller⟩ := hs.parties id x hx
        rw [hrestated]
        exact ⟨hregistered _ hbuyer, hregistered _ hseller⟩
    transfers := by
      intro id c l hc
      rw [htransfers, hof]
      obtain hnone | ⟨x, hx, hrestated⟩ := hback id c hc
      · rw [hs.strays id l hnone, hs.settlementsOf_none hnone]
        simp
      · rw [hs.transfers id x l hx, hrestated]
    strays := by
      intro id l hnone
      rw [htransfers]
      cases hx : s.contracts.get? id with
      | none => exact hs.strays id l hx
      | some x =>
        obtain ⟨c', hc', -⟩ := hrewritten id x hx
        rw [hnone] at hc'
        cases hc'
    traded := by
      intro key
      rw [htraded, hbetween]
      exact hs.traded key
    completed := by
      intro a n hn
      rw [hbought, hsold]
      cases ha : s.completed a with
      | none =>
        obtain ⟨hb, hsl⟩ := hs.untraded ha
        have hzero : n = 0 := hkept.joined a n ha hn
        omega
      | some k =>
        have hk : t.completed a = some k := hkept.completed a k ha
        rw [hn] at hk
        cases hk
        exact hs.completed a n ha }

/-- A settlement is added to the accounts. -/
theorem Accounted.closes (hs : Accounted s) {ful : String} {c c' : TradeContract}
    {f f' : Fulfillment} {st : Settlement} (h : Closes s t env ful c c' f f' st)
    (hfresh : s.settlements.get? st.settlementId = none) : Accounted t := by
  have hvalues : t.settlements.values = s.settlements.values ++ [st] := by
    rw [h.settlements]
    exact Dict.values_set_of_none hfresh st
  have hrewritten : Rewritten s t := .of_set h.contract h.restated h.contracts
  have hdeals := hs.deals hrewritten
  obtain ⟨howed, hnet⟩ := h.owed
  have hdeal : t.deal st = some (c.buyer, c.seller) := by
    have hget : t.contracts.get? st.contractId = some c' := by
      rw [h.contracts, howed, Dict.get?_set_self]
    rw [DTPContract.deal, hget, h.restated]
    rfl
  have hof : ∀ id, t.settlementsOf id =
      s.settlementsOf id ++ if c.contractId = id then [st] else [] := by
    intro id
    rw [settlementsOf_append hvalues id]
    by_cases hid : c.contractId = id <;> simp [howed, hid]
  have hbetween : ∀ key, t.settlementsBetween key = s.settlementsBetween key ++
      if key = RelationshipRecord.key c.buyer c.seller then [st] else [] := by
    intro key
    rw [settlementsBetween_append hvalues hdeals key]
    by_cases hkey : key = RelationshipRecord.key c.buyer c.seller
    · simp [hdeal, hkey]
    · simp [hdeal, hkey, Ne.symm hkey]
  have hbought : ∀ a, t.bought a = s.bought a + if a = c.buyer then 1 else 0 := by
    intro a
    rw [bought_append hvalues hdeals a]
    by_cases ha : a = c.buyer
    · simp [hdeal, ha]
    · simp [hdeal, ha, Ne.symm ha]
  have hsold : ∀ a, t.sold a = s.sold a + if a = c.seller then 1 else 0 := by
    intro a
    rw [sold_append hvalues hdeals a]
    by_cases ha : a = c.seller
    · simp [hdeal, ha]
    · simp [hdeal, ha, Ne.symm ha]
  have hregistered : ∀ a, Registered s a → Registered t a := by
    intro a ha
    unfold Registered at ha ⊢
    rw [h.completed a]
    cases hn : s.completed a with
    | none => exact absurd hn ha
    | some n => simp
  have hback : ∀ id x', t.contracts.get? id = some x' →
      ∃ x, s.contracts.get? id = some x ∧ Restated x x' := by
    intro id x' hx'
    rw [h.contracts, Dict.get?_set] at hx'
    split at hx'
    next hid =>
      cases hx'
      exact ⟨c, by rw [hid]; exact h.contract, h.restated⟩
    next => exact ⟨x', hx', .refl x'⟩
  exact {
    settled := by
      intro x hx
      rw [hvalues, List.mem_append, List.mem_singleton] at hx
      obtain hx | rfl := hx
      · obtain ⟨y, hy, hle⟩ := hs.settled x hx
        obtain ⟨y', hy', hrestated⟩ := hrewritten _ y hy
        rw [hrestated] at hy'
        exact ⟨_, hy', hle⟩
      · refine ⟨c', ?_, ?_⟩
        · rw [h.contracts, howed, Dict.get?_set_self]
        · rw [h.restated]
          exact hnet
    parties := by
      intro id x' hx'
      obtain ⟨x, hx, hrestated⟩ := hback id x' hx'
      obtain ⟨hbuyer, hseller⟩ := hs.parties id x hx
      rw [hrestated]
      exact ⟨hregistered _ hbuyer, hregistered _ hseller⟩
    transfers := by
      intro id x' l hx'
      obtain ⟨x, hx, hrestated⟩ := hback id x' hx'
      rw [h.transfers, hs.transfers id x l hx, hof, hrestated]
      by_cases hid : c.contractId = id
      · have hsame : x = c := by
          rw [← hid, h.contract] at hx
          exact (Option.some.inj hx).symm
        subst x
        by_cases hl : c.lotId = some l <;> simp [hid, hl]
      · simp [hid]
    strays := by
      intro id l hnone
      rw [h.contracts, Dict.get?_set] at hnone
      split at hnone
      next => cases hnone
      next hid =>
        rw [h.transfers, hs.strays id l hnone]
        simp [Ne.symm hid]
    traded := by
      intro key
      rw [h.traded, hs.traded, hbetween]
      by_cases hkey : key = RelationshipRecord.key c.buyer c.seller <;> simp [hkey]
    completed := by
      intro a n hn
      rw [h.completed a] at hn
      cases hk : s.completed a with
      | none => simp [hk] at hn
      | some k =>
        have hcount := hs.completed a k hk
        rw [hk, Option.map_some, Option.some.injEq] at hn
        rw [hbought, hsold]
        omega }

/-- Ids are issued by the counter, and every fulfillment is the only one of its contract. -/
structure Filed (s : DTPContract) : Prop where
  lots : LotsIssued s
  contracts : Issued "ctr-" s.idCounter.val s.contracts
  fulfillments : Issued "ful-" s.idCounter.val s.fulfillments
  settlements : Issued "set-" s.idCounter.val s.settlements
  named : s.contracts.Named TradeContract.contractId
  traders : Traders s
  delivered : ∀ i f, s.fulfillments.get? i = some f → s.contracts.get? f.contractId ≠ none
  once : ∀ i j f g, s.fulfillments.get? i = some f → s.fulfillments.get? j = some g →
    f.contractId = g.contractId → i = j

theorem Filed.new (owner : AccountId) : Filed (.new owner) where
  lots := issued_empty _ _
  contracts := issued_empty _ _
  fulfillments := issued_empty _ _
  settlements := issued_empty _ _
  named := Dict.named_empty _
  traders := ⟨(fun _ _ h => nomatch h), (fun _ _ h => nomatch h), (fun _ _ h => nomatch h)⟩
  delivered := fun _ _ h => nomatch h
  once := fun _ _ _ _ h => nomatch h

theorem Restated.contractId {c c' : TradeContract} (h : Restated c c') :
    c'.contractId = c.contractId := by
  rw [h]

theorem Filed.kept (hs : Filed s) (h : Kept s t) : Filed t where
  lots := h.lots hs.lots
  contracts := by
    rw [h.contracts]
    exact hs.contracts.mono h.counter
  fulfillments := by
    rw [h.fulfillments]
    exact hs.fulfillments.mono h.counter
  settlements := by
    rw [h.settlements]
    exact hs.settlements.mono h.counter
  named := by
    rw [h.contracts]
    exact hs.named
  traders := h.traders hs.traders
  delivered := by
    rw [h.fulfillments, h.contracts]
    exact hs.delivered
  once := by
    rw [h.fulfillments]
    exact hs.once

theorem Rewritten.known (h : Rewritten s t) {id : String} (hid : s.contracts.get? id ≠ none) :
    t.contracts.get? id ≠ none := by
  cases hc : s.contracts.get? id with
  | none => exact absurd hc hid
  | some c =>
    obtain ⟨c', hc', -⟩ := h id c hc
    simp [hc']

theorem Forms.fresh {offer : Offer} {c : TradeContract} (h : Forms s t env offer c)
    (hs : Filed s) : s.contracts.get? c.contractId = none := by
  rw [h.numbered, h.counter]
  exact hs.contracts.fresh (by omega)

theorem Filed.formed (hs : Filed s) {offer : Offer} {c : TradeContract}
    (h : Forms s t env offer c) : Filed t := by
  have hrest := hs.kept h.rest
  have hissued : IssuedBy "ctr-" t.idCounter.val c.contractId := ⟨_, le_rfl, h.numbered⟩
  have hrewritten : Rewritten s t := .of_new (h.fresh hs) h.contracts
  exact {
    lots := hrest.lots
    contracts := by
      rw [h.contracts]
      exact Issued.set hrest.contracts hissued c
    fulfillments := hrest.fulfillments
    settlements := hrest.settlements
    named := by
      rw [h.contracts]
      exact hs.named.set rfl
    traders := hrest.traders.of_tables rfl rfl rfl fun _ ha => ha
    delivered := fun i f hf => hrewritten.known (hrest.delivered i f hf)
    once := hrest.once }

/-- A fulfillment written under its id, for the contract it is of. -/
theorem Filed.writes (hs : Filed s) {id ful : String} {c c' : TradeContract} {f' : Fulfillment}
    (hc : s.contracts.get? id = some c) (hrestated : Restated c c') (hid : f'.contractId = id)
    (hcontracts : t.contracts = s.contracts.set id c')
    (hfulfillments : t.fulfillments = s.fulfillments.set ful f')
    (hcounter : s.idCounter.val ≤ t.idCounter.val) (hissued : IssuedBy "ful-" t.idCounter.val ful)
    (hsettlements : Issued "set-" t.idCounter.val t.settlements) (hlots : LotsIssued t)
    (htraders : Traders t)
    (honly : ∀ i f, s.fulfillments.get? i = some f → f.contractId = id → i = ful) : Filed t where
  lots := hlots
  contracts := by
    rw [hcontracts]
    exact (hs.contracts.mono hcounter).replace hc c'
  fulfillments := by
    rw [hfulfillments]
    exact (hs.fulfillments.mono hcounter).set hissued f'
  settlements := hsettlements
  named := by
    rw [hcontracts]
    have hname : c'.contractId = id := by rw [hrestated.contractId, hs.named id c hc]
    exact hs.named.set hname
  traders := htraders
  delivered := by
    have hrewritten : Rewritten s t := .of_set hc hrestated hcontracts
    intro i f hf
    rw [hfulfillments, Dict.get?_set] at hf
    split at hf
    next =>
      cases hf
      apply hrewritten.known
      simp [hid, hc]
    next => exact hrewritten.known (hs.delivered i f hf)
  once := by
    intro i j f g hf hg hsame
    rw [hfulfillments, Dict.get?_set] at hf hg
    split at hf <;> split at hg
    next hi hj => rw [hi, hj]
    next hi hj =>
      cases hf
      rw [hi]
      exact (honly j g hg (by rw [← hsame, hid])).symm
    next hi hj =>
      cases hg
      rw [hj]
      exact honly i f hf (by rw [hsame, hid])
    next => exact hs.once i j f g hf hg hsame

theorem Filed.turn (hs : Filed s) (h : Turn s t env m) : Filed t := by
  cases h with
  | kept h how => exact hs.kept h
  | formed offer c h hm => exact hs.formed h
  | attested ful c c' f h hbefore hafter hattested hnone hful hcounter hm =>
    have hrest := hs.kept h.rest.toKept
    refine hs.writes h.contract h.restated rfl h.contracts h.fulfillments h.rest.counter ?_
      hrest.settlements hrest.lots (hrest.traders.of_tables rfl rfl rfl fun _ ha => ha) ?_
    · exact ⟨_, le_rfl, by rw [hful, hcounter]⟩
    · intro i g hg hfor
      exact absurd hfor (hnone g (Dict.mem_values_of_get? hg))
  | disputed ful c c' f f' h hf hfor hbefore hafter hdisputed hm =>
    have hrest := hs.kept h.rest.toKept
    have hissued := (hs.fulfillments ful (by simp [hf])).mono h.rest.counter
    refine hs.writes h.contract h.restated rfl h.contracts h.fulfillments h.rest.counter hissued
      hrest.settlements hrest.lots (hrest.traders.of_tables rfl rfl rfl fun _ ha => ha) ?_
    intro i g hg hsame
    exact hs.once i ful g f hg hf (by rw [hsame, hfor])
  | concluded ful c c' f f' st h hsettling hm =>
    have hcounter : s.idCounter.val ≤ t.idCounter.val := by rw [h.counter]; omega
    have hissued := (hs.fulfillments ful (by simp [h.fulfillment])).mono hcounter
    refine hs.writes h.contract h.restated (by rw [h.stays, h.belongs]) h.contracts h.fulfillments
      hcounter hissued ?_ (h.lots hs.lots) (h.traders hs.traders) ?_
    · rw [h.settlements]
      exact (hs.settlements.mono hcounter).set ⟨_, le_rfl, h.numbered⟩ st
    · intro i g hg hsame
      exact hs.once i ful g f hg h.fulfillment (by rw [hsame, h.belongs])

theorem Closes.fresh {ful : String} {c c' : TradeContract} {f f' : Fulfillment} {st : Settlement}
    (h : Closes s t env ful c c' f f' st) (hs : Filed s) :
    s.settlements.get? st.settlementId = none := by
  rw [h.numbered, h.counter]
  exact hs.settlements.fresh (by omega)

/-- The accounts agree after every accepted call. -/
theorem Accounted.turn (hs : Accounted s) (hfiled : Filed s) (h : Turn s t env m) :
    Accounted t := by
  cases h with
  | kept h how =>
    refine hs.silent (.of_eq h.contracts) ?_ ?_
    · exact h.trans (.of_tables h.contracts.symm h.fulfillments.symm rfl rfl rfl rfl rfl rfl
        rfl le_rfl)
    · intro id c hnone hc
      rw [h.contracts, hnone] at hc
      cases hc
  | formed offer c h hm =>
    refine hs.silent (.of_new (h.fresh hfiled) h.contracts) ?_ ?_
    · exact h.rest.trans (.of_tables rfl h.rest.fulfillments.symm rfl rfl rfl rfl
      rfl rfl rfl le_rfl)
    · intro id x hnone hx
      rw [h.contracts, Dict.get?_set] at hx
      split at hx
      · cases hx
        exact h.parties hfiled.traders
      · rw [hnone] at hx
        cases hx
  | attested ful c c' f h =>
    refine hs.silent (.of_set h.contract h.restated h.contracts) h.rest.toKept ?_
    intro id x hnone hx
    rw [h.contracts, Dict.get?_set] at hx
    split at hx
    next hid =>
      rw [hid, h.contract] at hnone
      cases hnone
    next =>
      rw [hnone] at hx
      cases hx
  | disputed ful c c' f f' h =>
    refine hs.silent (.of_set h.contract h.restated h.contracts) h.rest.toKept ?_
    intro id x hnone hx
    rw [h.contracts, Dict.get?_set] at hx
    split at hx
    next hid =>
      rw [hid, h.contract] at hnone
      cases hnone
    next =>
      rw [hnone] at hx
      cases hx
  | concluded ful c c' f f' st h hsettling hm =>
    exact hs.closes h.toCloses (h.fresh hfiled)

end DirectTrade.Near
