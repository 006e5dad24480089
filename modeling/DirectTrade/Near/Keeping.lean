import DirectTrade.Near.Effects

/-!
The calls that keep the trades: those on parties, intents, listings and offers up
to acceptance, agreements, the catalog, lots, tracking events and finance pools.
-/

namespace DirectTrade.Near

open Library Outcome

variable {s t : DTPContract} {env : Env}

theorem Quiet.registerParty (h : Near.registerParty s env = .ok t) : Quiet s t := by
  simp only [Near.registerParty, bind_eq_ok, demand_eq_ok] at h
  obtain ⟨-, hnew, h⟩ := h
  cases h
  exact { Kept.newParty hnew rfl with
    stock := rfl
    agreements := rfl
    relationships := rfl
    reputations := .set (fun q hq => by rw [hnew] at hq; cases hq) fun _ => rfl }

theorem Quiet.addCertification {cert : CertificationRef}
    (h : Near.addCertification s env cert = .ok t) : Quiet s t := by
  simp only [Near.addCertification, bind_eq_ok, require_eq_ok] at h
  obtain ⟨party, hparty, h⟩ := h
  cases h
  exact .setParty hparty rfl

theorem Quiet.addKybAttestation {kyb : KybRef} (h : Near.addKybAttestation s env kyb = .ok t) :
    Quiet s t := by
  simp only [Near.addKybAttestation, bind_eq_ok, require_eq_ok] at h
  obtain ⟨party, hparty, h⟩ := h
  cases h
  exact .setParty hparty rfl

theorem Quiet.updatePartyIdentity {gln duns uri : Option String} {pcqi : Option Bool}
    (h : Near.updatePartyIdentity s env gln duns pcqi uri = .ok t) : Quiet s t := by
  simp only [Near.updatePartyIdentity, bind_eq_ok, require_eq_ok] at h
  obtain ⟨party, hparty, _, -, _, -, h⟩ := h
  exact Quiet.emit h (.setParty hparty rfl)

theorem Quiet.authorizeAgent {agent : AccountId} (h : Near.authorizeAgent s env agent = .ok t) :
    Quiet s t := by
  simp only [Near.authorizeAgent, bind_eq_ok, require_eq_ok, demand_eq_ok] at h
  obtain ⟨party, hparty, -, -, h⟩ := h
  split at h
  · cases h
    exact .refl s
  · cases h
    exact .setParty hparty rfl

theorem Quiet.revokeAgent {agent : AccountId} (h : Near.revokeAgent s env agent = .ok t) :
    Quiet s t := by
  simp only [Near.revokeAgent, bind_eq_ok, require_eq_ok] at h
  obtain ⟨party, hparty, h⟩ := h
  cases h
  exact .setParty hparty rfl

theorem caller_registered {u : Unit} (h : requireParty s env.predecessor = .ok u) :
    Registered s env.predecessor := by
  simp only [requireParty, demand_eq_ok] at h
  exact registered_iff.mpr h

theorem Quiet.postIntent {goods : GoodsSpec} {delivery : DeliverySpec} {pricing : BuyerPricing}
    {finance : Option FinanceTerms} {freight : Option FreightTerms} {expiresAt : U64} {id : String}
    (h : Near.postIntent s env goods delivery pricing finance freight expiresAt = .ok (t, id)) :
    Quiet s t := by
  simp only [Near.postIntent, bind_eq_ok] at h
  obtain ⟨_, hparty, _, -, _, -, ⟨u, intentId⟩, hid, _, hemit, h⟩ := h
  cases h
  have hkept := Quiet.nextIdFor hid
  refine Quiet.emit hemit (hkept.trans (.of_kept (.setIntent fun _ => ?_) rfl rfl rfl rfl))
  exact hkept.registered (caller_registered hparty)

theorem Quiet.cancelIntent {id : String} (h : Near.cancelIntent s env id = .ok t) : Quiet s t := by
  simp only [Near.cancelIntent, bind_eq_ok, require_eq_ok] at h
  obtain ⟨intent, hintent, _, -, _, -, h⟩ := h
  refine Quiet.emit h (.of_kept (.setIntent fun hs => ?_) rfl rfl rfl rfl)
  exact hs.buyers id intent hintent

theorem Quiet.postListing {lotId : Option String} {goods : GoodsSpec} {delivery : DeliverySpec}
    {pricing : SellerPricing} {finance : Option FinanceTerms} {freight : Option FreightTerms}
    {certifications : List CertificationRef} {availableFrom expiresAt : U64} {id : String}
    (h : Near.postListing s env lotId goods delivery pricing finance freight certifications
      availableFrom expiresAt = .ok (t, id)) : Quiet s t := by
  simp only [Near.postListing, bind_eq_ok] at h
  obtain ⟨_, hparty, _, -, _, -, _, -, ⟨u, listingId⟩, hid, _, hemit, h⟩ := h
  cases h
  have hkept := Quiet.nextIdFor hid
  refine Quiet.emit hemit (hkept.trans (.of_kept (.setListing fun _ => ?_) rfl rfl rfl rfl))
  exact hkept.registered (caller_registered hparty)

theorem Quiet.withdrawListing {id : String} (h : Near.withdrawListing s env id = .ok t) :
    Quiet s t := by
  simp only [Near.withdrawListing, bind_eq_ok, require_eq_ok] at h
  obtain ⟨listing, hlisting, _, -, _, -, h⟩ := h
  refine Quiet.emit h (.of_kept (.setListing fun hs => ?_) rfl rfl rfl rfl)
  exact hs.sellers id listing hlisting

theorem Quiet.submitOffer {targetId : String} {targetType : OfferTargetType} {goods : GoodsSpec}
    {delivery : DeliverySpec} {finance : Option FinanceTerms} {freight : Option FreightTerms}
    {price total : Amount} {certifications : List CertificationRef} {expiresAt : U64} {id : String}
    (h : Near.submitOffer s env targetId targetType goods delivery finance freight price total
      certifications expiresAt = .ok (t, id)) : Quiet s t := by
  simp only [Near.submitOffer, bind_eq_ok] at h
  obtain ⟨_, hparty, _, -, _, -, _, -, ⟨u, offerId⟩, hid, _, hemit, h⟩ := h
  cases h
  have hkept := Quiet.nextIdFor hid
  refine Quiet.emit hemit (hkept.trans (.of_kept (.setOffer fun _ => ?_) rfl rfl rfl rfl))
  exact hkept.registered (caller_registered hparty)

theorem Quiet.retractOffer {id : String} (h : Near.retractOffer s env id = .ok t) : Quiet s t := by
  simp only [Near.retractOffer, bind_eq_ok, require_eq_ok] at h
  obtain ⟨offer, hoffer, _, -, _, -, h⟩ := h
  refine Quiet.emit h (.of_kept (.setOffer fun hs => ?_) rfl rfl rfl rfl)
  exact hs.offerers id offer hoffer

theorem Kept.proposeStandingAgreement {role : ProposerRole} {counterparty : AccountId}
    {goods : GoodsSpec} {start finish : U64} {volume : VolumeCommitment} {pricing : SellerPricing}
    {cadence : Option String} {renewal : RenewalPolicy} {id : String}
    (h : Near.proposeStandingAgreement s env role counterparty goods start finish volume pricing
      cadence renewal = .ok (t, id)) : Kept s t := by
  simp only [Near.proposeStandingAgreement, bind_eq_ok] at h
  obtain ⟨_, -, _, -, ⟨u, agreementId⟩, hid, _, hemit, h⟩ := h
  cases h
  exact Kept.emit hemit ((Kept.nextIdFor hid).trans (.aside rfl le_rfl))

theorem Kept.linkAgreement (s : DTPContract) (env : Env) (agreement : StandingAgreement)
    (id : String) : Kept s (linkAgreement s env agreement id) := by
  unfold Near.linkAgreement
  cases hrel : s.relationships.get? (RelationshipRecord.key agreement.buyer agreement.seller) with
  | none =>
    simp only [hrel]
    exact .refl s
  | some rel =>
    simp only [hrel]
    split
    · exact .refl s
    · exact .setRelationship hrel rfl rfl

theorem Kept.signStandingAgreement {id : String}
    (h : Near.signStandingAgreement s env id = .ok t) : Kept s t := by
  simp only [Near.signStandingAgreement, bind_eq_ok] at h
  obtain ⟨_, -, agreement, -, h⟩ := h
  split at h
  · rw [bind_eq_ok] at h
    obtain ⟨_, hemit, h⟩ := h
    cases h
    exact (Kept.emit hemit (.linkAgreement s env _ id)).trans (.aside rfl le_rfl)
  · cases h
    exact .aside rfl le_rfl

theorem Quiet.createCatalogEntry {entry : GoodsCatalogEntry} {id : String}
    (h : Near.createCatalogEntry s env entry = .ok (t, id)) : Quiet s t := by
  simp only [Near.createCatalogEntry, bind_eq_ok] at h
  obtain ⟨_, -, ⟨u, catalogId⟩, hid, _, hemit, h⟩ := h
  cases h
  exact Quiet.emit hemit ((Quiet.nextIdFor hid).trans (.aside rfl le_rfl))

theorem Quiet.updateCatalogEntry {entry : GoodsCatalogEntry} {id : String}
    (h : Near.updateCatalogEntry s env id entry = .ok t) : Quiet s t := by
  simp only [Near.updateCatalogEntry, bind_eq_ok] at h
  obtain ⟨_, -, _, -, _, -, h⟩ := h
  exact Quiet.emit h (.aside rfl le_rfl)

theorem Kept.createLot {lot : GoodsLot} {id : String} (hissued : LotsIssued s)
    (h : Near.createLot s env lot = .ok (t, id)) : Kept s t := by
  simp only [Near.createLot, bind_eq_ok] at h
  obtain ⟨_, -, _, -, _, -, ⟨u, lotId⟩, hid, _, hemit, h⟩ := h
  cases h
  exact Kept.emit hemit (.newLot hissued hid rfl)

theorem Kept.disposeLot {id : String} {disposition : LotStatus}
    (h : Near.disposeLot s env id disposition = .ok t) : Kept s t := by
  simp only [Near.disposeLot, bind_eq_ok, require_eq_ok] at h
  obtain ⟨lot, hlot, _, -, _, -, _, -, h⟩ := h
  exact Kept.emit h (.setLot hlot rfl)

theorem Kept.anchorCoa {id certType issuer docHash : String} {expiresAt : Option U64}
    (h : Near.anchorCoa s env id certType issuer docHash expiresAt = .ok t) : Kept s t := by
  simp only [Near.anchorCoa, bind_eq_ok, require_eq_ok] at h
  obtain ⟨lot, hlot, _, -, _, -, _, -, _, -, h⟩ := h
  exact Kept.emit h (.setLot hlot rfl)

theorem Kept.debitInput {input : InputLotRef} (h : Near.debitInput env s input = .ok t) :
    Kept s t := by
  simp only [Near.debitInput, bind_eq_ok, require_eq_ok] at h
  obtain ⟨lot, hlot, _, -, _, -, h⟩ := h
  cases h
  exact .setLot hlot rfl

theorem Kept.debitInputs {inputs : List InputLotRef}
    (h : inputs.foldlM (Near.debitInput env) s = .ok t) : Kept s t :=
  foldlM_invariant (Kept s) _ inputs
    (fun _ _ _ _ hk hstep => hk.trans (.debitInput hstep)) (.refl s) h

theorem Kept.allocateLot {milliamount : U64} {lotId : Option String}
    (h : Near.allocateLot s env milliamount lotId = .ok t) : Kept s t := by
  cases lotId with
  | none =>
    cases h
    exact .refl s
  | some lid =>
    simp only [Near.allocateLot, bind_eq_ok, require_eq_ok] at h
    obtain ⟨lot, hlot, _, -, h⟩ := h
    cases h
    exact .setLot hlot rfl

theorem Quiet.recordCte {cteType : Fsma204EventType} {request : CteRequest}
    {site source dest commodity variety : Option String}
    (h : Near.recordCte s env cteType request site source dest commodity variety = .ok t) :
    Quiet s t := by
  simp only [Near.recordCte, bind_eq_ok] at h
  obtain ⟨_, -, _, -, _, -, ⟨u, cteId⟩, hid, _, -, h⟩ := h
  exact Quiet.emit h ((Quiet.nextIdFor hid).trans (.aside rfl le_rfl))

theorem Kept.transformLot {inputs : List InputLotRef} {output : OutputSpec} {id : String}
    (hissued : LotsIssued s) (h : Near.transformLot s env inputs output = .ok (t, id)) :
    Kept s t := by
  simp only [Near.transformLot, bind_eq_ok] at h
  obtain ⟨_, -, _, -, _, -, _, -, u, hdebits, ⟨v, lotId⟩, hlot, _, hcreated, _, htransformed,
    _, -, ⟨w, cteId⟩, hcte, _, hrecorded, h⟩ := h
  cases h
  have hinputs : Kept s u := .debitInputs hdebits
  have hlots := Kept.emit htransformed
    (Kept.emit hcreated (.newLot (hinputs.lots hissued) hlot rfl))
  have hcounted := (hinputs.trans hlots).trans (.nextIdFor hcte)
  exact Kept.emit hrecorded (hcounted.trans (.aside rfl le_rfl))

theorem Quiet.registerFinancePool {poolId : String} {account : AccountId} {rate : U16}
    {available : Amount}
    (h : Near.registerFinancePool s env poolId account rate available = .ok t) : Quiet s t := by
  simp only [Near.registerFinancePool, bind_eq_ok] at h
  obtain ⟨_, -, _, -, _, -, h⟩ := h
  exact Quiet.emit h (.aside rfl le_rfl)

theorem Quiet.confirmFinancing {contractId poolId : String}
    (h : Near.confirmFinancing s env contractId poolId = .ok t) : Quiet s t := by
  simp only [Near.confirmFinancing, bind_eq_ok] at h
  obtain ⟨_, -, _, -, _, -, _, -, _, -, h⟩ := h
  exact Quiet.emit h (.refl s)

/-- A lot of which nothing was taken and that nobody passed on. -/
structure GoodsLot.IsNew (lot : GoodsLot) : Prop where
  available : lot.availableMilliamount = lot.totalMilliamount
  provenance : lot.provenance = []
  owner : lot.owner = lot.originAccount
  status : lot.status = .available

/-- What a call that makes, annotates, disposes of or consumes lots does to them. -/
inductive Stocks (s t : DTPContract) (env : Env) : Method → Prop
  | created {lot : GoodsLot} (id : String) (made : GoodsLot) (n : ℕ) (hn : s.idCounter.val < n)
      (hid : id = "lot-" ++ toString n) (hnew : made.IsNew) (hlots : t.lots = s.lots.set id made) :
      Stocks s t env (.createLot lot)
  | annotated {id certType issuer docHash : String} {expiresAt : Option U64} (lot : GoodsLot)
      (certs : List LotCertRef) (hlot : s.lots.get? id = some lot)
      (hlots : t.lots = s.lots.set id
        { lot with lotCertifications := certs, updatedAt := env.nowMs }) :
      Stocks s t env (.anchorCoa id certType issuer docHash expiresAt)
  | disposed {id : String} {disposition : LotStatus} (lot : GoodsLot)
      (hlot : s.lots.get? id = some lot)
      (hstatus : lot.status = .available ∨ lot.status = .partiallyAllocated)
      (hdisposition : disposition = .spoiled ∨ disposition = .donated ∨ disposition = .recalled)
      (hlots : t.lots = s.lots.set id { lot with status := disposition, updatedAt := env.nowMs }) :
      Stocks s t env (.disposeLot id disposition)
  | transformed {inputs : List InputLotRef} {output : OutputSpec} (u : DTPContract)
      (id : String) (made : GoodsLot) (n : ℕ)
      (hdebits : inputs.foldlM (Near.debitInput env) s = .ok u) (hn : s.idCounter.val < n)
      (hid : id = "lot-" ++ toString n) (hnew : made.IsNew) (hlots : t.lots = u.lots.set id made) :
      Stocks s t env (.transformLot inputs output)

theorem Stocks.createLot {lot : GoodsLot} {id : String}
    (h : Near.createLot s env lot = .ok (t, id)) :
    Stocks s t env (.createLot lot) ∧ t.standingAgreements = s.standingAgreements ∧
      t.relationships = s.relationships ∧ t.parties = s.parties := by
  simp only [Near.createLot, bind_eq_ok] at h
  obtain ⟨_, -, _, -, _, -, ⟨u, lotId⟩, hid, _, hemit, h⟩ := h
  cases h
  obtain ⟨hcount, hu, hname⟩ := nextIdFor_spec hid
  rw [emit_eq_ok hemit, hu]
  exact ⟨.created lotId _ (s.idCounter.val + 1) (by omega) hname ⟨rfl, rfl, rfl, rfl⟩ rfl, rfl, rfl,
    rfl⟩

theorem Stocks.anchorCoa {id certType issuer docHash : String} {expiresAt : Option U64}
    (h : Near.anchorCoa s env id certType issuer docHash expiresAt = .ok t) :
    Stocks s t env (.anchorCoa id certType issuer docHash expiresAt) ∧
      t.standingAgreements = s.standingAgreements ∧ t.relationships = s.relationships ∧
      t.parties = s.parties := by
  simp only [Near.anchorCoa, bind_eq_ok, require_eq_ok] at h
  obtain ⟨lot, hlot, _, -, _, -, _, -, _, -, h⟩ := h
  rw [emit_eq_ok h]
  exact ⟨.annotated lot _ hlot rfl, rfl, rfl, rfl⟩

theorem Stocks.disposeLot {id : String} {disposition : LotStatus}
    (h : Near.disposeLot s env id disposition = .ok t) :
    Stocks s t env (.disposeLot id disposition) ∧ t.standingAgreements = s.standingAgreements ∧
      t.relationships = s.relationships ∧ t.parties = s.parties := by
  simp only [Near.disposeLot, bind_eq_ok, require_eq_ok, demand_eq_ok] at h
  obtain ⟨lot, hlot, _, -, _, hdisposition, _, hstatus, h⟩ := h
  rw [emit_eq_ok h]
  exact ⟨.disposed lot hlot hstatus hdisposition rfl, rfl, rfl, rfl⟩

theorem debitInput_shape {input : InputLotRef} (h : Near.debitInput env s input = .ok t) :
    t = { s with lots := t.lots } := by
  simp only [Near.debitInput, bind_eq_ok, require_eq_ok] at h
  obtain ⟨lot, hlot, _, -, _, -, h⟩ := h
  cases h
  rfl

theorem debitInputs_shape {inputs : List InputLotRef}
    (h : inputs.foldlM (Near.debitInput env) s = .ok t) : t = { s with lots := t.lots } := by
  refine foldlM_invariant (fun u => u = { s with lots := u.lots }) _ inputs ?_ rfl h
  intro input _ u v hu hstep
  rw [debitInput_shape hstep, hu]

theorem Stocks.transformLot {inputs : List InputLotRef} {output : OutputSpec} {id : String}
    (h : Near.transformLot s env inputs output = .ok (t, id)) :
    Stocks s t env (.transformLot inputs output) ∧
      t.standingAgreements = s.standingAgreements ∧ t.relationships = s.relationships ∧
      t.parties = s.parties := by
  simp only [Near.transformLot, bind_eq_ok] at h
  obtain ⟨_, -, _, -, _, -, _, -, u, hdebits, ⟨v, lotId⟩, hlot, _, hcreated, _, htransformed,
    _, -, ⟨w, cteId⟩, hcte, _, hrecorded, h⟩ := h
  cases h
  have hu := debitInputs_shape hdebits
  obtain ⟨hcount, hv, hname⟩ := nextIdFor_spec hlot
  obtain ⟨-, hw, -⟩ := nextIdFor_spec hcte
  have hcounter : u.idCounter = s.idCounter := by rw [hu]
  rw [emit_eq_ok hrecorded, hw, emit_eq_ok htransformed, emit_eq_ok hcreated, hv]
  refine ⟨.transformed u lotId _ (s.idCounter.val + 1) hdebits (by omega) ?_
    ⟨rfl, rfl, rfl, rfl⟩ rfl, ?_, ?_, ?_⟩
  · rw [hcounter] at hname
    exact hname
  all_goals
    rw [hu]
    rfl

/-- Both parties have signed. -/
def StandingAgreement.Signed (agreement : StandingAgreement) : Prop :=
  agreement.buyerSignedAt.isSome = true ∧ agreement.sellerSignedAt.isSome = true

/-- What a call on agreements does to them and to the record of their pair. -/
inductive Bonds (s t : DTPContract) (env : Env) : Prop
  | proposed (id : String) (agreement : StandingAgreement) (n : ℕ) (hn : s.idCounter.val < n)
      (hid : id = "agr-" ++ toString n) (hcounter : n ≤ t.idCounter.val)
      (hstatus : agreement.status = .proposed)
      (hone : ¬ agreement.Signed) (hrelationships : t.relationships = s.relationships)
      (hagreements : t.standingAgreements = s.standingAgreements.set id agreement)
  | signed (id : String) (found agreement : StandingAgreement)
      (hfound : s.standingAgreements.get? id = some found)
      (hsigned : signedBy found env = .ok agreement) (hone : ¬ agreement.Signed)
      (hrelationships : t.relationships = s.relationships)
      (hagreements : t.standingAgreements = s.standingAgreements.set id agreement)
  | activated (id : String) (found agreement : StandingAgreement)
      (hfound : s.standingAgreements.get? id = some found)
      (hsigned : signedBy found env = .ok agreement) (hboth : agreement.Signed)
      (hrelationships : t.relationships =
        (linkAgreement s env { agreement with status := .active } id).relationships)
      (hagreements : t.standingAgreements =
        s.standingAgreements.set id { agreement with status := .active })

theorem Bonds.proposeStandingAgreement {role : ProposerRole} {counterparty : AccountId}
    {goods : GoodsSpec} {start finish : U64} {volume : VolumeCommitment} {pricing : SellerPricing}
    {cadence : Option String} {renewal : RenewalPolicy} {id : String}
    (h : Near.proposeStandingAgreement s env role counterparty goods start finish volume pricing
      cadence renewal = .ok (t, id)) : Bonds s t env ∧ t.lots = s.lots ∧ t.parties = s.parties := by
  simp only [Near.proposeStandingAgreement, bind_eq_ok] at h
  obtain ⟨_, -, _, -, ⟨u, agreementId⟩, hid, _, hemit, h⟩ := h
  cases h
  obtain ⟨hcount, hu, hname⟩ := nextIdFor_spec hid
  have ht := emit_eq_ok hemit
  have hcounter : t.idCounter = u.idCounter := by
    rw [ht]
    rfl
  have hagreements : ∃ agreement : StandingAgreement, agreement.status = .proposed ∧
      ¬ agreement.Signed ∧ t.standingAgreements =
        s.standingAgreements.set agreementId agreement := by
    rw [ht, hu]
    refine ⟨_, ?_, ?_, rfl⟩
    · rfl
    · unfold StandingAgreement.Signed
      cases role <;> simp
  obtain ⟨agreement, hstatus, hone, hset⟩ := hagreements
  have hcount' : s.idCounter.val + 1 ≤ t.idCounter.val := by rw [hcounter, hcount]
  refine ⟨.proposed agreementId agreement (s.idCounter.val + 1) (by omega) hname hcount' hstatus
    hone ?_ hset, ?_, ?_⟩
  all_goals
    rw [ht, hu]
    rfl

theorem linkAgreement_shape (s : DTPContract) (env : Env) (agreement : StandingAgreement)
    (id : String) : linkAgreement s env agreement id =
      { s with relationships := (linkAgreement s env agreement id).relationships } := by
  unfold Near.linkAgreement
  cases hrel : s.relationships.get? (RelationshipRecord.key agreement.buyer agreement.seller) with
  | none => simp only [hrel]
  | some rel =>
    simp only [hrel]
    split <;> rfl

theorem Bonds.signStandingAgreement {id : String}
    (h : Near.signStandingAgreement s env id = .ok t) :
    Bonds s t env ∧ t.lots = s.lots ∧ t.parties = s.parties := by
  simp only [Near.signStandingAgreement, bind_eq_ok, require_eq_ok] at h
  obtain ⟨found, hfound, agreement, hsigned, h⟩ := h
  split at h
  next hboth =>
    rw [bind_eq_ok] at h
    obtain ⟨u, hemit, h⟩ := h
    cases h
    have hu := emit_eq_ok hemit
    have hlink := linkAgreement_shape s env { agreement with status := .active } id
    refine ⟨.activated id found agreement hfound hsigned hboth ?_ ?_, ?_, ?_⟩
    all_goals
      rw [hu]
      try rw [hlink]
      rfl
  next hone =>
    cases h
    exact ⟨.signed id found agreement hfound hsigned hone rfl rfl, rfl, rfl⟩

/-- How a call that keeps the trades changes lots, pairs and agreements. -/
inductive Manner (s t : DTPContract) (env : Env) (m : Method) : Prop
  | quiet (h : Quiet s t) (hm : m.stocks = false)
  | stocked (h : Stocks s t env m) (hagreements : t.standingAgreements = s.standingAgreements)
      (hrelationships : t.relationships = s.relationships) (hparties : t.parties = s.parties)
  | bonded (h : Bonds s t env) (hm : m.stocks = false) (hlots : t.lots = s.lots)
      (hparties : t.parties = s.parties)

end DirectTrade.Near
