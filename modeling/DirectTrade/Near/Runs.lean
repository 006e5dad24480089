import DirectTrade.Near.Settling
import DirectTrade.Near.Goods

/-!
The public calls of the contract and its runs. A call that panics leaves the state
as it was; blocks come in the order of their time.
-/

namespace DirectTrade.Near

open Library Outcome

/-- A public call that may change the state, with its arguments. -/
inductive Method
  | registerParty
  | addCertification (cert : CertificationRef)
  | addKybAttestation (kyb : KybRef)
  | updatePartyIdentity (gs1Gln dunsNumber : Option String) (fsmaPcqiOnFile : Option Bool)
      (dataVaultUri : Option String)
  | authorizeAgent (agent : AccountId)
  | revokeAgent (agent : AccountId)
  | postIntent (goods : GoodsSpec) (delivery : DeliverySpec) (pricing : BuyerPricing)
      (finance : Option FinanceTerms) (freight : Option FreightTerms) (expiresAt : U64)
  | cancelIntent (intentId : String)
  | postListing (lotId : Option String) (goods : GoodsSpec) (delivery : DeliverySpec)
      (pricing : SellerPricing) (finance : Option FinanceTerms) (freight : Option FreightTerms)
      (certifications : List CertificationRef) (availableFrom expiresAt : U64)
  | withdrawListing (listingId : String)
  | submitOffer (targetId : String) (targetType : OfferTargetType) (goods : GoodsSpec)
      (delivery : DeliverySpec) (finance : Option FinanceTerms) (freight : Option FreightTerms)
      (pricePerUnit totalPrice : Amount) (certifications : List CertificationRef)
      (expiresAt : U64)
  | retractOffer (offerId : String)
  | acceptOffer (offerId : String) (arbitrator : Option AccountId)
      (standingAgreementId : Option String)
  | sellerAttestDelivery (contractId : String) (quantityDelivered : Quantity)
      (notes : Option String)
  | buyerAttestDelivery (fulfillmentId : String) (notes : Option String)
      (deductions : List Deduction)
  | initiateDispute (fulfillmentId reason : String)
  | triggerAutoSettlement (fulfillmentId : String)
  | resolveDispute (contractId : String) (resolution : DisputeResolution)
      (deductions : List Deduction)
  | proposeStandingAgreement (proposerRole : ProposerRole) (counterparty : AccountId)
      (goods : GoodsSpec) (periodStart periodEnd : U64) (volumeCommitment : VolumeCommitment)
      (pricing : SellerPricing) (deliveryCadence : Option String) (renewal : RenewalPolicy)
  | signStandingAgreement (agreementId : String)
  | createCatalogEntry (entry : GoodsCatalogEntry)
  | updateCatalogEntry (catalogId : String) (entry : GoodsCatalogEntry)
  | createLot (lot : GoodsLot)
  | disposeLot (lotId : String) (disposition : LotStatus)
  | recordCteReceiving (request : CteRequest) (sourceGln : Option String)
  | recordCteShipping (request : CteRequest) (destGln : Option String)
  | recordCteGrowing (request : CteRequest) (commodity : String)
      (variety fieldGln : Option String)
  | recordCteCreating (request : CteRequest) (commodity : String)
      (variety packingFacilityGln : Option String)
  | transformLot (inputLots : List InputLotRef) (output : OutputSpec)
  | anchorCoa (lotId certType issuer docHash : String) (expiresAt : Option U64)
  | registerFinancePool (poolId : String) (poolAccount : AccountId) (maxRateBps : U16)
      (availableMicrodollars : Amount)
  | confirmFinancing (contractId poolId : String)

/-- A call that makes, annotates, disposes of or consumes lots. -/
def Method.stocks : Method → Bool
  | .createLot _ | .anchorCoa .. | .disposeLot .. | .transformLot .. => true
  | _ => false

/-- The state a call leaves, or its panic. -/
def execute (s : DTPContract) (env : Env) : Method → Except Panic DTPContract
  | .registerParty => registerParty s env
  | .addCertification cert => addCertification s env cert
  | .addKybAttestation kyb => addKybAttestation s env kyb
  | .updatePartyIdentity gln duns pcqi uri => updatePartyIdentity s env gln duns pcqi uri
  | .authorizeAgent agent => authorizeAgent s env agent
  | .revokeAgent agent => revokeAgent s env agent
  | .postIntent goods delivery pricing finance freight expiresAt =>
    Prod.fst <$> postIntent s env goods delivery pricing finance freight expiresAt
  | .cancelIntent intentId => cancelIntent s env intentId
  | .postListing lotId goods delivery pricing finance freight certs availableFrom expiresAt =>
    Prod.fst <$> postListing s env lotId goods delivery pricing finance freight certs
      availableFrom expiresAt
  | .withdrawListing listingId => withdrawListing s env listingId
  | .submitOffer targetId targetType goods delivery finance freight price total certs expiresAt =>
    Prod.fst <$> submitOffer s env targetId targetType goods delivery finance freight price total
      certs expiresAt
  | .retractOffer offerId => retractOffer s env offerId
  | .acceptOffer offerId arbitrator agreement =>
    Prod.fst <$> acceptOffer s env offerId arbitrator agreement
  | .sellerAttestDelivery contractId quantity notes =>
    Prod.fst <$> sellerAttestDelivery s env contractId quantity notes
  | .buyerAttestDelivery fulfillmentId notes deductions =>
    Prod.fst <$> buyerAttestDelivery s env fulfillmentId notes deductions
  | .initiateDispute fulfillmentId _ => initiateDispute s env fulfillmentId
  | .triggerAutoSettlement fulfillmentId =>
    Prod.fst <$> triggerAutoSettlement s env fulfillmentId
  | .resolveDispute contractId resolution deductions =>
    resolveDispute s env contractId resolution deductions
  | .proposeStandingAgreement role counterparty goods start finish volume pricing cadence renewal =>
    Prod.fst <$> proposeStandingAgreement s env role counterparty goods start finish volume pricing
      cadence renewal
  | .signStandingAgreement agreementId => signStandingAgreement s env agreementId
  | .createCatalogEntry entry => Prod.fst <$> createCatalogEntry s env entry
  | .updateCatalogEntry catalogId entry => updateCatalogEntry s env catalogId entry
  | .createLot lot => Prod.fst <$> createLot s env lot
  | .disposeLot lotId disposition => disposeLot s env lotId disposition
  | .recordCteReceiving request gln => recordCteReceiving s env request gln
  | .recordCteShipping request gln => recordCteShipping s env request gln
  | .recordCteGrowing request commodity variety gln =>
    recordCteGrowing s env request commodity variety gln
  | .recordCteCreating request commodity variety gln =>
    recordCteCreating s env request commodity variety gln
  | .transformLot inputs output => Prod.fst <$> transformLot s env inputs output
  | .anchorCoa lotId certType issuer docHash expiresAt =>
    anchorCoa s env lotId certType issuer docHash expiresAt
  | .registerFinancePool poolId account rate available =>
    registerFinancePool s env poolId account rate available
  | .confirmFinancing contractId poolId => confirmFinancing s env contractId poolId

/-- A panicking call changes nothing. -/
def call (s : DTPContract) (request : Env × Method) : DTPContract :=
  match execute s request.1 request.2 with
  | .ok t => t
  | .error _ => s

/-- The state after a list of calls. -/
def run (s : DTPContract) (requests : List (Env × Method)) : DTPContract :=
  requests.foldl call s

theorem run_append (s : DTPContract) (before after : List (Env × Method)) :
    run s (before ++ after) = run (run s before) after :=
  List.foldl_append

/-- No call of a run is bad in the state in which it is made. -/
def Avoids (bad : DTPContract → Env → Method → Prop) : DTPContract → List (Env × Method) → Prop
  | _, [] => True
  | s, r :: rest => ¬ bad s r.1 r.2 ∧ Avoids bad (call s r) rest

theorem Avoids.split {bad : DTPContract → Env → Method → Prop} {s : DTPContract}
    {before after : List (Env × Method)} (h : Avoids bad s (before ++ after)) :
    Avoids bad s before ∧ Avoids bad (run s before) after := by
  induction before generalizing s with
  | nil => exact ⟨trivial, h⟩
  | cons r rest ih =>
    obtain ⟨hrest, hafter⟩ := ih h.2
    exact ⟨⟨h.1, hrest⟩, hafter⟩

/-- What every accepted call that is not bad keeps holds after a run without bad calls. -/
theorem Avoids.invariant {bad : DTPContract → Env → Method → Prop} {P : DTPContract → Prop}
    (hstep : ∀ s env m t, P s → ¬ bad s env m → execute s env m = .ok t → P t)
    {s : DTPContract} {requests : List (Env × Method)} (h : Avoids bad s requests) (hs : P s) :
    P (run s requests) := by
  induction requests generalizing s with
  | nil => exact hs
  | cons r rest ih =>
    refine ih h.2 ?_
    unfold call
    split
    next t hexecute => exact hstep s r.1 r.2 t hs h.1 hexecute
    next => exact hs

/-- Block times do not decrease along a list of calls. -/
def Ordered (requests : List (Env × Method)) : Prop :=
  requests.Pairwise fun a b => a.1.blockTimestamp ≤ b.1.blockTimestamp

end DirectTrade.Near
