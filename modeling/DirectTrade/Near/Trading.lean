import DirectTrade.Near.Types

/-!
What every call shares (the caller and the clock, fresh ids, the audit trail and
the checks on terms), then parties, intents, listings and offers, up to the offer
that forms a contract.
-/

namespace DirectTrade.Near

open Library Outcome

/-- What the chain tells a call. -/
structure Env where
  predecessor : AccountId
  blockTimestamp : U64

def Env.nowMs (env : Env) : U64 := ⟨env.blockTimestamp.val / 1000000, by omega⟩

def nextIdFor (s : DTPContract) (stem : String) : Except Panic (DTPContract × String) := do
  let next ← checkedAdd s.idCounter 1
  .ok ({ s with idCounter := next }, stem ++ toString next.val)

/-- Appends an event to the log and to the index of its entity. -/
def recordEvent (s : DTPContract) (event : AuditEvent) : DTPContract :=
  { s with
    auditLog := s.auditLog ++ [event]
    auditIndex := s.auditIndex.set event.entityId
      ((s.auditIndex.get? event.entityId).getD [] ++ [s.auditLog.length]) }

/-- The log is numbered by 32-bit words. -/
def emit (s : DTPContract) (event : AuditEvent) : Except Panic DTPContract := do
  demand "Index out of bounds" (s.auditLog.length + 1 < 2 ^ 32)
  .ok (recordEvent s event)

def auditEvent (env : Env) (entityId : String) (eventType : EventType) (entityType : EntityType)
    (actor : String) : AuditEvent :=
  { eventId := makeEventId entityId eventType env.nowMs, eventType, entityType, entityId, actor
    timestamp := env.nowMs }

def requireParty (s : DTPContract) (account : AccountId) : Except Panic Unit :=
  demand "Party not registered" ((s.parties.get? account).isSome = true)

/-- The caller is the owner account or one of its authorized agents. -/
def requirePartyOrAgent (s : DTPContract) (env : Env) (owner : AccountId) : Except Panic Unit :=
  if env.predecessor = owner then .ok ()
  else do
    let party ← require "Party not registered" (s.parties.get? owner)
    demand "Caller is not the owner or an authorized agent"
      (env.predecessor ∈ party.authorizedAgents)

def validateFinanceTerms : Option FinanceTerms → Except Panic Unit
  | none => .ok ()
  | some f => do
    demand "net_days must be <= 60 in v1" (f.netDays.val ≤ 60)
    demand "PACA-covered trades must have net_days <= 30"
      (f.pacaCovered = true → f.netDays.val ≤ 30)
    demand "finance_fee_bps must be <= 5000" (f.financeFeeBps.val ≤ 5000)
    demand "EscrowOnly cannot set liquidity_pool_id"
      (f.financingMode = .escrowOnly → f.liquidityPoolId = none)
    demand "EscrowOnly cannot set financer_id"
      (f.financingMode = .escrowOnly → f.financerId = none)

def validateFreightTerms : Option FreightTerms → Except Panic Unit
  | none => .ok ()
  | some f => do
    demand "freight quote expiry must be >= quoted_at" (f.quotedAt ≤ f.quoteExpiresAt)
    demand "freight_allowance cannot exceed estimated_freight"
      (f.freightAllowance ≤ f.estimatedFreight)

def registerParty (s : DTPContract) (env : Env) : Except Panic DTPContract := do
  demand "Party already registered" (s.parties.get? env.predecessor = none)
  let party : Party :=
    { partyId := env.predecessor, kyb := none, certifications := []
      reputation := ReputationRecord.default, authorizedAgents := [], createdAt := env.nowMs
      gs1Gln := none, dunsNumber := none, fsmaPcqiOnFile := false, dataVaultUri := none }
  .ok { s with parties := s.parties.set env.predecessor party }

def addCertification (s : DTPContract) (env : Env) (cert : CertificationRef) :
    Except Panic DTPContract := do
  let party ← require "Party not registered" (s.parties.get? env.predecessor)
  let updated := { party with certifications := party.certifications ++ [cert] }
  .ok { s with parties := s.parties.set env.predecessor updated }

def addKybAttestation (s : DTPContract) (env : Env) (kyb : KybRef) : Except Panic DTPContract := do
  let party ← require "Party not registered" (s.parties.get? env.predecessor)
  .ok { s with parties := s.parties.set env.predecessor { party with kyb := some kyb } }

/-- The digits of an identifier, if there are as many as its scheme has. -/
def digitsOf (count : ℕ) (message : Panic) : Option String → Except Panic (Option String)
  | none => .ok none
  | some text => do
    let digits := text.toList.filter Char.isDigit
    demand message (digits.length = count)
    .ok (some (String.ofList digits))

def updatePartyIdentity (s : DTPContract) (env : Env) (gs1Gln dunsNumber : Option String)
    (fsmaPcqiOnFile : Option Bool) (dataVaultUri : Option String) : Except Panic DTPContract := do
  let party ← require "Party not registered" (s.parties.get? env.predecessor)
  let gln ← digitsOf 13 "GS1 GLN must be exactly 13 digits" gs1Gln
  let duns ← digitsOf 9 "D-U-N-S number must be exactly 9 digits" dunsNumber
  let updated : Party :=
    { party with
      gs1Gln := gln <|> party.gs1Gln
      dunsNumber := duns <|> party.dunsNumber
      fsmaPcqiOnFile := fsmaPcqiOnFile.getD party.fsmaPcqiOnFile
      dataVaultUri := dataVaultUri <|> party.dataVaultUri }
  emit { s with parties := s.parties.set env.predecessor updated }
    (auditEvent env env.predecessor.name .partyIdentityUpdated .party env.predecessor.name)

def authorizeAgent (s : DTPContract) (env : Env) (agent : AccountId) :
    Except Panic DTPContract := do
  let party ← require "Party not registered" (s.parties.get? env.predecessor)
  demand "Cannot authorize self as agent" (agent ≠ env.predecessor)
  let updated := { party with authorizedAgents := party.authorizedAgents ++ [agent] }
  if agent ∈ party.authorizedAgents then .ok s
  else .ok { s with parties := s.parties.set env.predecessor updated }

def revokeAgent (s : DTPContract) (env : Env) (agent : AccountId) : Except Panic DTPContract := do
  let party ← require "Party not registered" (s.parties.get? env.predecessor)
  let updated := { party with authorizedAgents := party.authorizedAgents.filter (· ≠ agent) }
  .ok { s with parties := s.parties.set env.predecessor updated }

def postIntent (s : DTPContract) (env : Env) (goods : GoodsSpec) (delivery : DeliverySpec)
    (pricing : BuyerPricing) (finance : Option FinanceTerms) (freight : Option FreightTerms)
    (expiresAt : U64) : Except Panic (DTPContract × String) := do
  requireParty s env.predecessor
  validateFinanceTerms finance
  validateFreightTerms freight
  let (s, intentId) ← nextIdFor s "int-"
  let intent : TradeIntent :=
    { intentId, buyer := env.predecessor, catalogId := none, goods, delivery, pricing, finance
      freight, expiresAt, status := .posted, createdAt := env.nowMs, updatedAt := env.nowMs }
  let s ← emit { s with intents := s.intents.set intentId intent }
    (auditEvent env intentId .intentPosted .intent env.predecessor.name)
  .ok (s, intentId)

def cancelIntent (s : DTPContract) (env : Env) (intentId : String) : Except Panic DTPContract := do
  let intent ← require "Intent not found" (s.intents.get? intentId)
  demand "Only buyer can cancel" (intent.buyer = env.predecessor)
  demand "Intent not in Posted state" (intent.status = .posted)
  let cancelled := { intent with status := .cancelled, updatedAt := env.nowMs }
  emit { s with intents := s.intents.set intentId cancelled }
    (auditEvent env intentId .intentCancelled .intent env.predecessor.name)

/-- The lot that a listing names exists, is the caller's to list and is available, if only in
part. -/
def checkListedLot (s : DTPContract) (env : Env) : Option String → Except Panic Unit
  | none => .ok ()
  | some lid => do
    let lot ← require "Lot not found" (s.lots.get? lid)
    requirePartyOrAgent s env lot.owner
    demand "Lot is not available for listing"
      (lot.status = .available ∨ lot.status = .partiallyAllocated)

def postListing (s : DTPContract) (env : Env) (lotId : Option String) (goods : GoodsSpec)
    (delivery : DeliverySpec) (pricing : SellerPricing) (finance : Option FinanceTerms)
    (freight : Option FreightTerms) (certifications : List CertificationRef)
    (availableFrom expiresAt : U64) : Except Panic (DTPContract × String) := do
  requireParty s env.predecessor
  validateFinanceTerms finance
  validateFreightTerms freight
  checkListedLot s env lotId
  let (s, listingId) ← nextIdFor s "lst-"
  let listing : SupplyListing :=
    { listingId, seller := env.predecessor, lotId, goods, delivery, pricing, finance, freight
      certifications, availableFrom, expiresAt, status := .active, createdAt := env.nowMs }
  let s ← emit { s with listings := s.listings.set listingId listing }
    (auditEvent env listingId .listingActivated .listing env.predecessor.name)
  .ok (s, listingId)

def withdrawListing (s : DTPContract) (env : Env) (listingId : String) :
    Except Panic DTPContract := do
  let listing ← require "Listing not found" (s.listings.get? listingId)
  demand "Only seller can withdraw" (listing.seller = env.predecessor)
  demand "Listing not active" (listing.status = .active)
  emit { s with listings := s.listings.set listingId { listing with status := .withdrawn } }
    (auditEvent env listingId .listingWithdrawn .listing env.predecessor.name)

/-- The target exists and is open. -/
def checkTarget (s : DTPContract) (targetId : String) : OfferTargetType → Except Panic Unit
  | .intent => do
    let intent ← require "Intent not found" (s.intents.get? targetId)
    demand "Intent not open for offers" (intent.status = .posted)
  | .listing => do
    let listing ← require "Listing not found" (s.listings.get? targetId)
    demand "Listing not active" (listing.status = .active)

def submitOffer (s : DTPContract) (env : Env) (targetId : String) (targetType : OfferTargetType)
    (goods : GoodsSpec) (delivery : DeliverySpec) (finance : Option FinanceTerms)
    (freight : Option FreightTerms) (pricePerUnit totalPrice : Amount)
    (certifications : List CertificationRef) (expiresAt : U64) :
    Except Panic (DTPContract × String) := do
  requireParty s env.predecessor
  validateFinanceTerms finance
  validateFreightTerms freight
  checkTarget s targetId targetType
  let (s, offerId) ← nextIdFor s "off-"
  let offer : Offer :=
    { offerId, targetId, targetType, offerer := env.predecessor, goods, delivery, finance, freight
      pricePerUnit, totalPrice, certifications, expiresAt, status := .submitted
      createdAt := env.nowMs }
  let s ← emit { s with offers := s.offers.set offerId offer }
    (auditEvent env offerId .offerSubmitted .offer env.predecessor.name)
  .ok (s, offerId)

def retractOffer (s : DTPContract) (env : Env) (offerId : String) : Except Panic DTPContract := do
  let offer ← require "Offer not found" (s.offers.get? offerId)
  demand "Only offerer can retract" (offer.offerer = env.predecessor)
  demand "Offer not retractable" (offer.status = .submitted)
  emit { s with offers := s.offers.set offerId { offer with status := .retracted } }
    (auditEvent env offerId .offerRetracted .offer env.predecessor.name)

/-- Who buys, who sells and what backs the trade. -/
structure Formation where
  buyer : AccountId
  seller : AccountId
  intentId : Option String
  listingId : Option String
  lotId : Option String

/-- Closes the target of an offer that its owner accepts. -/
def acceptTarget (s : DTPContract) (env : Env) (offer : Offer) :
    Except Panic (DTPContract × Formation) :=
  match offer.targetType with
  | .intent => do
    let intent ← require "Intent not found" (s.intents.get? offer.targetId)
    demand "Only buyer can accept offer on their intent" (intent.buyer = env.predecessor)
    demand "Intent not open" (intent.status = .posted)
    let contracted := { intent with status := .contracted, updatedAt := env.nowMs }
    .ok ({ s with intents := s.intents.set intent.intentId contracted },
      ⟨env.predecessor, offer.offerer, some offer.targetId, none, none⟩)
  | .listing => do
    let listing ← require "Listing not found" (s.listings.get? offer.targetId)
    demand "Only seller can accept offer on their listing" (listing.seller = env.predecessor)
    demand "Listing not active" (listing.status = .active)
    let contracted := { listing with status := .contracted }
    .ok ({ s with listings := s.listings.set listing.listingId contracted },
      ⟨offer.offerer, env.predecessor, none, some offer.targetId, listing.lotId⟩)

/-- The offer's price with the net freight where the buyer pays it. -/
def landedTotal (offer : Offer) : Amount :=
  match offer.freight with
  | none => offer.totalPrice
  | some freight =>
    if freight.payer = .buyer then
      saturatingAdd offer.totalPrice
        (saturatingSub freight.estimatedFreight freight.freightAllowance)
    else offer.totalPrice

/-- What the buyer's ceiling allows for the quantity of the intent. -/
def ceilingTotal (intent : TradeIntent) : Amount :=
  let widened : Amount := ⟨intent.goods.quantity.milliamount.val, by omega⟩
  let product : Amount := saturatingMul intent.pricing.ceilingPricePerUnit widened
  ⟨product.val / 1000, by omega⟩

/-- The landed cost of an offer on an intent fits the buyer's ceiling. -/
def checkLandedCost (s : DTPContract) (offer : Offer) : Option String → Except Panic Unit
  | none => .ok ()
  | some intentRef => do
    let intent ← require "Intent not found" (s.intents.get? intentRef)
    demand "landed cost exceeds buyer ceiling" (landedTotal offer ≤ ceilingTotal intent)

/-- A lot of which `rest` remains. -/
def GoodsLot.debited (lot : GoodsLot) (rest now : U64) : GoodsLot :=
  { lot with
    availableMilliamount := rest
    status := if rest.val = 0 then .fullyAllocated else .partiallyAllocated
    updatedAt := now }

/-- Reserves quantity of a lot for a contract. -/
def allocateLot (s : DTPContract) (env : Env) (milliamount : U64) :
    Option String → Except Panic DTPContract
  | none => .ok s
  | some lotId => do
    let lot ← require "Lot not found" (s.lots.get? lotId)
    demand "Insufficient lot quantity available" (milliamount ≤ lot.availableMilliamount)
    let rest : U64 := saturatingSub lot.availableMilliamount milliamount
    .ok { s with lots := s.lots.set lotId (lot.debited rest env.nowMs) }

/-- A trade financed by a liquidity pool asks the pool for its capital. -/
def requestFinancing (s : DTPContract) (env : Env) (contractId : String) :
    Option FinanceTerms → Except Panic DTPContract
  | none => .ok s
  | some finance =>
    if finance.financingMode = .lpPool then
      emit s (auditEvent env contractId .financingRequested .contract env.predecessor.name)
    else .ok s

/-- The contract that an accepted offer forms. -/
def Formation.contract (formation : Formation) (env : Env) (offer : Offer)
    (offerId contractId : String) (disputeWindowHours : U32) (arbitrator : Option AccountId)
    (standingAgreementId : Option String) : TradeContract :=
  { contractId, intentId := formation.intentId, listingId := formation.listingId
    offerId, buyer := formation.buyer, seller := formation.seller
    lotId := formation.lotId, goods := offer.goods, delivery := offer.delivery
    finance := offer.finance, freight := offer.freight, pricePerUnit := offer.pricePerUnit
    totalValue := offer.totalPrice, escrowRef := "escrow-placeholder-" ++ contractId
    disputeWindowHours, arbitrator, standingAgreementId, status := .active
    createdAt := env.nowMs, updatedAt := env.nowMs }

def acceptOffer (s : DTPContract) (env : Env) (offerId : String) (arbitrator : Option AccountId)
    (standingAgreementId : Option String) : Except Panic (DTPContract × String) := do
  let offer ← require "Offer not found" (s.offers.get? offerId)
  demand "Offer not available for acceptance"
    (offer.status = .submitted ∨ offer.status = .shortlisted)
  let (s, formation) ← acceptTarget s env offer
  checkLandedCost s offer formation.intentId
  let s := { s with offers := s.offers.set offerId { offer with status := .accepted } }
  let (s, contractId) ← nextIdFor s "ctr-"
  let s ← allocateLot s env offer.goods.quantity.milliamount formation.lotId
  let contract := formation.contract env offer offerId contractId s.defaultDisputeWindowHours
    arbitrator standingAgreementId
  let s ← emit { s with contracts := s.contracts.set contractId contract }
    (auditEvent env contractId .contractCreated .contract env.predecessor.name)
  let s ← emit s (auditEvent env contractId .contractEscrowLocked .contract env.predecessor.name)
  let s ← requestFinancing s env contractId offer.finance
  .ok (s, contractId)

end DirectTrade.Near
