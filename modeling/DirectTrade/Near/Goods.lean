import DirectTrade.Near.Trading

/-!
The calls around trading: standing agreements, the catalog, lots with their
tracking events and transformations, and finance pools.
-/

namespace DirectTrade.Near

open Library Outcome

def proposeStandingAgreement (s : DTPContract) (env : Env) (proposerRole : ProposerRole)
    (counterparty : AccountId) (goods : GoodsSpec) (periodStart periodEnd : U64)
    (volumeCommitment : VolumeCommitment) (pricing : SellerPricing)
    (deliveryCadence : Option String) (renewal : RenewalPolicy) :
    Except Panic (DTPContract × String) := do
  requireParty s env.predecessor
  requireParty s counterparty
  let (s, agreementId) ← nextIdFor s "agr-"
  let buys := decide (proposerRole = .buyer)
  let agreement : StandingAgreement :=
    { agreementId
      buyer := if buys then env.predecessor else counterparty
      seller := if buys then counterparty else env.predecessor
      goods, periodStart, periodEnd, volumeCommitment, pricing, deliveryCadence, renewal
      status := .proposed
      buyerSignedAt := if buys then some env.nowMs else none
      sellerSignedAt := if buys then none else some env.nowMs
      createdAt := env.nowMs }
  let s ← emit { s with standingAgreements := s.standingAgreements.set agreementId agreement }
    (auditEvent env agreementId .agreementProposed .standingAgreement env.predecessor.name)
  .ok (s, agreementId)

/-- The agreement with the caller's signature. -/
def signedBy (agreement : StandingAgreement) (env : Env) : Except Panic StandingAgreement :=
  if agreement.buyer = env.predecessor then do
    demand "Buyer already signed" (agreement.buyerSignedAt = none)
    .ok { agreement with buyerSignedAt := some env.nowMs }
  else if agreement.seller = env.predecessor then do
    demand "Seller already signed" (agreement.sellerSignedAt = none)
    .ok { agreement with sellerSignedAt := some env.nowMs }
  else .error "Caller is not a party to this agreement"

/-- Lists a newly active agreement in the pair's record, where there is one. -/
def linkAgreement (s : DTPContract) (env : Env) (agreement : StandingAgreement)
    (agreementId : String) : DTPContract :=
  let relKey := RelationshipRecord.key agreement.buyer agreement.seller
  match s.relationships.get? relKey with
  | none => s
  | some rel =>
    if agreementId ∈ rel.standingAgreementIds then s
    else
      let ids := rel.standingAgreementIds ++ [agreementId]
      let updated : RelationshipRecord :=
        { rel with
          standingAgreementIds := ids, updatedAt := env.nowMs
          tier := .derive rel.tradesCompleted rel.totalVolume (!ids.isEmpty) }
      { s with relationships := s.relationships.set relKey updated }

def signStandingAgreement (s : DTPContract) (env : Env) (agreementId : String) :
    Except Panic DTPContract := do
  let found ← require "Agreement not found" (s.standingAgreements.get? agreementId)
  let agreement ← signedBy found env
  if agreement.buyerSignedAt.isSome = true ∧ agreement.sellerSignedAt.isSome = true then do
    let activated := { agreement with status := .active }
    let s ← emit (linkAgreement s env activated agreementId)
      (auditEvent env agreementId .agreementActivated .standingAgreement env.predecessor.name)
    .ok { s with standingAgreements := s.standingAgreements.set agreementId activated }
  else .ok { s with standingAgreements := s.standingAgreements.set agreementId agreement }

def createCatalogEntry (s : DTPContract) (env : Env) (entry : GoodsCatalogEntry) :
    Except Panic (DTPContract × String) := do
  requireParty s env.predecessor
  let (s, catalogId) ← nextIdFor s "cat-"
  let assigned : GoodsCatalogEntry :=
    { entry with catalogId, owner := env.predecessor, version := 1, createdAt := env.nowMs
                 updatedAt := env.nowMs }
  let s ← emit { s with catalogs := s.catalogs.set catalogId assigned }
    (auditEvent env catalogId .catalogEntryCreated .catalog env.predecessor.name)
  .ok (s, catalogId)

def updateCatalogEntry (s : DTPContract) (env : Env) (catalogId : String)
    (entry : GoodsCatalogEntry) : Except Panic DTPContract := do
  let existing ← require "Catalog entry not found" (s.catalogs.get? catalogId)
  requirePartyOrAgent s env existing.owner
  let version ← checkedAdd existing.version 1
  let updated : GoodsCatalogEntry :=
    { entry with catalogId := existing.catalogId, owner := existing.owner, version
                 createdAt := existing.createdAt, updatedAt := env.nowMs }
  emit { s with catalogs := s.catalogs.set catalogId updated }
    (auditEvent env catalogId .catalogEntryUpdated .catalog env.predecessor.name)

def createLot (s : DTPContract) (env : Env) (lot : GoodsLot) :
    Except Panic (DTPContract × String) := do
  requireParty s env.predecessor
  demand "Catalog entry not found" ((s.catalogs.get? lot.catalogId).isSome = true)
  demand "Lot quantity must be > 0" (0 < lot.totalMilliamount.val)
  let (s, lotId) ← nextIdFor s "lot-"
  let assigned : GoodsLot :=
    { lot with lotId, owner := env.predecessor, originAccount := env.predecessor
               availableMilliamount := lot.totalMilliamount, provenance := []
               status := .available, createdAt := env.nowMs, updatedAt := env.nowMs }
  let s ← emit { s with lots := s.lots.set lotId assigned }
    (auditEvent env lotId .lotCreated .lot env.predecessor.name)
  .ok (s, lotId)

/-- Takes a lot without active allocations out of trade. -/
def disposeLot (s : DTPContract) (env : Env) (lotId : String) (disposition : LotStatus) :
    Except Panic DTPContract := do
  let lot ← require "Lot not found" (s.lots.get? lotId)
  requirePartyOrAgent s env lot.owner
  demand "disposition must be Spoiled, Donated, or Recalled"
    (disposition = .spoiled ∨ disposition = .donated ∨ disposition = .recalled)
  demand "Lot cannot be disposed in current status"
    (lot.status = .available ∨ lot.status = .partiallyAllocated)
  let disposed := { lot with status := disposition, updatedAt := env.nowMs }
  emit { s with lots := s.lots.set lotId disposed }
    (auditEvent env lotId .lotDisposed .lot env.predecessor.name)

/-- Lists an event under a lot, once. -/
def indexCte (cteId : String) (index : Dict String (List String)) (lotId : String) :
    Dict String (List String) :=
  let ids := (index.get? lotId).getD []
  index.set lotId (if cteId ∈ ids then ids else ids ++ [cteId])

/-- Stores an event under its id and in the index of each lot it affects. -/
def storeCte (s : DTPContract) (cte : Fsma204Cte) (lotIds : List String) : DTPContract :=
  { s with
    fsmaCtes := s.fsmaCtes.set cte.cteId cte
    lotCteIndex := lotIds.foldl (indexCte cte.cteId) s.lotCteIndex }

def writeCte (s : DTPContract) (env : Env) (cte : Fsma204Cte) : Except Panic DTPContract :=
  emit (storeCte s cte (cte.lotId :: cte.outputLotId.toList))
    (auditEvent env cte.cteId .fsma204CteRecorded .fsma204Cte cte.actor.name)

/-- The characters that trimming drops. -/
def isWhitespace (c : Char) : Bool :=
  (9 ≤ c.toNat && c.toNat ≤ 13) || (0x2000 ≤ c.toNat && c.toNat ≤ 0x200A) ||
    [0x20, 0x85, 0xA0, 0x1680, 0x2028, 0x2029, 0x202F, 0x205F, 0x3000].contains c.toNat

/-- Nothing is left of a text once it is trimmed. -/
def isBlank (text : String) : Bool := text.toList.all isWhitespace

/-- What the caller supplies about a tracking event. -/
structure CteRequest where
  lotId : String
  quantityMilliamount : U64
  unit : String
  eventDateMs : U64
  notes : Option String

/-- An event of one lot, recorded by its owner or an agent of the owner. -/
def recordCte (s : DTPContract) (env : Env) (cteType : Fsma204EventType) (request : CteRequest)
    (siteGln sourceGln destGln commodity variety : Option String) : Except Panic DTPContract := do
  let lot ← require "Lot not found" (s.lots.get? request.lotId)
  requirePartyOrAgent s env lot.owner
  demand "commodity must not be empty" (∀ text ∈ commodity, isBlank text = false)
  let (s, cteId) ← nextIdFor s "cte-"
  let party ← require "Party not registered" (s.parties.get? env.predecessor)
  writeCte s env
    { cteId, cteType, lotId := request.lotId, outputLotId := none, actor := env.predecessor
      actorGln := siteGln <|> party.gs1Gln, sourceGln, destGln
      quantityMilliamount := request.quantityMilliamount, unit := request.unit, commodity, variety
      eventDateMs := request.eventDateMs, recordedAt := env.nowMs, notes := request.notes }

def recordCteReceiving (s : DTPContract) (env : Env) (request : CteRequest)
    (sourceGln : Option String) : Except Panic DTPContract :=
  recordCte s env .receiving request none sourceGln none none none

def recordCteShipping (s : DTPContract) (env : Env) (request : CteRequest)
    (destGln : Option String) : Except Panic DTPContract :=
  recordCte s env .shipping request none none destGln none none

def recordCteGrowing (s : DTPContract) (env : Env) (request : CteRequest) (commodity : String)
    (variety fieldGln : Option String) : Except Panic DTPContract :=
  recordCte s env .growing request fieldGln none none (some commodity) variety

def recordCteCreating (s : DTPContract) (env : Env) (request : CteRequest) (commodity : String)
    (variety packingFacilityGln : Option String) : Except Panic DTPContract :=
  recordCte s env .creating request packingFacilityGln none none (some commodity) variety

/-- Debits one input lot of a transformation. -/
def debitInput (env : Env) (s : DTPContract) (input : InputLotRef) : Except Panic DTPContract := do
  let lot ← require ("Input lot not found: " ++ input.lotId) (s.lots.get? input.lotId)
  requirePartyOrAgent s env lot.owner
  demand ("Insufficient quantity in input lot: " ++ input.lotId)
    (input.milliamount ≤ lot.availableMilliamount)
  let rest : U64 := saturatingSub lot.availableMilliamount input.milliamount
  .ok { s with lots := s.lots.set input.lotId (lot.debited rest env.nowMs) }

/-- What a transformation makes of its inputs. -/
structure OutputSpec where
  catalogId : String
  milliamount : U64
  unit : String
  lotNumber : Option String
  commodity : Option String
  variety : Option String
  eventDateMs : U64
  notes : Option String

/-- Consumes the inputs and creates the output lot with its transforming event. -/
def transformLot (s : DTPContract) (env : Env) (inputLots : List InputLotRef)
    (output : OutputSpec) : Except Panic (DTPContract × String) := do
  requireParty s env.predecessor
  let first ← require "At least one input lot is required" inputLots.head?
  demand "Output quantity must be > 0" (0 < output.milliamount.val)
  demand "Output catalog entry not found" ((s.catalogs.get? output.catalogId).isSome = true)
  let s ← inputLots.foldlM (debitInput env) s
  let (s, outputLotId) ← nextIdFor s "lot-"
  let outputLot : GoodsLot :=
    { lotId := outputLotId, owner := env.predecessor, availableMilliamount := output.milliamount
      provenance := [], status := .available, createdAt := env.nowMs, updatedAt := env.nowMs
      catalogId := output.catalogId, originAccount := env.predecessor
      totalMilliamount := output.milliamount, unit := output.unit, lotNumber := output.lotNumber
      packDate := some env.nowMs, harvestDate := none, bestBy := none, lotCertifications := []
      inputLots }
  let s ← emit { s with lots := s.lots.set outputLotId outputLot }
    (auditEvent env outputLotId .lotCreated .lot env.predecessor.name)
  let s ← emit s (auditEvent env outputLotId .lotTransformed .lot env.predecessor.name)
  let party ← require "Party not registered" (s.parties.get? env.predecessor)
  let (s, cteId) ← nextIdFor s "cte-"
  let cte : Fsma204Cte :=
    { cteId, cteType := .transforming, lotId := first.lotId, outputLotId := some outputLotId
      actor := env.predecessor, actorGln := party.gs1Gln, sourceGln := none, destGln := none
      quantityMilliamount := output.milliamount, unit := output.unit
      commodity := output.commodity, variety := output.variety
      eventDateMs := output.eventDateMs, recordedAt := env.nowMs, notes := output.notes }
  let s ← emit (storeCte s cte (inputLots.map InputLotRef.lotId ++ [outputLotId]))
    (auditEvent env cteId .fsma204CteRecorded .fsma204Cte env.predecessor.name)
  .ok (s, outputLotId)

/-- Anchors the hash of a certificate of analysis to a lot. -/
def anchorCoa (s : DTPContract) (env : Env) (lotId certType issuer docHash : String)
    (expiresAt : Option U64) : Except Panic DTPContract := do
  let lot ← require "Lot not found" (s.lots.get? lotId)
  requirePartyOrAgent s env lot.owner
  demand "doc_hash must be a 64-char SHA-256 hex string or an IPFS CIDv1 (starts with 'baf')"
    (docHash.utf8ByteSize = 64 ∨ docHash.startsWith "baf" = true)
  demand "cert_type must not be empty" (isBlank certType = false)
  demand "issuer must not be empty" (isBlank issuer = false)
  let cert : LotCertRef :=
    { certType, issuer, issuedAt := env.nowMs, expiresAt, docHash := some docHash
      status := .active }
  let anchored : GoodsLot :=
    { lot with lotCertifications := lot.lotCertifications ++ [cert], updatedAt := env.nowMs }
  emit { s with lots := s.lots.set lotId anchored }
    (auditEvent env lotId .lotCOAAnchored .lot env.predecessor.name)

def registerFinancePool (s : DTPContract) (env : Env) (poolId : String) (poolAccount : AccountId)
    (maxRateBps : U16) (availableMicrodollars : Amount) : Except Panic DTPContract := do
  demand "Owner only" (env.predecessor = s.owner)
  demand "Pool already registered" (s.financePools.get? poolId = none)
  demand "max_rate_bps must be <= 5000 (50%)" (maxRateBps.val ≤ 5000)
  let pool : FinancePool :=
    { poolId, poolAccount, maxRateBps, availableMicrodollars, deployedMicrodollars := 0
      active := true, createdAt := env.nowMs, updatedAt := env.nowMs }
  emit { s with financePools := s.financePools.set poolId pool }
    (auditEvent env poolId .financePoolRegistered .financePool env.predecessor.name)

/-- The pool's account confirms that it has funded a contract. -/
def confirmFinancing (s : DTPContract) (env : Env) (contractId poolId : String) :
    Except Panic DTPContract := do
  let pool ← require "Finance pool not found" (s.financePools.get? poolId)
  demand "Only pool_account can confirm financing" (env.predecessor = pool.poolAccount)
  demand "Finance pool is not active" (pool.active = true)
  let contract ← require "Contract not found" (s.contracts.get? contractId)
  demand "Contract does not use LP pool financing"
    (contract.finance.map FinanceTerms.financingMode = some .lpPool)
  emit s (auditEvent env contractId .financingConfirmed .contract env.predecessor.name)

end DirectTrade.Near
