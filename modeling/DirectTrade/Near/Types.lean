import Mathlib.Algebra.GroupWithZero.Nat
import Mathlib.Data.List.Basic
import DirectTrade.Library.Dict
import DirectTrade.Library.Outcome

/-!
The records of the settlement contract. A machine word is a number below its
bound, so a decoded argument cannot lie outside the range of its type, and sums
are checked against that bound as the release profile asks. Texts and references
that no rule of the contract reads are left out of the records.
-/

namespace DirectTrade.Near

open Library Outcome

abbrev U16 := Fin (2 ^ 16)

abbrev U32 := Fin (2 ^ 32)

abbrev U64 := Fin (2 ^ 64)

/-- Amounts are in microdollars. -/
abbrev Amount := Fin (2 ^ 128)

instance nonzero16 : NeZero (2 ^ 16 : ℕ) := ⟨by decide⟩

instance nonzero32 : NeZero (2 ^ 32 : ℕ) := ⟨by decide⟩

instance nonzero64 : NeZero (2 ^ 64 : ℕ) := ⟨by decide⟩

instance nonzero128 : NeZero (2 ^ 128 : ℕ) := ⟨by decide⟩

/-- The message of a panic, after which the state is what it was before the call. -/
abbrev Panic := String

/-- Addition with `overflow-checks = true`. -/
def checkedAdd {n : ℕ} (a b : Fin n) : Except Panic (Fin n) :=
  if h : a.val + b.val < n then .ok ⟨a.val + b.val, h⟩
  else .error "attempt to add with overflow"

theorem checkedAdd_eq_ok {n : ℕ} {a b c : Fin n} (h : checkedAdd a b = .ok c) :
    c.val = a.val + b.val := by
  unfold checkedAdd at h
  split at h
  · cases h
    rfl
  · cases h

def saturatingAdd {n : ℕ} (a b : Fin (n + 1)) : Fin (n + 1) :=
  ⟨min (a.val + b.val) n, by omega⟩

def saturatingSub {n : ℕ} (a b : Fin n) : Fin n :=
  ⟨a.val - b.val, by omega⟩

def saturatingMul {n : ℕ} (a b : Fin (n + 1)) : Fin (n + 1) :=
  ⟨min (a.val * b.val) n, by omega⟩

def isAccountChar (c : Char) : Bool :=
  c.isLower || c.isDigit || c == '-' || c == '_' || c == '.'

/-- An account of the chain: a short name without colons. -/
structure AccountId where
  name : String
  valid : name.toList.all isAccountChar = true ∧
    2 ≤ name.toList.length ∧ name.toList.length ≤ 64
  deriving DecidableEq

inductive CertStatus
  | active | expired | revoked
  deriving DecidableEq, Repr

structure CertificationRef where
  certId : String
  certType : String
  issuedAt : U64
  expiresAt : U64
  status : CertStatus
  deriving DecidableEq, Repr

structure ReputationRecord where
  tradesCompleted : U32
  tradesDisputed : U32
  tradesSettledOnTime : U32
  averageDeliveryAccuracy : U32
  score : U32
  lastUpdated : U64
  deriving DecidableEq, Repr

/-- A fresh record. -/
def ReputationRecord.default : ReputationRecord :=
  { tradesCompleted := 0, tradesDisputed := 0, tradesSettledOnTime := 0
    averageDeliveryAccuracy := 10000, score := 10000, lastUpdated := 0 }

/-- Recomputes the score after a trade outcome; the cast to 32 bits drops high bits. -/
def ReputationRecord.recompute (r : ReputationRecord) : ReputationRecord :=
  if r.tradesCompleted.val = 0 then { r with score := 10000 }
  else
    let disputePenalty := r.tradesDisputed.val * 10000 / r.tradesCompleted.val
    let base := 10000 - disputePenalty
    { r with score := Fin.ofNat _ (base * r.averageDeliveryAccuracy.val / 10000) }

@[simp] theorem ReputationRecord.recompute_tradesCompleted (r : ReputationRecord) :
    r.recompute.tradesCompleted = r.tradesCompleted := by
  unfold recompute
  split <;> rfl

@[simp] theorem ReputationRecord.recompute_averageDeliveryAccuracy (r : ReputationRecord) :
    r.recompute.averageDeliveryAccuracy = r.averageDeliveryAccuracy := by
  unfold recompute
  split <;> rfl

@[simp] theorem ReputationRecord.recompute_tradesDisputed (r : ReputationRecord) :
    r.recompute.tradesDisputed = r.tradesDisputed := by
  unfold recompute
  split <;> rfl

@[simp] theorem ReputationRecord.recompute_tradesSettledOnTime (r : ReputationRecord) :
    r.recompute.tradesSettledOnTime = r.tradesSettledOnTime := by
  unfold recompute
  split <;> rfl

/-- The score depends on the counters alone. -/
theorem ReputationRecord.recompute_recompute (r : ReputationRecord) :
    r.recompute.recompute = r.recompute := by
  by_cases h : r.tradesCompleted.val = 0
  · simp [recompute, h]
  · simp [recompute, h]

structure KybRef where
  legalName : String
  provider : String
  issuedAt : U64
  expiresAt : Option U64
  deriving DecidableEq, Repr

structure Party where
  partyId : AccountId
  kyb : Option KybRef
  certifications : List CertificationRef
  reputation : ReputationRecord
  /-- Accounts that act on behalf of this party. -/
  authorizedAgents : List AccountId
  createdAt : U64
  gs1Gln : Option String
  dunsNumber : Option String
  fsmaPcqiOnFile : Bool
  dataVaultUri : Option String
  deriving DecidableEq

structure Quantity where
  milliamount : U64
  unit : String
  deriving DecidableEq, Repr

structure GoodsSpec where
  quantity : Quantity
  requiredCertifications : List String
  deriving DecidableEq, Repr

inductive LotStatus
  | available | partiallyAllocated | fullyAllocated | fulfilled | transferred
  | spoiled | donated | recalled
  deriving DecidableEq, Repr

structure LotCertRef where
  certType : String
  issuer : String
  issuedAt : U64
  expiresAt : Option U64
  docHash : Option String
  status : CertStatus
  deriving DecidableEq, Repr

/-- An ownership transfer appended to a lot's provenance chain. -/
structure ProvenanceEvent where
  fromParty : AccountId
  toParty : AccountId
  milliamount : U64
  unit : String
  contractId : String
  timestamp : U64
  deriving DecidableEq

structure InputLotRef where
  lotId : String
  milliamount : U64
  unit : String
  deriving DecidableEq, Repr

structure GoodsCatalogEntry where
  catalogId : String
  owner : AccountId
  version : U32
  productName : String
  category : String
  createdAt : U64
  updatedAt : U64
  deriving DecidableEq

/-- A finite quantity of goods. -/
structure GoodsLot where
  lotId : String
  owner : AccountId
  availableMilliamount : U64
  provenance : List ProvenanceEvent
  status : LotStatus
  createdAt : U64
  updatedAt : U64
  catalogId : String
  originAccount : AccountId
  totalMilliamount : U64
  unit : String
  lotNumber : Option String
  packDate : Option U64
  harvestDate : Option U64
  bestBy : Option U64
  lotCertifications : List LotCertRef
  inputLots : List InputLotRef
  deriving DecidableEq

structure FinancePool where
  poolId : String
  poolAccount : AccountId
  maxRateBps : U16
  availableMicrodollars : Amount
  deployedMicrodollars : Amount
  active : Bool
  createdAt : U64
  updatedAt : U64
  deriving DecidableEq

structure SellerPricing where
  askingPricePerUnit : Amount
  deriving DecidableEq, Repr

structure BuyerPricing where
  /-- The most the buyer pays per unit. -/
  ceilingPricePerUnit : Amount
  deriving DecidableEq, Repr

inductive FinancingMode
  | escrowOnly | lpPool
  deriving DecidableEq, Repr

structure FinanceTerms where
  netDays : U16
  pacaCovered : Bool
  financingMode : FinancingMode
  liquidityPoolId : Option String
  financerId : Option AccountId
  financeFeeBps : U16
  deriving DecidableEq

inductive FreightPayer
  | buyer | seller
  deriving DecidableEq, Repr

structure FreightTerms where
  payer : FreightPayer
  estimatedFreight : Amount
  freightAllowance : Amount
  quotedAt : U64
  quoteExpiresAt : U64
  deriving DecidableEq, Repr

structure DeliverySpec where
  windowEarliest : U64
  windowLatest : U64
  deriving DecidableEq, Repr

inductive IntentStatus
  | draft | posted | matched | contracted | fulfilled | settled | expired | cancelled
  deriving DecidableEq, Repr

structure TradeIntent where
  intentId : String
  buyer : AccountId
  catalogId : Option String
  goods : GoodsSpec
  delivery : DeliverySpec
  pricing : BuyerPricing
  finance : Option FinanceTerms
  freight : Option FreightTerms
  expiresAt : U64
  status : IntentStatus
  createdAt : U64
  updatedAt : U64
  deriving DecidableEq

inductive ListingStatus
  | draft | active | matched | contracted | expired | withdrawn
  deriving DecidableEq, Repr

structure SupplyListing where
  listingId : String
  seller : AccountId
  /-- The lot that backs the listing. -/
  lotId : Option String
  goods : GoodsSpec
  delivery : DeliverySpec
  pricing : SellerPricing
  finance : Option FinanceTerms
  freight : Option FreightTerms
  certifications : List CertificationRef
  availableFrom : U64
  expiresAt : U64
  status : ListingStatus
  createdAt : U64
  deriving DecidableEq

inductive OfferStatus
  | submitted | shortlisted | accepted | rejected | expired | retracted
  deriving DecidableEq, Repr

inductive OfferTargetType
  | intent | listing
  deriving DecidableEq, Repr

structure Offer where
  offerId : String
  targetId : String
  targetType : OfferTargetType
  offerer : AccountId
  goods : GoodsSpec
  delivery : DeliverySpec
  finance : Option FinanceTerms
  freight : Option FreightTerms
  pricePerUnit : Amount
  totalPrice : Amount
  certifications : List CertificationRef
  expiresAt : U64
  status : OfferStatus
  createdAt : U64
  deriving DecidableEq

inductive ContractStatus
  | active | inFulfillment | delivered | settled | disputed | resolvedBuyer | resolvedSeller
  | cancelled
  deriving DecidableEq, Repr

structure TradeContract where
  contractId : String
  intentId : Option String
  listingId : Option String
  offerId : String
  buyer : AccountId
  seller : AccountId
  lotId : Option String
  goods : GoodsSpec
  delivery : DeliverySpec
  finance : Option FinanceTerms
  freight : Option FreightTerms
  pricePerUnit : Amount
  totalValue : Amount
  escrowRef : String
  disputeWindowHours : U32
  arbitrator : Option AccountId
  standingAgreementId : Option String
  status : ContractStatus
  createdAt : U64
  updatedAt : U64
  deriving DecidableEq

inductive FulfillmentStatus
  | sellerAttested | buyerAttested | complete | disputed
  deriving DecidableEq, Repr

structure Attestation where
  partyId : AccountId
  signedAt : U64
  notes : Option String
  deriving DecidableEq

structure Fulfillment where
  fulfillmentId : String
  contractId : String
  deliveredAt : U64
  quantityDelivered : Quantity
  sellerAttestation : Attestation
  buyerAttestation : Option Attestation
  status : FulfillmentStatus
  deriving DecidableEq

structure Deduction where
  reason : String
  amount : Amount
  deriving DecidableEq, Repr

structure Settlement where
  settlementId : String
  contractId : String
  fulfillmentId : String
  grossAmount : Amount
  deductions : List Deduction
  netAmount : Amount
  escrowReleaseTx : String
  settledAt : U64
  deriving DecidableEq, Repr

inductive RelationshipTier
  | new | established | preferred | strategic
  deriving DecidableEq, Repr

def RelationshipTier.derive (trades : U32) (volumeMicrodollars : Amount)
    (hasStandingAgreement : Bool) : RelationshipTier :=
  let volumeUsd := volumeMicrodollars.val / 1000000
  if hasStandingAgreement = true ∧ 250000 ≤ volumeUsd then .strategic
  else if 10 ≤ trades.val ∨ 50000 ≤ volumeUsd ∨ hasStandingAgreement = true then .preferred
  else if 3 ≤ trades.val then .established
  else .new

structure RelationshipRecord where
  relationshipId : String
  partyA : AccountId
  partyB : AccountId
  firstTradeAt : U64
  lastTradeAt : U64
  tradesCompleted : U32
  totalVolume : Amount
  disputeRateBp : U32
  onTimeDeliveryRateBp : U32
  tier : RelationshipTier
  standingAgreementIds : List String
  updatedAt : U64
  deriving DecidableEq

/-- The key of a pair of accounts, whatever their order. -/
def RelationshipRecord.key (a b : AccountId) : String :=
  if b.name < a.name then b.name ++ ":" ++ a.name else a.name ++ ":" ++ b.name

inductive AgreementStatus
  | proposed | countered | active | completed | terminated
  deriving DecidableEq, Repr

structure VolumeCommitment where
  minQuantityPerPeriod : Quantity
  period : String
  committedTotal : Quantity
  deriving DecidableEq, Repr

inductive RenewalPolicy
  | auto | manual | none
  deriving DecidableEq, Repr

structure StandingAgreement where
  agreementId : String
  buyer : AccountId
  seller : AccountId
  goods : GoodsSpec
  periodStart : U64
  periodEnd : U64
  volumeCommitment : VolumeCommitment
  pricing : SellerPricing
  deliveryCadence : Option String
  renewal : RenewalPolicy
  status : AgreementStatus
  buyerSignedAt : Option U64
  sellerSignedAt : Option U64
  createdAt : U64
  deriving DecidableEq

/-- The role the proposer takes in an agreement. -/
inductive ProposerRole
  | buyer | seller
  deriving DecidableEq, Repr

inductive DisputeResolution
  | buyer | seller
  deriving DecidableEq, Repr

inductive Fsma204EventType
  | growing | creating | receiving | transforming | shipping
  deriving DecidableEq, Repr

/-- A critical tracking event, immutable once written. -/
structure Fsma204Cte where
  cteId : String
  cteType : Fsma204EventType
  lotId : String
  outputLotId : Option String
  actor : AccountId
  actorGln : Option String
  sourceGln : Option String
  destGln : Option String
  quantityMilliamount : U64
  unit : String
  commodity : Option String
  variety : Option String
  eventDateMs : U64
  recordedAt : U64
  notes : Option String
  deriving DecidableEq

inductive EntityType
  | intent | listing | offer | contract | fulfillment | settlement | standingAgreement
  | relationship | catalog | lot | financePool | party | fsma204Cte
  deriving DecidableEq, Repr

/-- The types of the events that the contract emits. -/
inductive EventType
  | intentPosted | intentCancelled | listingActivated | listingWithdrawn
  | offerSubmitted | offerRetracted
  | contractCreated | contractEscrowLocked | contractResolvedBuyer | contractResolvedSeller
  | fulfillmentSellerAttested | fulfillmentBuyerAttested | fulfillmentDisputed
  | settlementCreated | escrowReleased | agreementProposed | agreementActivated
  | relationshipTierUpdated | catalogEntryCreated | catalogEntryUpdated
  | lotCreated | lotDisposed | lotOwnershipTransferred
  | financePoolRegistered | financingRequested | financingConfirmed
  | partyIdentityUpdated | fsma204CteRecorded | lotCOAAnchored | lotTransformed
  deriving DecidableEq, Repr

/-- The lowercase name of a type, as event ids show it. -/
def EventType.lowercase : EventType → String
  | intentPosted => "intentposted"
  | intentCancelled => "intentcancelled"
  | listingActivated => "listingactivated"
  | listingWithdrawn => "listingwithdrawn"
  | offerSubmitted => "offersubmitted"
  | offerRetracted => "offerretracted"
  | contractCreated => "contractcreated"
  | contractEscrowLocked => "contractescrowlocked"
  | contractResolvedBuyer => "contractresolvedbuyer"
  | contractResolvedSeller => "contractresolvedseller"
  | fulfillmentSellerAttested => "fulfillmentsellerattested"
  | fulfillmentBuyerAttested => "fulfillmentbuyerattested"
  | fulfillmentDisputed => "fulfillmentdisputed"
  | settlementCreated => "settlementcreated"
  | escrowReleased => "escrowreleased"
  | agreementProposed => "agreementproposed"
  | agreementActivated => "agreementactivated"
  | relationshipTierUpdated => "relationshiptierupdated"
  | catalogEntryCreated => "catalogentrycreated"
  | catalogEntryUpdated => "catalogentryupdated"
  | lotCreated => "lotcreated"
  | lotDisposed => "lotdisposed"
  | lotOwnershipTransferred => "lotownershiptransferred"
  | financePoolRegistered => "financepoolregistered"
  | financingRequested => "financingrequested"
  | financingConfirmed => "financingconfirmed"
  | partyIdentityUpdated => "partyidentityupdated"
  | fsma204CteRecorded => "fsma204cterecorded"
  | lotCOAAnchored => "lotcoaanchored"
  | lotTransformed => "lottransformed"

structure AuditEvent where
  eventId : String
  eventType : EventType
  entityType : EntityType
  entityId : String
  actor : String
  timestamp : U64
  deriving DecidableEq, Repr

def makeEventId (entityId : String) (eventType : EventType) (timestamp : U64) : String :=
  "evt:" ++ entityId ++ ":" ++ eventType.lowercase ++ ":" ++ toString timestamp.val

structure DTPContract where
  owner : AccountId
  protocolVersion : String
  defaultDisputeWindowHours : U32
  parties : Dict AccountId Party
  catalogs : Dict String GoodsCatalogEntry
  lots : Dict String GoodsLot
  intents : Dict String TradeIntent
  listings : Dict String SupplyListing
  offers : Dict String Offer
  contracts : Dict String TradeContract
  fulfillments : Dict String Fulfillment
  settlements : Dict String Settlement
  standingAgreements : Dict String StandingAgreement
  relationships : Dict String RelationshipRecord
  financePools : Dict String FinancePool
  fsmaCtes : Dict String Fsma204Cte
  lotCteIndex : Dict String (List String)
  auditLog : List AuditEvent
  auditIndex : Dict String (List ℕ)
  idCounter : U64

/-- The contract as it is initialised. -/
def DTPContract.new (owner : AccountId) : DTPContract :=
  { owner, protocolVersion := "0.1", defaultDisputeWindowHours := 48
    parties := ∅, catalogs := ∅, lots := ∅, intents := ∅, listings := ∅, offers := ∅
    contracts := ∅, fulfillments := ∅, settlements := ∅, standingAgreements := ∅
    relationships := ∅, financePools := ∅, fsmaCtes := ∅, lotCteIndex := ∅
    auditLog := [], auditIndex := ∅, idCounter := 0 }

end DirectTrade.Near
