import DirectTrade.Near.Trading

/-!
Delivery, settlement and disputes. Buyer attestation, automatic settlement and
the resolution of a dispute reach one settlement routine, which records the
settlement, hands the lot over and updates the relationship and both reputations.
-/

namespace DirectTrade.Near

open Library Outcome

/-- A lot handed over to the buyer of a contract. -/
def GoodsLot.transferred (lot : GoodsLot) (contract : TradeContract) (now : U64) : GoodsLot :=
  { lot with
    owner := contract.buyer, status := .fulfilled, updatedAt := now
    provenance := lot.provenance ++
      [{ fromParty := contract.seller, toParty := contract.buyer
         milliamount := contract.goods.quantity.milliamount, unit := contract.goods.quantity.unit
         contractId := contract.contractId, timestamp := now }] }

/-- Hands a lot over to the buyer and appends to its provenance. -/
def transferLotOwnership (s : DTPContract) (env : Env) (contract : TradeContract) :
    Option String → Except Panic DTPContract
  | none => .ok s
  | some lotId => do
    let lot ← require "Lot not found" (s.lots.get? lotId)
    emit { s with lots := s.lots.set lotId (lot.transferred contract env.nowMs) }
      (auditEvent env lotId .lotOwnershipTransferred .lot contract.contractId)

/-- The record of a pair before its first trade. -/
def RelationshipRecord.fresh (buyer seller : AccountId) (now : U64) : RelationshipRecord :=
  { relationshipId := key buyer seller, partyA := buyer, partyB := seller, firstTradeAt := now
    lastTradeAt := now, tradesCompleted := 0, totalVolume := 0, disputeRateBp := 0
    onTimeDeliveryRateBp := 10000, tier := .new, standingAgreementIds := [], updatedAt := now }

/-- The running average of on-time deliveries over `n` trades, in basis points. -/
def onTimeRate (prev n : ℕ) (onTime : Bool) : U32 :=
  Fin.ofNat _ ((prev * (n - 1) + if onTime then 10000 else 0) / n)

/-- A record after a trade, with its new counts. -/
def RelationshipRecord.afterTrade (rel : RelationshipRecord) (trades : U32) (volume : Amount)
    (now : U64) (onTime : Bool) : RelationshipRecord :=
  { rel with
    tradesCompleted := trades, totalVolume := volume, lastTradeAt := now, updatedAt := now
    onTimeDeliveryRateBp := onTimeRate rel.onTimeDeliveryRateBp.val trades.val onTime
    tier := .derive trades volume (!rel.standingAgreementIds.isEmpty) }

def updateRelationship (s : DTPContract) (env : Env) (buyer seller : AccountId) (volume : Amount)
    (onTime : Bool) : Except Panic DTPContract := do
  let key := RelationshipRecord.key buyer seller
  let rel := (s.relationships.get? key).getD (.fresh buyer seller env.nowMs)
  let tradesCompleted ← checkedAdd rel.tradesCompleted 1
  let totalVolume ← checkedAdd rel.totalVolume volume
  let updated := rel.afterTrade tradesCompleted totalVolume env.nowMs onTime
  emit { s with relationships := s.relationships.set key updated }
    (auditEvent env key .relationshipTierUpdated .relationship "contract")

/-- Adds one to a counter where the flag is set. -/
def countIf (flag : Bool) (n : U32) : Except Panic U32 :=
  if flag = true then checkedAdd n 1 else .ok n

def updateReputation (s : DTPContract) (env : Env) (account : AccountId)
    (completed disputed onTime : Bool) : Except Panic DTPContract :=
  match s.parties.get? account with
  | none => .ok s
  | some party => do
    let tradesCompleted ← countIf completed party.reputation.tradesCompleted
    let tradesDisputed ← countIf disputed party.reputation.tradesDisputed
    let tradesSettledOnTime ← countIf onTime party.reputation.tradesSettledOnTime
    let counted : ReputationRecord :=
      { party.reputation with
        tradesCompleted, tradesDisputed, tradesSettledOnTime, lastUpdated := env.nowMs }
    let updated := { party with reputation := counted.recompute }
    .ok { s with parties := s.parties.set account updated }

def totalDeductions (deductions : List Deduction) : Except Panic Amount :=
  deductions.foldlM (fun sum d => checkedAdd sum d.amount) 0

/-- The settlement that a contract is due, and the state that records it. -/
def recordSettlement (s : DTPContract) (env : Env) (fulfillmentId : String)
    (contract : TradeContract) (deductions : List Deduction) :
    Except Panic (DTPContract × Settlement) := do
  let (s, settlementId) ← nextIdFor s "set-"
  let total ← totalDeductions deductions
  let settlement : Settlement :=
    { settlementId, contractId := contract.contractId, fulfillmentId
      grossAmount := contract.totalValue, deductions
      netAmount := saturatingSub contract.totalValue total
      escrowReleaseTx := "release-placeholder-" ++ settlementId, settledAt := env.nowMs }
  .ok ({ s with settlements := s.settlements.set settlementId settlement }, settlement)

def executeSettlement (s : DTPContract) (env : Env) (fulfillmentId : String)
    (contract : TradeContract) (deductions : List Deduction) (disputeLoser : Option AccountId) :
    Except Panic (DTPContract × String) := do
  let (s, settlement) ← recordSettlement s env fulfillmentId contract deductions
  let s ← transferLotOwnership s env contract contract.lotId
  let settled := { contract with status := .settled, updatedAt := env.nowMs }
  let s := { s with contracts := s.contracts.set contract.contractId settled }
  let s ← updateRelationship s env contract.buyer contract.seller settlement.netAmount true
  -- the party that lost a dispute is marked disputed
  let buyerDisputed := decide (disputeLoser = some contract.buyer)
  let sellerDisputed := decide (disputeLoser = some contract.seller)
  let s ← updateReputation s env contract.buyer true buyerDisputed (!buyerDisputed)
  let s ← updateReputation s env contract.seller true sellerDisputed (!sellerDisputed)
  let s ← emit s (auditEvent env settlement.settlementId .settlementCreated .settlement
    contract.buyer.name)
  let s ← emit s (auditEvent env settlement.settlementId .escrowReleased .settlement "contract")
  .ok (s, settlement.settlementId)

def sellerAttestDelivery (s : DTPContract) (env : Env) (contractId : String)
    (quantityDelivered : Quantity) (notes : Option String) :
    Except Panic (DTPContract × String) := do
  let contract ← require "Contract not found" (s.contracts.get? contractId)
  demand "Only seller can attest delivery" (contract.seller = env.predecessor)
  demand "Contract not in deliverable state"
    (contract.status = .active ∨ contract.status = .inFulfillment)
  demand "Fulfillment already exists for this contract"
    (∀ f ∈ s.fulfillments.values, f.contractId ≠ contractId)
  let (s, fulfillmentId) ← nextIdFor s "ful-"
  let fulfillment : Fulfillment :=
    { fulfillmentId, contractId, deliveredAt := env.nowMs, quantityDelivered
      sellerAttestation := ⟨env.predecessor, env.nowMs, notes⟩, buyerAttestation := none
      status := .sellerAttested }
  let delivering := { contract with status := .inFulfillment, updatedAt := env.nowMs }
  let s ← emit
    { s with fulfillments := s.fulfillments.set fulfillmentId fulfillment
             contracts := s.contracts.set contractId delivering }
    (auditEvent env fulfillmentId .fulfillmentSellerAttested .fulfillment env.predecessor.name)
  .ok (s, fulfillmentId)

/-- The buyer attests to receiving delivery, which settles the trade. -/
def buyerAttestDelivery (s : DTPContract) (env : Env) (fulfillmentId : String)
    (notes : Option String) (deductions : List Deduction) :
    Except Panic (DTPContract × String) := do
  let fulfillment ← require "Fulfillment not found" (s.fulfillments.get? fulfillmentId)
  let contract ← require "Contract not found" (s.contracts.get? fulfillment.contractId)
  demand "Only buyer can attest receipt" (contract.buyer = env.predecessor)
  demand "Awaiting seller attestation first" (fulfillment.status = .sellerAttested)
  let attested : Fulfillment :=
    { fulfillment with
      buyerAttestation := some ⟨env.predecessor, env.nowMs, notes⟩, status := .complete }
  let delivered := { contract with status := .delivered, updatedAt := env.nowMs }
  let s ← emit
    { s with fulfillments := s.fulfillments.set fulfillmentId attested
             contracts := s.contracts.set fulfillment.contractId delivered }
    (auditEvent env fulfillmentId .fulfillmentBuyerAttested .fulfillment env.predecessor.name)
  executeSettlement s env fulfillmentId delivered deductions none

/-- The end of the dispute window that a seller's attestation opens. -/
def windowEnd (fulfillment : Fulfillment) (contract : TradeContract) : Except Panic U64 := do
  let windowMs : U64 := ⟨contract.disputeWindowHours.val * 3600000, by omega⟩
  checkedAdd fulfillment.sellerAttestation.signedAt windowMs

/-- The buyer disputes a delivery within the dispute window. -/
def initiateDispute (s : DTPContract) (env : Env) (fulfillmentId : String) :
    Except Panic DTPContract := do
  let fulfillment ← require "Fulfillment not found" (s.fulfillments.get? fulfillmentId)
  let contract ← require "Contract not found" (s.contracts.get? fulfillment.contractId)
  demand "Only buyer can initiate dispute" (contract.buyer = env.predecessor)
  demand "Contract not in disputable state"
    (contract.status = .inFulfillment ∨ contract.status = .delivered)
  let closes ← windowEnd fulfillment contract
  demand "Dispute window has closed; use trigger_auto_settlement instead" (env.nowMs ≤ closes)
  let disputed := { contract with status := .disputed, updatedAt := env.nowMs }
  emit
    { s with
      fulfillments := s.fulfillments.set fulfillmentId { fulfillment with status := .disputed }
      contracts := s.contracts.set fulfillment.contractId disputed }
    (auditEvent env fulfillmentId .fulfillmentDisputed .fulfillment env.predecessor.name)

/-- Anyone settles a trade once the dispute window has elapsed. -/
def triggerAutoSettlement (s : DTPContract) (env : Env) (fulfillmentId : String) :
    Except Panic (DTPContract × String) := do
  let fulfillment ← require "Fulfillment not found" (s.fulfillments.get? fulfillmentId)
  let contract ← require "Contract not found" (s.contracts.get? fulfillment.contractId)
  demand "Fulfillment not awaiting buyer attestation" (fulfillment.status = .sellerAttested)
  let closes ← windowEnd fulfillment contract
  demand "Dispute window has not elapsed yet" (closes < env.nowMs)
  executeSettlement s env fulfillmentId contract [] none

def DisputeResolution.finalStatus : DisputeResolution → ContractStatus
  | buyer => .resolvedBuyer
  | seller => .resolvedSeller

def DisputeResolution.eventType : DisputeResolution → EventType
  | buyer => .contractResolvedBuyer
  | seller => .contractResolvedSeller

/-- The party ruled against. -/
def DisputeResolution.loser (contract : TradeContract) : DisputeResolution → AccountId
  | buyer => contract.seller
  | seller => contract.buyer

/-- The arbitrator resolves a dispute in favour of buyer or seller. -/
def resolveDispute (s : DTPContract) (env : Env) (contractId : String)
    (resolution : DisputeResolution) (deductions : List Deduction) :
    Except Panic DTPContract := do
  let contract ← require "Contract not found" (s.contracts.get? contractId)
  demand "Only arbitrator can resolve dispute"
    (contract.arbitrator = some env.predecessor ∨ env.predecessor = s.owner)
  demand "Contract not disputed" (contract.status = .disputed)
  let (fulfillmentId, _) ← require "No fulfillment found for disputed contract"
    (s.fulfillments.entries.find? fun entry => decide (entry.2.contractId = contractId))
  let (s, _) ← executeSettlement s env fulfillmentId contract deductions
    (some (resolution.loser contract))
  -- the routine leaves the contract settled; the resolution overwrites the status
  let contract ← require "Contract not found" (s.contracts.get? contractId)
  let resolved := { contract with status := resolution.finalStatus, updatedAt := env.nowMs }
  emit { s with contracts := s.contracts.set contractId resolved }
    (auditEvent env contractId resolution.eventType .contract env.predecessor.name)

end DirectTrade.Near
