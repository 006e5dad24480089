import DirectTrade.Library.IndexedLog
import DirectTrade.Near.Advancing

/-!
The audit trail. Each accepted call appends the events that it announces, under ids made of
their entity, type and time, and enters their places in the index of their entities. Pages of
the trail are cut with the 32-bit sizes of the platform.
-/

namespace DirectTrade.Near

open Library Outcome

variable {s t u : DTPContract} {env : Env}

/-- A word as an index of the platform, which drops the high bits. -/
def asUsize (n : U64) : ℕ := n.val % 2 ^ 32

def getAuditTrail (s : DTPContract) (entityId : String) (offset limit : U64) :
    Except Panic (List AuditEvent) := do
  let indices := (s.auditIndex.get? entityId).getD []
  let start := min (asUsize offset) indices.length
  let sum ← checkedAdd offset limit
  let finish := min (asUsize sum) indices.length
  demand "slice index out of order" (start ≤ finish)
  ((indices.drop start).take (finish - start)).mapM fun i =>
    require "called `Option::unwrap()` on a `None` value" s.auditLog[i]?

/-- An entity and the type of an event of it. -/
abbrev Announcement := String × EventType

/-- The id that the counter gives out `k` ids from now. -/
def DTPContract.upcoming (s : DTPContract) (stem : String) (k : ℕ) : String :=
  stem ++ toString (s.idCounter.val + k)

/-- What the settlement of a contract announces. -/
def settlementAnnounces (s : DTPContract) (contract : TradeContract) : List Announcement :=
  (contract.lotId.toList.map fun lotId => (lotId, .lotOwnershipTransferred)) ++
    [(RelationshipRecord.key contract.buyer contract.seller, .relationshipTierUpdated),
      (s.upcoming "set-" 1, .settlementCreated), (s.upcoming "set-" 1, .escrowReleased)]

/-- The contract that a fulfillment is about. -/
def DTPContract.contractOf (s : DTPContract) (fulfillmentId : String) : Option TradeContract :=
  (s.fulfillments.get? fulfillmentId).bind fun f => s.contracts.get? f.contractId

/-- What an accepted call announces, read off its arguments and the state it is made in. -/
def announces (s : DTPContract) (env : Env) : Method → List Announcement
  | .registerParty | .addCertification _ | .addKybAttestation _ | .authorizeAgent _
  | .revokeAgent _ => []
  | .updatePartyIdentity .. => [(env.predecessor.name, .partyIdentityUpdated)]
  | .postIntent .. => [(s.upcoming "int-" 1, .intentPosted)]
  | .cancelIntent intentId => [(intentId, .intentCancelled)]
  | .postListing .. => [(s.upcoming "lst-" 1, .listingActivated)]
  | .withdrawListing listingId => [(listingId, .listingWithdrawn)]
  | .submitOffer .. => [(s.upcoming "off-" 1, .offerSubmitted)]
  | .retractOffer offerId => [(offerId, .offerRetracted)]
  | .acceptOffer offerId .. =>
    [(s.upcoming "ctr-" 1, .contractCreated), (s.upcoming "ctr-" 1, .contractEscrowLocked)] ++
      if ((s.offers.get? offerId).bind fun o => o.finance.map FinanceTerms.financingMode) =
          some .lpPool
      then [(s.upcoming "ctr-" 1, .financingRequested)] else []
  | .sellerAttestDelivery .. => [(s.upcoming "ful-" 1, .fulfillmentSellerAttested)]
  | .buyerAttestDelivery fulfillmentId .. =>
    (fulfillmentId, .fulfillmentBuyerAttested) ::
      (s.contractOf fulfillmentId).elim [] (settlementAnnounces s)
  | .initiateDispute fulfillmentId _ => [(fulfillmentId, .fulfillmentDisputed)]
  | .triggerAutoSettlement fulfillmentId =>
    (s.contractOf fulfillmentId).elim [] (settlementAnnounces s)
  | .resolveDispute contractId resolution _ =>
    (s.contracts.get? contractId).elim [] (settlementAnnounces s) ++
      [(contractId, resolution.eventType)]
  | .proposeStandingAgreement .. => [(s.upcoming "agr-" 1, .agreementProposed)]
  | .signStandingAgreement agreementId =>
    match (s.standingAgreements.get? agreementId).map (signedBy · env) with
    | some (.ok agreement) =>
      if agreement.buyerSignedAt.isSome = true ∧ agreement.sellerSignedAt.isSome = true
      then [(agreementId, .agreementActivated)] else []
    | _ => []
  | .createCatalogEntry _ => [(s.upcoming "cat-" 1, .catalogEntryCreated)]
  | .updateCatalogEntry catalogId _ => [(catalogId, .catalogEntryUpdated)]
  | .createLot _ => [(s.upcoming "lot-" 1, .lotCreated)]
  | .disposeLot lotId _ => [(lotId, .lotDisposed)]
  | .recordCteReceiving .. | .recordCteShipping .. | .recordCteGrowing .. | .recordCteCreating .. =>
    [(s.upcoming "cte-" 1, .fsma204CteRecorded)]
  | .transformLot .. =>
    [(s.upcoming "lot-" 1, .lotCreated), (s.upcoming "lot-" 1, .lotTransformed),
      (s.upcoming "cte-" 2, .fsma204CteRecorded)]
  | .anchorCoa lotId .. => [(lotId, .lotCOAAnchored)]
  | .registerFinancePool poolId .. => [(poolId, .financePoolRegistered)]
  | .confirmFinancing contractId _ => [(contractId, .financingConfirmed)]

/-- No settlement announces two events of one type, nor one that its callers announce. -/
theorem settlementAnnounces_types (s : DTPContract) (c : TradeContract) :
    ((settlementAnnounces s c).map Prod.snd).Nodup ∧
      ∀ type ∈ (settlementAnnounces s c).map Prod.snd, type ≠ .fulfillmentBuyerAttested ∧
        type ≠ .contractResolvedBuyer ∧ type ≠ .contractResolvedSeller := by
  unfold settlementAnnounces
  cases c.lotId <;> simp

/-- No call announces two events of one type. -/
theorem announces_types (s : DTPContract) (env : Env) (m : Method) :
    ((announces s env m).map Prod.snd).Nodup := by
  cases m with
  | acceptOffer offerId arbitrator agreement =>
    simp only [announces]
    split <;> simp
  | buyerAttestDelivery ful notes ded =>
    simp only [announces]
    cases s.contractOf ful with
    | none => simp
    | some c =>
      obtain ⟨hnodup, hother⟩ := settlementAnnounces_types s c
      refine List.nodup_cons.mpr ⟨?_, hnodup⟩
      intro hmem
      exact (hother _ hmem).1 rfl
  | triggerAutoSettlement ful =>
    simp only [announces]
    cases s.contractOf ful with
    | none => simp
    | some c => exact (settlementAnnounces_types s c).1
  | resolveDispute contractId resolution ded =>
    simp only [announces]
    cases s.contracts.get? contractId with
    | none => simp
    | some c =>
      obtain ⟨hnodup, hother⟩ := settlementAnnounces_types s c
      simp only [Option.elim_some, List.map_append, List.map_cons, List.map_nil]
      refine List.nodup_append.mpr ⟨hnodup, List.nodup_singleton _, ?_⟩
      intro a ha b hb heq
      rw [List.mem_singleton.mp hb] at heq
      cases resolution with
      | buyer => exact (hother a ha).2.1 heq
      | seller => exact (hother a ha).2.2 heq
  | signStandingAgreement agreementId =>
    simp only [announces]
    split
    · split <;> simp
    · simp
  | _ => simp [announces]

/-- The log with its index. -/
def DTPContract.trail (s : DTPContract) : IndexedLog String AuditEvent := ⟨s.auditLog, s.auditIndex⟩

/-- An event under the id of its entity, type and time. -/
structure AuditEvent.Stamped (e : AuditEvent) (now : U64) : Prop where
  eventId : e.eventId = makeEventId e.entityId e.eventType now
  timestamp : e.timestamp = now

/-- What an event announces. -/
def AuditEvent.announcement (e : AuditEvent) : Announcement := (e.entityId, e.eventType)

/-- Exactly these announcements were logged on the way. -/
structure Logged (env : Env) (s t : DTPContract) (announced : List Announcement) : Prop where
  logged : ∃ events : List AuditEvent, events.map AuditEvent.announcement = announced ∧
    (∀ e ∈ events, e.Stamped env.nowMs) ∧
      t.trail = events.foldl (IndexedLog.record AuditEvent.entityId) s.trail
  bounded : s.auditLog.length < 2 ^ 32 → t.auditLog.length < 2 ^ 32

theorem Logged.silent (h : t.trail = s.trail) : Logged env s t [] where
  logged := ⟨[], rfl, fun _ he => absurd he List.not_mem_nil, h⟩
  bounded := by
    intro hs
    have hlog : t.auditLog = s.auditLog := congrArg IndexedLog.log h
    rw [hlog]
    exact hs

theorem Logged.trans {first rest : List Announcement} (h : Logged env s t first)
    (h' : Logged env t u rest) : Logged env s u (first ++ rest) where
  logged := by
    obtain ⟨events, hannounced, hstamped, htrail⟩ := h.logged
    obtain ⟨events', hannounced', hstamped', htrail'⟩ := h'.logged
    refine ⟨events ++ events', ?_, ?_, ?_⟩
    · rw [List.map_append, hannounced, hannounced']
    · intro e he
      cases List.mem_append.mp he with
      | inl he => exact hstamped e he
      | inr he => exact hstamped' e he
    · rw [htrail', htrail, List.foldl_append]
  bounded := fun hs => h'.bounded (h.bounded hs)

theorem Logged.emit {id actor : String} {type : EventType} {entity : EntityType}
    (h : Near.emit u (auditEvent env id type entity actor) = .ok t) (hs : u.trail = s.trail) :
    Logged env s t [(id, type)] where
  logged := by
    refine ⟨[auditEvent env id type entity actor], rfl, ?_, ?_⟩
    · intro e he
      rw [List.mem_singleton.mp he]
      exact ⟨rfl, rfl⟩
    · rw [emit_eq_ok h, List.foldl_cons, List.foldl_nil, ← hs]
      rfl
  bounded := by
    intro _
    have hroom := h
    simp only [Near.emit, bind_eq_ok, demand_eq_ok] at hroom
    obtain ⟨-, hroom, -⟩ := hroom
    rw [emit_eq_ok h]
    simpa only [recordEvent, List.length_append, List.length_singleton] using hroom

/-- The id is the next one, and nothing is logged. -/
theorem nextIdFor_untold {stem id : String} (h : nextIdFor s stem = .ok (t, id)) :
    t.trail = s.trail ∧ id = s.upcoming stem 1 := by
  obtain ⟨-, ht, hid⟩ := nextIdFor_spec h
  rw [ht]
  exact ⟨rfl, hid⟩

/-- A new entity is announced under the next id. -/
theorem Logged.created {stem id actor : String} {type : EventType} {entity : EntityType}
    {v : DTPContract} (hid : nextIdFor s stem = .ok (u, id))
    (h : Near.emit v (auditEvent env id type entity actor) = .ok t) (hv : v.trail = u.trail) :
    Logged env s t [(s.upcoming stem 1, type)] := by
  obtain ⟨hsame, hname⟩ := nextIdFor_untold hid
  rw [← hname]
  exact .emit h (hv.trans hsame)

theorem acceptTarget_untold {offer : Offer} {formation : Formation}
    (h : acceptTarget s env offer = .ok (t, formation)) :
    t.trail = s.trail ∧ t.idCounter = s.idCounter := by
  obtain ⟨-, ht, -⟩ := acceptTarget_spec h
  rw [ht]
  exact ⟨rfl, rfl⟩

theorem allocateLot_untold {q : U64} {lotId : Option String}
    (h : allocateLot s env q lotId = .ok t) : t.trail = s.trail := by
  rw [(allocateLot_spec h).1]
  rfl

theorem Logged.requestFinancing {id : String} {finance : Option FinanceTerms}
    (h : Near.requestFinancing s env id finance = .ok t) :
    Logged env s t (if finance.map FinanceTerms.financingMode = some .lpPool
      then [(id, .financingRequested)] else []) := by
  cases finance with
  | none =>
    cases h
    exact .silent rfl
  | some f =>
    simp only [Near.requestFinancing] at h
    simp only [Option.map_some, Option.some.injEq]
    split at h
    next hpool =>
      rw [if_pos hpool]
      exact .emit h rfl
    next hpool =>
      rw [if_neg hpool]
      cases h
      exact .silent rfl

theorem Logged.acceptOffer {offerId id : String} {arbitrator : Option AccountId}
    {agreement : Option String}
    (h : Near.acceptOffer s env offerId arbitrator agreement = .ok (t, id)) :
    Logged env s t (announces s env (.acceptOffer offerId arbitrator agreement)) := by
  simp only [Near.acceptOffer, bind_eq_ok, require_eq_ok] at h
  obtain ⟨offer, hoffer, _, -, ⟨u, formation⟩, htarget, _, -, ⟨v, contractId⟩, hid, w, hlot, x,
    hcreated, y, hlocked, z, hfinance, h⟩ := h
  cases h
  obtain ⟨htrail, hcounter⟩ := acceptTarget_untold htarget
  obtain ⟨hsame, hname⟩ := nextIdFor_untold hid
  have hupcoming : contractId = s.upcoming "ctr-" 1 := by
    rw [hname]
    simp only [DTPContract.upcoming, hcounter]
  rw [hupcoming] at hcreated hlocked hfinance
  have hsilent : w.trail = s.trail := by
    rw [allocateLot_untold hlot, hsame, ← htrail]
    rfl
  have hlogged := ((Logged.emit hcreated hsilent).trans (.emit hlocked rfl)).trans
    (.requestFinancing hfinance)
  simpa only [announces, hoffer, Option.bind_some, List.cons_append, List.nil_append] using hlogged

theorem Logged.transferLotOwnership {contract : TradeContract} {lotId : Option String}
    (h : Near.transferLotOwnership s env contract lotId = .ok t) :
    Logged env s t (lotId.toList.map fun lid => (lid, .lotOwnershipTransferred)) := by
  cases lotId with
  | none =>
    cases h
    exact .silent rfl
  | some lid =>
    simp only [Near.transferLotOwnership, bind_eq_ok] at h
    obtain ⟨_, -, h⟩ := h
    exact .emit h rfl

theorem Logged.updateRelationship {buyer seller : AccountId} {volume : Amount} {onTime : Bool}
    (h : Near.updateRelationship u env buyer seller volume onTime = .ok t)
    (hs : u.trail = s.trail) :
    Logged env s t [(RelationshipRecord.key buyer seller, .relationshipTierUpdated)] := by
  simp only [Near.updateRelationship, bind_eq_ok] at h
  obtain ⟨_, -, _, -, h⟩ := h
  exact .emit h hs

theorem updateReputation_untold {account : AccountId} {completed disputed onTime : Bool}
    (h : updateReputation s env account completed disputed onTime = .ok t) :
    t.trail = s.trail := by
  unfold updateReputation at h
  split at h
  · cases h
    rfl
  · simp only [bind_eq_ok] at h
    obtain ⟨_, -, _, -, _, -, h⟩ := h
    cases h
    rfl

theorem recordSettlement_untold {ful : String} {contract : TradeContract} {ded : List Deduction}
    {st : Settlement} (h : recordSettlement s env ful contract ded = .ok (t, st)) :
    t.trail = s.trail ∧ st.settlementId = s.upcoming "set-" 1 := by
  simp only [recordSettlement, bind_eq_ok] at h
  obtain ⟨⟨u, id⟩, hid, _, -, h⟩ := h
  cases h
  obtain ⟨hsame, hname⟩ := nextIdFor_untold hid
  exact ⟨hsame, hname⟩

theorem Logged.executeSettlement {ful id : String} {contract : TradeContract}
    {ded : List Deduction} {loser : Option AccountId}
    (h : Near.executeSettlement s env ful contract ded loser = .ok (t, id)) :
    Logged env s t (settlementAnnounces s contract) := by
  simp only [Near.executeSettlement, bind_eq_ok] at h
  obtain ⟨⟨u, st⟩, hrecord, v, hlot, w, hpair, x, hbuyer, y, hseller, z, hcreated, o, hreleased,
    h⟩ := h
  cases h
  obtain ⟨hsame, hname⟩ := recordSettlement_untold hrecord
  have hsilent : y.trail = w.trail :=
    (updateReputation_untold hseller).trans (updateReputation_untold hbuyer)
  rw [hname] at hcreated hreleased
  have hrelated : Logged env v w [(RelationshipRecord.key contract.buyer contract.seller,
      .relationshipTierUpdated)] := .updateRelationship hpair rfl
  have hlogged := ((((Logged.silent hsame).trans (.transferLotOwnership hlot)).trans
    hrelated).trans (.emit hcreated hsilent)).trans (.emit hreleased rfl)
  simpa [settlementAnnounces] using hlogged

theorem settlementAnnounces_congr {c c' : TradeContract} (hcounter : t.idCounter = s.idCounter)
    (hlot : c'.lotId = c.lotId) (hbuyer : c'.buyer = c.buyer) (hseller : c'.seller = c.seller) :
    settlementAnnounces t c' = settlementAnnounces s c := by
  simp only [settlementAnnounces, DTPContract.upcoming, hcounter, hlot, hbuyer, hseller]

theorem Logged.buyerAttestDelivery {ful id : String} {notes : Option String}
    {ded : List Deduction} (h : Near.buyerAttestDelivery s env ful notes ded = .ok (t, id)) :
    Logged env s t (announces s env (.buyerAttestDelivery ful notes ded)) := by
  simp only [Near.buyerAttestDelivery, bind_eq_ok, require_eq_ok] at h
  obtain ⟨f, hf, c, hc, _, -, _, -, u, hattested, hsettled⟩ := h
  have hcounter : u.idCounter = s.idCounter := by
    rw [emit_eq_ok hattested]
    rfl
  have hfirst : Logged env s u [(ful, .fulfillmentBuyerAttested)] := .emit hattested rfl
  have hlogged := hfirst.trans (.executeSettlement hsettled)
  have hsame : settlementAnnounces u { c with status := .delivered, updatedAt := env.nowMs } =
      settlementAnnounces s c := settlementAnnounces_congr hcounter rfl rfl rfl
  rw [hsame] at hlogged
  simpa only [announces, DTPContract.contractOf, hf, hc, Option.bind_some, Option.elim_some,
    List.cons_append, List.nil_append] using hlogged

theorem Logged.triggerAutoSettlement {ful id : String}
    (h : Near.triggerAutoSettlement s env ful = .ok (t, id)) :
    Logged env s t (announces s env (.triggerAutoSettlement ful)) := by
  simp only [Near.triggerAutoSettlement, bind_eq_ok, require_eq_ok] at h
  obtain ⟨f, hf, c, hc, _, -, _, -, _, -, hsettled⟩ := h
  simpa only [announces, DTPContract.contractOf, hf, hc, Option.bind_some, Option.elim_some]
    using Logged.executeSettlement hsettled

theorem Logged.resolveDispute {contractId : String} {resolution : DisputeResolution}
    {ded : List Deduction} (h : Near.resolveDispute s env contractId resolution ded = .ok t) :
    Logged env s t (announces s env (.resolveDispute contractId resolution ded)) := by
  simp only [Near.resolveDispute, bind_eq_ok, require_eq_ok] at h
  obtain ⟨c, hc, _, -, _, -, ⟨ful, _⟩, -, ⟨u, id⟩, hsettled, _, -, h⟩ := h
  have hlogged := (Logged.executeSettlement hsettled).trans (.emit h rfl)
  simpa only [announces, hc, Option.elim_some] using hlogged

theorem Logged.signStandingAgreement {id : String}
    (h : Near.signStandingAgreement s env id = .ok t) :
    Logged env s t (announces s env (.signStandingAgreement id)) := by
  simp only [Near.signStandingAgreement, bind_eq_ok, require_eq_ok] at h
  obtain ⟨found, hfound, agreement, hsigned, h⟩ := h
  simp only [announces, hfound, Option.map_some, hsigned]
  split at h
  next hboth =>
    rw [if_pos hboth]
    rw [bind_eq_ok] at h
    obtain ⟨u, hemit, h⟩ := h
    cases h
    have hlink : (linkAgreement s env { agreement with status := .active } id).trail = s.trail := by
      rw [linkAgreement_shape]
      rfl
    exact (Logged.emit hemit hlink).trans (.silent rfl)
  next hone =>
    rw [if_neg hone]
    cases h
    exact .silent rfl

theorem Logged.recordCte {cteType : Fsma204EventType} {request : CteRequest}
    {site source dest commodity variety : Option String}
    (h : Near.recordCte s env cteType request site source dest commodity variety = .ok t) :
    Logged env s t [(s.upcoming "cte-" 1, .fsma204CteRecorded)] := by
  simp only [Near.recordCte, bind_eq_ok] at h
  obtain ⟨_, -, _, -, _, -, ⟨u, cteId⟩, hid, _, -, h⟩ := h
  exact .created hid h rfl

theorem Logged.transformLot {inputs : List InputLotRef} {output : OutputSpec} {id : String}
    (h : Near.transformLot s env inputs output = .ok (t, id)) :
    Logged env s t (announces s env (.transformLot inputs output)) := by
  simp only [Near.transformLot, bind_eq_ok] at h
  obtain ⟨_, -, _, -, _, -, _, -, u, hdebits, ⟨v, lotId⟩, hlot, w, hcreated, x, htransformed,
    _, -, ⟨y, cteId⟩, hcte, z, hrecorded, h⟩ := h
  cases h
  have hu := debitInputs_shape hdebits
  obtain ⟨hcount, -, -⟩ := nextIdFor_spec hlot
  obtain ⟨hsame, hname⟩ := nextIdFor_untold hlot
  obtain ⟨hsame', hname'⟩ := nextIdFor_untold hcte
  have hsilent : v.trail = s.trail := by
    rw [hsame, hu]
    rfl
  have hcounter : u.idCounter = s.idCounter := by rw [hu]
  have hcounter' : x.idCounter = v.idCounter := by
    rw [emit_eq_ok htransformed, emit_eq_ok hcreated]
    rfl
  have hlotId : lotId = s.upcoming "lot-" 1 := by
    rw [hname]
    simp only [DTPContract.upcoming, hcounter]
  have hcteId : cteId = s.upcoming "cte-" 2 := by
    rw [hname']
    simp only [DTPContract.upcoming, hcounter', hcount, hcounter]
  rw [hlotId] at hcreated htransformed
  rw [hcteId] at hrecorded
  exact ((Logged.emit hcreated hsilent).trans (.emit htransformed rfl)).trans
    (.emit hrecorded hsame')

/-- Every accepted call logs exactly what it announces. -/
theorem execute_announces {m : Method} (h : execute s env m = .ok t) :
    Logged env s t (announces s env m) := by
  cases m with
  | registerParty =>
    simp only [execute, Near.registerParty, bind_eq_ok] at h
    obtain ⟨_, -, h⟩ := h
    cases h
    exact .silent rfl
  | addCertification cert =>
    simp only [execute, Near.addCertification, bind_eq_ok] at h
    obtain ⟨_, -, h⟩ := h
    cases h
    exact .silent rfl
  | addKybAttestation kyb =>
    simp only [execute, Near.addKybAttestation, bind_eq_ok] at h
    obtain ⟨_, -, h⟩ := h
    cases h
    exact .silent rfl
  | updatePartyIdentity gln duns pcqi uri =>
    simp only [execute, Near.updatePartyIdentity, bind_eq_ok] at h
    obtain ⟨_, -, _, -, _, -, h⟩ := h
    exact .emit h rfl
  | authorizeAgent agent =>
    simp only [execute, Near.authorizeAgent, bind_eq_ok] at h
    obtain ⟨_, -, _, -, h⟩ := h
    split at h
    · cases h
      exact .silent rfl
    · cases h
      exact .silent rfl
  | revokeAgent agent =>
    simp only [execute, Near.revokeAgent, bind_eq_ok] at h
    obtain ⟨_, -, h⟩ := h
    cases h
    exact .silent rfl
  | postIntent goods delivery pricing finance freight expiresAt =>
    obtain ⟨⟨_, id⟩, hcall, rfl⟩ := (map_eq_ok _ _ _).mp h
    simp only [Near.postIntent, bind_eq_ok] at hcall
    obtain ⟨_, -, _, -, _, -, ⟨u, intentId⟩, hid, _, hemit, hcall⟩ := hcall
    cases hcall
    exact .created hid hemit rfl
  | cancelIntent id =>
    simp only [execute, Near.cancelIntent, bind_eq_ok] at h
    obtain ⟨_, -, _, -, _, -, h⟩ := h
    exact .emit h rfl
  | postListing lotId goods delivery pricing finance freight certs availableFrom expiresAt =>
    obtain ⟨⟨_, id⟩, hcall, rfl⟩ := (map_eq_ok _ _ _).mp h
    simp only [Near.postListing, bind_eq_ok] at hcall
    obtain ⟨_, -, _, -, _, -, _, -, ⟨u, listingId⟩, hid, _, hemit, hcall⟩ := hcall
    cases hcall
    exact .created hid hemit rfl
  | withdrawListing id =>
    simp only [execute, Near.withdrawListing, bind_eq_ok] at h
    obtain ⟨_, -, _, -, _, -, h⟩ := h
    exact .emit h rfl
  | submitOffer targetId targetType goods delivery finance freight price total certs expiresAt =>
    obtain ⟨⟨_, id⟩, hcall, rfl⟩ := (map_eq_ok _ _ _).mp h
    simp only [Near.submitOffer, bind_eq_ok] at hcall
    obtain ⟨_, -, _, -, _, -, _, -, ⟨u, offerId⟩, hid, _, hemit, hcall⟩ := hcall
    cases hcall
    exact .created hid hemit rfl
  | retractOffer id =>
    simp only [execute, Near.retractOffer, bind_eq_ok] at h
    obtain ⟨_, -, _, -, _, -, h⟩ := h
    exact .emit h rfl
  | acceptOffer offerId arbitrator agreement =>
    obtain ⟨⟨_, id⟩, hcall, rfl⟩ := (map_eq_ok _ _ _).mp h
    exact .acceptOffer hcall
  | sellerAttestDelivery contractId quantity notes =>
    obtain ⟨⟨_, id⟩, hcall, rfl⟩ := (map_eq_ok _ _ _).mp h
    simp only [Near.sellerAttestDelivery, bind_eq_ok] at hcall
    obtain ⟨_, -, _, -, _, -, _, -, ⟨u, ful⟩, hid, _, hemit, hcall⟩ := hcall
    cases hcall
    exact .created hid hemit rfl
  | buyerAttestDelivery ful notes deductions =>
    obtain ⟨⟨_, id⟩, hcall, rfl⟩ := (map_eq_ok _ _ _).mp h
    exact .buyerAttestDelivery hcall
  | initiateDispute ful reason =>
    simp only [execute, Near.initiateDispute, bind_eq_ok] at h
    obtain ⟨_, -, _, -, _, -, _, -, _, -, _, -, h⟩ := h
    exact .emit h rfl
  | triggerAutoSettlement ful =>
    obtain ⟨⟨_, id⟩, hcall, rfl⟩ := (map_eq_ok _ _ _).mp h
    exact .triggerAutoSettlement hcall
  | resolveDispute contractId resolution deductions => exact .resolveDispute h
  | proposeStandingAgreement role counterparty goods start finish volume pricing cadence renewal =>
    obtain ⟨⟨_, id⟩, hcall, rfl⟩ := (map_eq_ok _ _ _).mp h
    simp only [Near.proposeStandingAgreement, bind_eq_ok] at hcall
    obtain ⟨_, -, _, -, ⟨u, agreementId⟩, hid, _, hemit, hcall⟩ := hcall
    cases hcall
    exact .created hid hemit rfl
  | signStandingAgreement id => exact .signStandingAgreement h
  | createCatalogEntry entry =>
    obtain ⟨⟨_, id⟩, hcall, rfl⟩ := (map_eq_ok _ _ _).mp h
    simp only [Near.createCatalogEntry, bind_eq_ok] at hcall
    obtain ⟨_, -, ⟨u, catalogId⟩, hid, _, hemit, hcall⟩ := hcall
    cases hcall
    exact .created hid hemit rfl
  | updateCatalogEntry id entry =>
    simp only [execute, Near.updateCatalogEntry, bind_eq_ok] at h
    obtain ⟨_, -, _, -, _, -, h⟩ := h
    exact .emit h rfl
  | createLot lot =>
    obtain ⟨⟨_, id⟩, hcall, rfl⟩ := (map_eq_ok _ _ _).mp h
    simp only [Near.createLot, bind_eq_ok] at hcall
    obtain ⟨_, -, _, -, _, -, ⟨u, lotId⟩, hid, _, hemit, hcall⟩ := hcall
    cases hcall
    exact .created hid hemit rfl
  | disposeLot id disposition =>
    simp only [execute, Near.disposeLot, bind_eq_ok] at h
    obtain ⟨_, -, _, -, _, -, _, -, h⟩ := h
    exact .emit h rfl
  | recordCteReceiving request gln => exact .recordCte h
  | recordCteShipping request gln => exact .recordCte h
  | recordCteGrowing request commodity variety gln => exact .recordCte h
  | recordCteCreating request commodity variety gln => exact .recordCte h
  | transformLot inputs output =>
    obtain ⟨⟨_, id⟩, hcall, rfl⟩ := (map_eq_ok _ _ _).mp h
    exact .transformLot hcall
  | anchorCoa id certType issuer docHash expiresAt =>
    simp only [execute, Near.anchorCoa, bind_eq_ok] at h
    obtain ⟨_, -, _, -, _, -, _, -, _, -, h⟩ := h
    exact .emit h rfl
  | registerFinancePool poolId account rate available =>
    simp only [execute, Near.registerFinancePool, bind_eq_ok] at h
    obtain ⟨_, -, _, -, _, -, h⟩ := h
    exact .emit h rfl
  | confirmFinancing contractId poolId =>
    simp only [execute, Near.confirmFinancing, bind_eq_ok] at h
    obtain ⟨_, -, _, -, _, -, _, -, _, -, h⟩ := h
    exact .emit h rfl

end DirectTrade.Near
