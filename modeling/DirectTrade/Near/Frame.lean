import DirectTrade.Near.Advancing

/-!
What each call may write. Every public call names its tables; whatever it does to them, the other
tables are after it as they were before.
-/

namespace DirectTrade.Near

open Library Outcome

variable {s t u : DTPContract} {env : Env} {m : Method}

/-- The tables of the contract beside its audit trail. -/
inductive Table
  | parties | catalogs | lots | intents | listings | offers | contracts | fulfillments
  | settlements | standingAgreements | relationships | financePools | fsmaCtes | lotCteIndex
  deriving DecidableEq

/-- A table is as it was. -/
def Table.Same (s t : DTPContract) : Table → Prop
  | parties => t.parties = s.parties
  | catalogs => t.catalogs = s.catalogs
  | lots => t.lots = s.lots
  | intents => t.intents = s.intents
  | listings => t.listings = s.listings
  | offers => t.offers = s.offers
  | contracts => t.contracts = s.contracts
  | fulfillments => t.fulfillments = s.fulfillments
  | settlements => t.settlements = s.settlements
  | standingAgreements => t.standingAgreements = s.standingAgreements
  | relationships => t.relationships = s.relationships
  | financePools => t.financePools = s.financePools
  | fsmaCtes => t.fsmaCtes = s.fsmaCtes
  | lotCteIndex => t.lotCteIndex = s.lotCteIndex

/-- Every table is written or the same. -/
def Frame (written : List Table) (s t : DTPContract) : Prop :=
  ∀ table : Table, table ∈ written ∨ table.Same s t

/-- The state `s` with the written tables and the audit trail of `t`. -/
def DTPContract.overlay (s t : DTPContract) (written : List Table) : DTPContract :=
  { s with
    parties := if .parties ∈ written then t.parties else s.parties
    catalogs := if .catalogs ∈ written then t.catalogs else s.catalogs
    lots := if .lots ∈ written then t.lots else s.lots
    intents := if .intents ∈ written then t.intents else s.intents
    listings := if .listings ∈ written then t.listings else s.listings
    offers := if .offers ∈ written then t.offers else s.offers
    contracts := if .contracts ∈ written then t.contracts else s.contracts
    fulfillments := if .fulfillments ∈ written then t.fulfillments else s.fulfillments
    settlements := if .settlements ∈ written then t.settlements else s.settlements
    standingAgreements :=
      if .standingAgreements ∈ written then t.standingAgreements else s.standingAgreements
    relationships := if .relationships ∈ written then t.relationships else s.relationships
    financePools := if .financePools ∈ written then t.financePools else s.financePools
    fsmaCtes := if .fsmaCtes ∈ written then t.fsmaCtes else s.fsmaCtes
    lotCteIndex := if .lotCteIndex ∈ written then t.lotCteIndex else s.lotCteIndex
    auditLog := t.auditLog, auditIndex := t.auditIndex, idCounter := t.idCounter }

theorem Frame.of_overlay {written : List Table} (h : t = s.overlay t written) :
    Frame written s t := by
  intro table
  by_cases hwritten : table ∈ written
  · exact .inl hwritten
  · refine .inr ?_
    cases table <;> (unfold Table.Same; rw [h]; exact if_neg hwritten)

theorem Frame.same {written : List Table} (h : Frame written s t) (table : Table)
    (hother : table ∉ written) : table.Same s t :=
  (h table).resolve_left hother

/-- The tables that a call writes when it is accepted. -/
def Method.writes : Method → List Table
  | .registerParty | .addCertification _ | .addKybAttestation _ | .updatePartyIdentity ..
  | .authorizeAgent _ | .revokeAgent _ => [.parties]
  | .postIntent .. | .cancelIntent _ => [.intents]
  | .postListing .. | .withdrawListing _ => [.listings]
  | .submitOffer .. | .retractOffer _ => [.offers]
  | .acceptOffer .. => [.intents, .listings, .offers, .lots, .contracts]
  | .sellerAttestDelivery .. | .initiateDispute .. => [.contracts, .fulfillments]
  | .buyerAttestDelivery .. =>
    [.contracts, .fulfillments, .settlements, .lots, .relationships, .parties]
  | .triggerAutoSettlement _ | .resolveDispute .. =>
    [.contracts, .settlements, .lots, .relationships, .parties]
  | .proposeStandingAgreement .. => [.standingAgreements]
  | .signStandingAgreement _ => [.standingAgreements, .relationships]
  | .createCatalogEntry _ | .updateCatalogEntry .. => [.catalogs]
  | .createLot _ | .disposeLot .. | .anchorCoa .. => [.lots]
  | .recordCteReceiving .. | .recordCteShipping .. | .recordCteGrowing .. | .recordCteCreating .. =>
    [.fsmaCtes, .lotCteIndex]
  | .transformLot .. => [.lots, .fsmaCtes, .lotCteIndex]
  | .registerFinancePool .. => [.financePools]
  | .confirmFinancing .. => []

theorem acceptOffer_frame {offerId id : String} {arbitrator : Option AccountId}
    {agreement : Option String} (h : acceptOffer s env offerId arbitrator agreement = .ok (t, id)) :
    Frame [.intents, .listings, .offers, .lots, .contracts] s t := by
  simp only [acceptOffer, bind_eq_ok] at h
  obtain ⟨_, -, _, -, ⟨u, formation⟩, htarget, _, -, ⟨v, contractId⟩, hid, w, hlot, x, hcreated,
    y, hlocked, z, hfinance, h⟩ := h
  cases h
  obtain ⟨-, hu, -⟩ := acceptTarget_spec htarget
  obtain ⟨-, hv, -⟩ := nextIdFor_spec hid
  rw [requestFinancing_spec hfinance, emit_eq_ok hlocked, emit_eq_ok hcreated,
    (allocateLot_spec hlot).1, hv, hu]
  exact .of_overlay rfl

theorem executeSettlement_frame {ful id : String} {c : TradeContract} {ded : List Deduction}
    {loser : Option AccountId} (h : executeSettlement s env ful c ded loser = .ok (t, id)) :
    Frame [.contracts, .settlements, .lots, .relationships, .parties] s t := by
  simp only [executeSettlement, bind_eq_ok] at h
  obtain ⟨⟨u, st⟩, hrecord, v, hlot, w, hpair, x, hbuyer, y, hseller, z, hcreated, o, hreleased,
    h⟩ := h
  cases h
  rw [emit_eq_ok hreleased, emit_eq_ok hcreated, (updateReputation_spec hseller).1,
    (updateReputation_spec hbuyer).1, (updateRelationship_spec hpair).1,
    (transferLotOwnership_spec hlot).1, (recordSettlement_spec hrecord).1]
  exact .of_overlay rfl

theorem signStandingAgreement_frame {id : String}
    (h : signStandingAgreement s env id = .ok t) :
    Frame [.standingAgreements, .relationships] s t := by
  simp only [signStandingAgreement, bind_eq_ok] at h
  obtain ⟨_, -, _, -, h⟩ := h
  split at h
  · rw [bind_eq_ok] at h
    obtain ⟨u, hemit, h⟩ := h
    cases h
    rw [emit_eq_ok hemit, linkAgreement_shape]
    exact .of_overlay rfl
  · cases h
    exact .of_overlay rfl

theorem recordCte_frame {cteType : Fsma204EventType} {request : CteRequest}
    {site source dest commodity variety : Option String}
    (h : recordCte s env cteType request site source dest commodity variety = .ok t) :
    Frame [.fsmaCtes, .lotCteIndex] s t := by
  simp only [recordCte, bind_eq_ok] at h
  obtain ⟨_, -, _, -, _, -, ⟨u, cteId⟩, hid, _, -, h⟩ := h
  obtain ⟨-, hu, -⟩ := nextIdFor_spec hid
  rw [emit_eq_ok h, hu]
  exact .of_overlay rfl

theorem transformLot_frame {inputs : List InputLotRef} {output : OutputSpec} {id : String}
    (h : transformLot s env inputs output = .ok (t, id)) :
    Frame [.lots, .fsmaCtes, .lotCteIndex] s t := by
  simp only [transformLot, bind_eq_ok] at h
  obtain ⟨_, -, _, -, _, -, _, -, u, hdebits, ⟨v, lotId⟩, hlot, w, hcreated, x, htransformed,
    _, -, ⟨y, cteId⟩, hcte, z, hrecorded, h⟩ := h
  cases h
  obtain ⟨-, hv, -⟩ := nextIdFor_spec hlot
  obtain ⟨-, hy, -⟩ := nextIdFor_spec hcte
  rw [emit_eq_ok hrecorded, hy, emit_eq_ok htransformed, emit_eq_ok hcreated, hv,
    debitInputs_shape hdebits]
  exact .of_overlay rfl

theorem Frame.trans {written : List Table} (h : Frame written s t) (h' : Frame written t u) :
    Frame written s u := by
  intro table
  cases h table with
  | inl hwritten => exact .inl hwritten
  | inr hsame =>
    cases h' table with
    | inl hwritten => exact .inl hwritten
    | inr hsame' => exact .inr (by cases table <;> exact hsame'.trans hsame)

theorem Frame.mono {written more : List Table} (h : Frame written s t) (hmore : written ⊆ more) :
    Frame more s t := fun table => (h table).imp_left fun hmem => hmore hmem

/-- An accepted call writes no other tables than its own. -/
theorem execute_frame (h : execute s env m = .ok t) : Frame m.writes s t := by
  cases m with
  | registerParty =>
    simp only [execute, registerParty, bind_eq_ok] at h
    obtain ⟨_, -, h⟩ := h
    cases h
    exact .of_overlay rfl
  | addCertification cert =>
    simp only [execute, addCertification, bind_eq_ok] at h
    obtain ⟨_, -, h⟩ := h
    cases h
    exact .of_overlay rfl
  | addKybAttestation kyb =>
    simp only [execute, addKybAttestation, bind_eq_ok] at h
    obtain ⟨_, -, h⟩ := h
    cases h
    exact .of_overlay rfl
  | updatePartyIdentity gln duns pcqi uri =>
    simp only [execute, updatePartyIdentity, bind_eq_ok] at h
    obtain ⟨_, -, _, -, _, -, h⟩ := h
    rw [emit_eq_ok h]
    exact .of_overlay rfl
  | authorizeAgent agent =>
    simp only [execute, authorizeAgent, bind_eq_ok] at h
    obtain ⟨_, -, _, -, h⟩ := h
    split at h
    · cases h
      exact .of_overlay rfl
    · cases h
      exact .of_overlay rfl
  | revokeAgent agent =>
    simp only [execute, revokeAgent, bind_eq_ok] at h
    obtain ⟨_, -, h⟩ := h
    cases h
    exact .of_overlay rfl
  | postIntent goods delivery pricing finance freight expiresAt =>
    obtain ⟨⟨_, id⟩, hcall, rfl⟩ := (map_eq_ok _ _ _).mp h
    simp only [postIntent, bind_eq_ok] at hcall
    obtain ⟨_, -, _, -, _, -, ⟨u, intentId⟩, hid, _, hemit, hcall⟩ := hcall
    cases hcall
    obtain ⟨-, hu, -⟩ := nextIdFor_spec hid
    rw [emit_eq_ok hemit, hu]
    exact .of_overlay rfl
  | cancelIntent id =>
    simp only [execute, cancelIntent, bind_eq_ok] at h
    obtain ⟨_, -, _, -, _, -, h⟩ := h
    rw [emit_eq_ok h]
    exact .of_overlay rfl
  | postListing lotId goods delivery pricing finance freight certs availableFrom expiresAt =>
    obtain ⟨⟨_, id⟩, hcall, rfl⟩ := (map_eq_ok _ _ _).mp h
    simp only [postListing, bind_eq_ok] at hcall
    obtain ⟨_, -, _, -, _, -, _, -, ⟨u, listingId⟩, hid, _, hemit, hcall⟩ := hcall
    cases hcall
    obtain ⟨-, hu, -⟩ := nextIdFor_spec hid
    rw [emit_eq_ok hemit, hu]
    exact .of_overlay rfl
  | withdrawListing id =>
    simp only [execute, withdrawListing, bind_eq_ok] at h
    obtain ⟨_, -, _, -, _, -, h⟩ := h
    rw [emit_eq_ok h]
    exact .of_overlay rfl
  | submitOffer targetId targetType goods delivery finance freight price total certs expiresAt =>
    obtain ⟨⟨_, id⟩, hcall, rfl⟩ := (map_eq_ok _ _ _).mp h
    simp only [submitOffer, bind_eq_ok] at hcall
    obtain ⟨_, -, _, -, _, -, _, -, ⟨u, offerId⟩, hid, _, hemit, hcall⟩ := hcall
    cases hcall
    obtain ⟨-, hu, -⟩ := nextIdFor_spec hid
    rw [emit_eq_ok hemit, hu]
    exact .of_overlay rfl
  | retractOffer id =>
    simp only [execute, retractOffer, bind_eq_ok] at h
    obtain ⟨_, -, _, -, _, -, h⟩ := h
    rw [emit_eq_ok h]
    exact .of_overlay rfl
  | acceptOffer offerId arbitrator agreement =>
    obtain ⟨⟨_, id⟩, hcall, rfl⟩ := (map_eq_ok _ _ _).mp h
    exact acceptOffer_frame hcall
  | sellerAttestDelivery contractId quantity notes =>
    obtain ⟨⟨_, id⟩, hcall, rfl⟩ := (map_eq_ok _ _ _).mp h
    simp only [sellerAttestDelivery, bind_eq_ok] at hcall
    obtain ⟨_, -, _, -, _, -, _, -, ⟨u, ful⟩, hid, _, hemit, hcall⟩ := hcall
    cases hcall
    obtain ⟨-, hu, -⟩ := nextIdFor_spec hid
    rw [emit_eq_ok hemit, hu]
    exact .of_overlay rfl
  | buyerAttestDelivery ful notes deductions =>
    obtain ⟨⟨_, id⟩, hcall, rfl⟩ := (map_eq_ok _ _ _).mp h
    simp only [buyerAttestDelivery, bind_eq_ok] at hcall
    obtain ⟨_, -, _, -, _, -, _, -, u, hattested, hsettled⟩ := hcall
    have hdelivered : Frame [.contracts, .fulfillments, .settlements, .lots, .relationships,
        .parties] s u := by
      rw [emit_eq_ok hattested]
      exact .of_overlay rfl
    exact hdelivered.trans ((executeSettlement_frame hsettled).mono (by decide))
  | initiateDispute ful reason =>
    simp only [execute, initiateDispute, bind_eq_ok] at h
    obtain ⟨_, -, _, -, _, -, _, -, _, -, _, -, h⟩ := h
    rw [emit_eq_ok h]
    exact .of_overlay rfl
  | triggerAutoSettlement ful =>
    obtain ⟨⟨_, id⟩, hcall, rfl⟩ := (map_eq_ok _ _ _).mp h
    simp only [triggerAutoSettlement, bind_eq_ok] at hcall
    obtain ⟨_, -, _, -, _, -, _, -, _, -, hsettled⟩ := hcall
    exact executeSettlement_frame hsettled
  | resolveDispute contractId resolution deductions =>
    simp only [execute, resolveDispute, bind_eq_ok] at h
    obtain ⟨_, -, _, -, _, -, _, -, ⟨u, id⟩, hsettled, _, -, h⟩ := h
    refine (executeSettlement_frame hsettled).trans ?_
    rw [emit_eq_ok h]
    exact .of_overlay rfl
  | proposeStandingAgreement role counterparty goods start finish volume pricing cadence renewal =>
    obtain ⟨⟨_, id⟩, hcall, rfl⟩ := (map_eq_ok _ _ _).mp h
    simp only [proposeStandingAgreement, bind_eq_ok] at hcall
    obtain ⟨_, -, _, -, ⟨u, agreementId⟩, hid, _, hemit, hcall⟩ := hcall
    cases hcall
    obtain ⟨-, hu, -⟩ := nextIdFor_spec hid
    rw [emit_eq_ok hemit, hu]
    exact .of_overlay rfl
  | signStandingAgreement id => exact signStandingAgreement_frame h
  | createCatalogEntry entry =>
    obtain ⟨⟨_, id⟩, hcall, rfl⟩ := (map_eq_ok _ _ _).mp h
    simp only [createCatalogEntry, bind_eq_ok] at hcall
    obtain ⟨_, -, ⟨u, catalogId⟩, hid, _, hemit, hcall⟩ := hcall
    cases hcall
    obtain ⟨-, hu, -⟩ := nextIdFor_spec hid
    rw [emit_eq_ok hemit, hu]
    exact .of_overlay rfl
  | updateCatalogEntry id entry =>
    simp only [execute, updateCatalogEntry, bind_eq_ok] at h
    obtain ⟨_, -, _, -, _, -, h⟩ := h
    rw [emit_eq_ok h]
    exact .of_overlay rfl
  | createLot lot =>
    obtain ⟨⟨_, id⟩, hcall, rfl⟩ := (map_eq_ok _ _ _).mp h
    simp only [createLot, bind_eq_ok] at hcall
    obtain ⟨_, -, _, -, _, -, ⟨u, lotId⟩, hid, _, hemit, hcall⟩ := hcall
    cases hcall
    obtain ⟨-, hu, -⟩ := nextIdFor_spec hid
    rw [emit_eq_ok hemit, hu]
    exact .of_overlay rfl
  | disposeLot id disposition =>
    simp only [execute, disposeLot, bind_eq_ok] at h
    obtain ⟨_, -, _, -, _, -, _, -, h⟩ := h
    rw [emit_eq_ok h]
    exact .of_overlay rfl
  | recordCteReceiving request gln => exact recordCte_frame h
  | recordCteShipping request gln => exact recordCte_frame h
  | recordCteGrowing request commodity variety gln => exact recordCte_frame h
  | recordCteCreating request commodity variety gln => exact recordCte_frame h
  | transformLot inputs output =>
    obtain ⟨⟨_, id⟩, hcall, rfl⟩ := (map_eq_ok _ _ _).mp h
    exact transformLot_frame hcall
  | anchorCoa id certType issuer docHash expiresAt =>
    simp only [execute, anchorCoa, bind_eq_ok] at h
    obtain ⟨_, -, _, -, _, -, _, -, _, -, h⟩ := h
    rw [emit_eq_ok h]
    exact .of_overlay rfl
  | registerFinancePool poolId account rate available =>
    simp only [execute, registerFinancePool, bind_eq_ok] at h
    obtain ⟨_, -, _, -, _, -, h⟩ := h
    rw [emit_eq_ok h]
    exact .of_overlay rfl
  | confirmFinancing contractId poolId =>
    simp only [execute, confirmFinancing, bind_eq_ok] at h
    obtain ⟨_, -, _, -, _, -, _, -, _, -, h⟩ := h
    rw [emit_eq_ok h]
    exact .of_overlay rfl

end DirectTrade.Near
