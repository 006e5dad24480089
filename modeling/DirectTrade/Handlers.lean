import DirectTrade.Effect

/-!
One lemma for each handler, which places its outcomes among the effects. Nothing after
this module opens a handler to learn how it changes the tables.
-/

namespace DirectTrade

open Library

variable [Primitives] [Reducers]

namespace Call

variable {k : Call} {reply : Reply}

theorem personRegister_effect {keys : List KeyId}
    (payload : k.c.payload = .mutation (.personRegister keys))
    (h : k.personRegister keys = .ok reply) : Effect k reply := by
  simp only [personRegister, Outcome.bind_eq_ok, demand_eq_ok, exists_const] at h
  obtain ⟨⟨person, apart, requester, identity⟩, ⟨h0, h8, distinct, holder⟩, h⟩ := h
  cases previous : k.previous with
  | some receipt =>
    simp only [previous, Outcome.bind_eq_ok, demand_eq_ok, Outcome.pure_eq_ok,
      exists_const] at h
    obtain ⟨-, rfl⟩ := h
    exact .replay _ receipt payload ⟨rfl, rfl⟩ previous
  | none =>
    simp only [previous, Outcome.bind_eq_ok, demand_eq_ok, provenKeys_eq_ok,
      Outcome.pure_eq_ok, exists_const] at h
    obtain ⟨⟨absent, unreserved⟩, proven, rfl⟩ := h
    exact .register keys payload ⟨previous, person, apart, requester, identity,
      ⟨h0, h8, distinct⟩, holder, absent, unreserved, proven⟩

theorem personRotate_effect {add revoke : List KeyId}
    (payload : k.c.payload = .mutation (.personRotate add revoke))
    (h : k.personRotate add revoke = .ok reply) : Effect k reply := by
  simp only [personRotate, Outcome.bind_eq_ok, demand_eq_ok, exists_const] at h
  obtain ⟨⟨kind, apart⟩, unreserved, h⟩ := h
  cases previous : k.previous with
  | some receipt =>
    simp only [previous, Outcome.pure_eq_ok] at h
    exact h ▸ .replay _ receipt payload ⟨rfl, rfl⟩ previous
  | none =>
    simp only [previous, Outcome.bind_eq_ok, demand_eq_ok, provenKeys_eq_ok, access_eq_ok,
      Outcome.pure_eq_ok, exists_const] at h
    obtain ⟨person, found, ⟨size, distinct⟩, proven, known, retained, rfl⟩ := h
    exact .rotate add revoke person payload ⟨previous, kind, apart, unreserved, found, size,
      distinct, proven, known, retained⟩

theorem organizationCreate_effect {name : String} {nonce : Uuid} {controllers : List Uuid}
    {threshold : ℕ}
    (payload : k.c.payload = .mutation (.organizationCreate name nonce controllers threshold))
    (h : k.organizationCreate name nonce controllers threshold = .ok reply) :
    Effect k reply := by
  simp only [organizationCreate, Outcome.bind_eq_ok, demand_eq_ok, require_eq_ok, ids_eq_ok,
    quorum_eq_ok, exists_const] at h
  obtain ⟨orgId, named, distinct, -, -, ⟨person, identity, founder⟩, bound, quorum, h⟩ := h
  cases previous : k.previous with
  | some receipt =>
    simp only [previous, Outcome.pure_eq_ok] at h
    exact h ▸ .replay _ receipt payload ⟨rfl, rfl⟩ previous
  | none =>
    simp only [previous, Outcome.bind_eq_ok, demand_eq_ok, Outcome.pure_eq_ok,
      exists_const] at h
    obtain ⟨⟨absent, unreserved⟩, rfl⟩ := h
    exact .found orgId name nonce controllers threshold payload ⟨previous, named, distinct,
      person, identity, founder, bound, quorum, absent, unreserved⟩

theorem organizationPolicy_effect {controllers : List Uuid} {threshold : ℕ}
    (payload : k.c.payload = .mutation (.organizationPolicy controllers threshold))
    (h : k.organizationPolicy controllers threshold = .ok reply) : Effect k reply := by
  simp only [organizationPolicy, Outcome.bind_eq_ok, demand_eq_ok, currentOrg_eq_ok,
    asController_eq_ok, ids_eq_ok, quorum_eq_ok, exists_const] at h
  obtain ⟨o, inside, o', ⟨rfl, control⟩, distinct, bound, consent, h⟩ := h
  cases previous : k.previous with
  | some receipt =>
    simp only [previous, Outcome.pure_eq_ok] at h
    exact h ▸ .replay _ receipt payload ⟨rfl, rfl⟩ previous
  | none =>
    simp only [previous, Outcome.pure_eq_ok] at h
    exact h ▸ .company o _ _ _ payload previous inside
      (.control controllers threshold control distinct bound consent)

theorem membershipInvite_effect {invitationId personId : Uuid} {requested : List Permission}
    {expiresAt : Instant}
    (payload : k.c.payload =
      .mutation (.membershipInvite invitationId personId requested expiresAt))
    (h : k.membershipInvite invitationId personId requested expiresAt = .ok reply) :
    Effect k reply := by
  simp only [membershipInvite, Outcome.bind_eq_ok, demand_eq_ok, currentOrg_eq_ok,
    management_eq_ok, future_eq_ok, exists_const] at h
  obtain ⟨o, inside, manages, lifetime, permissions, supported, target, covered, h⟩ := h
  cases previous : k.previous with
  | some receipt =>
    simp only [previous, Outcome.pure_eq_ok] at h
    exact h ▸ .replay _ receipt payload ⟨rfl, rfl⟩ previous
  | none =>
    simp only [previous, Outcome.bind_eq_ok, demand_eq_ok, Outcome.pure_eq_ok,
      exists_const] at h
    obtain ⟨absent, rfl⟩ := h
    exact .company o _ _ _ payload previous inside (.invite invitationId personId requested
      permissions expiresAt manages lifetime supported target covered absent)

theorem membershipAccept_effect {invitationId : Uuid}
    (payload : k.c.payload = .mutation (.membershipAccept invitationId))
    (h : k.membershipAccept invitationId = .ok reply) : Effect k reply := by
  simp only [membershipAccept, Outcome.bind_eq_ok, demand_eq_ok, currentOrg_eq_ok,
    require_eq_ok, Option.filter_eq_some_iff, Bool.and_eq_true, decide_eq_true_eq,
    exists_const] at h
  obtain ⟨o, inside, inv, ⟨found, ⟨⟨person, invitee⟩, live⟩, lifetime⟩,
    ⟨inviter, manages⟩, covered, h⟩ := h
  cases previous : k.previous with
  | some receipt =>
    simp only [previous, Outcome.bind_eq_ok, demand_eq_ok, Outcome.pure_eq_ok,
      exists_const] at h
    obtain ⟨-, rfl⟩ := h
    exact .replay _ receipt payload ⟨rfl, rfl⟩ previous
  | none =>
    simp only [previous, Outcome.bind_eq_ok, demand_eq_ok, Outcome.pure_eq_ok,
      exists_const] at h
    obtain ⟨unconsumed, rfl⟩ := h
    exact .company o _ _ _ payload previous inside (.accept invitationId inv found person
      invitee live lifetime inviter manages covered unconsumed)

theorem membershipRevoke_effect {personId : Uuid}
    (payload : k.c.payload = .mutation (.membershipRevoke personId))
    (h : k.membershipRevoke personId = .ok reply) : Effect k reply := by
  simp only [membershipRevoke, Outcome.bind_eq_ok, demand_eq_ok, currentOrg_eq_ok,
    management_eq_ok, exists_const] at h
  obtain ⟨o, inside, manages, target, h⟩ := h
  cases previous : k.previous with
  | some receipt =>
    simp only [previous, Outcome.pure_eq_ok] at h
    exact h ▸ .replay _ receipt payload ⟨rfl, rfl⟩ previous
  | none =>
    simp only [previous, Outcome.bind_eq_ok, demand_eq_ok, Outcome.pure_eq_ok,
      exists_const] at h
    obtain ⟨ordered, rfl⟩ := h
    exact .company o _ _ _ payload previous inside (.revoke personId manages target ordered)

theorem installationCreate_effect {p : InstallationPayload}
    (payload : k.c.payload = .mutation (.installationCreate p))
    (h : k.installationCreate p = .ok reply) : Effect k reply := by
  simp only [installationCreate, Outcome.bind_eq_ok, demand_eq_ok, currentOrg_eq_ok,
    management_eq_ok, ids_eq_ok, future_eq_ok, require_eq_ok, Option.filter_eq_some_iff,
    exists_const] at h
  obtain ⟨o, inside, manages, distinct, lifetime, release, ⟨released, -⟩, _, -, _, -,
    ⟨scopes, actions⟩, h⟩ := h
  cases previous : k.previous with
  | some receipt =>
    simp only [previous, Outcome.bind_eq_ok, demand_eq_ok, Outcome.pure_eq_ok,
      exists_const] at h
    obtain ⟨-, rfl⟩ := h
    exact .replay _ receipt payload ⟨rfl, rfl⟩ previous
  | none =>
    simp only [previous, Outcome.bind_eq_ok, demand_eq_ok, keyFree_eq_ok, Outcome.pure_eq_ok,
      exists_const] at h
    obtain ⟨unreserved, absent, free, proven, covered, rfl⟩ := h
    exact .company o _ _ _ payload previous inside (.install p release ⟨manages, distinct,
      lifetime, released, scopes, actions, unreserved, absent, free, proven, covered⟩)

theorem installationRevoke_effect {installationId : Uuid}
    (payload : k.c.payload = .mutation (.installationRevoke installationId))
    (h : k.installationRevoke installationId = .ok reply) : Effect k reply := by
  simp only [installationRevoke, Outcome.bind_eq_ok, demand_eq_ok, currentOrg_eq_ok,
    management_eq_ok, exists_const] at h
  obtain ⟨o, inside, manages, found, h⟩ := h
  cases previous : k.previous with
  | some receipt =>
    simp only [previous, Outcome.pure_eq_ok] at h
    exact h ▸ .replay _ receipt payload ⟨rfl, rfl⟩ previous
  | none =>
    simp only [previous, Outcome.pure_eq_ok] at h
    exact h ▸ .company o _ _ _ payload previous inside (.uninstall installationId manages found)

theorem policyWrite_effect (create : Bool) {p : PolicyPayload}
    (payload : k.c.payload = .mutation (if create then .policyCreate p else .policyUpdate p))
    (h : k.policyWrite create p = .ok reply) : Effect k reply := by
  simp only [policyWrite, Outcome.bind_eq_ok, demand_eq_ok, currentOrg_eq_ok,
    checkPolicy_eq_ok, quorum_eq_ok, exists_const] at h
  obtain ⟨o, inside, unreserved, _, authorized, fits, consent, h⟩ := h
  cases previous : k.previous with
  | some receipt =>
    simp only [previous, Outcome.pure_eq_ok] at h
    exact h ▸ .replay _ receipt payload (by cases create <;> exact ⟨rfl, rfl⟩) previous
  | none =>
    simp only [previous, Outcome.bind_eq_ok, demand_eq_ok, Outcome.pure_eq_ok,
      exists_const] at h
    obtain ⟨expected, classification, rfl⟩ := h
    exact .revise o create p payload ⟨previous, inside, unreserved,
      mayWritePolicy_eq_ok previous authorized, fits, consent, expected, classification⟩

theorem profilePublish_effect {p : ProfilePayload}
    (payload : k.c.payload = .mutation (.profilePublish p))
    (h : k.profilePublish p = .ok reply) : Effect k reply := by
  simp only [profilePublish, Outcome.bind_eq_ok, demand_eq_ok, currentOrg_eq_ok,
    management_eq_ok, ids_eq_ok, exists_const] at h
  obtain ⟨o, inside, manages, ⟨-, readers⟩, _, valid, -, unreserved, unclaimed, h⟩ := h
  cases previous : k.previous with
  | some receipt =>
    simp only [previous, Outcome.pure_eq_ok] at h
    exact h ▸ .replay _ receipt payload ⟨rfl, rfl⟩ previous
  | none =>
    simp only [previous, Outcome.bind_eq_ok, demand_eq_ok, Outcome.pure_eq_ok,
      exists_const] at h
    obtain ⟨immutable, rfl⟩ := h
    exact .publish o p payload ⟨previous, inside, manages, readers, valid, unreserved,
      unclaimed, immutable⟩

theorem profileAdmit_effect {digest : Digest}
    (payload : k.c.payload = .mutation (.profileAdmit digest))
    (h : k.profileAdmit digest = .ok reply) : Effect k reply := by
  simp only [profileAdmit, Outcome.bind_eq_ok, demand_eq_ok, currentOrg_eq_ok,
    management_eq_ok, require_eq_ok, exists_const] at h
  obtain ⟨o, inside, manages, contract, registered, -, -, _, valid, h⟩ := h
  cases previous : k.previous with
  | some receipt =>
    simp only [previous, Outcome.pure_eq_ok] at h
    exact h ▸ .replay _ receipt payload ⟨rfl, rfl⟩ previous
  | none =>
    have admits : k.Admits o digest contract := ⟨previous, inside, manages, registered, valid⟩
    cases known : k.s.profiles.get? digest with
    | some profile =>
      simp only [previous, known, Outcome.pure_eq_ok] at h
      exact h ▸ .contractAdmitted o digest contract profile payload admits known
    | none =>
      simp only [previous, known, Outcome.pure_eq_ok] at h
      exact h ▸ .admitContract o digest contract payload admits known

theorem releasePublish_effect {p : ReleasePayload}
    (payload : k.c.payload = .mutation (.releasePublish p))
    (h : k.releasePublish p = .ok reply) : Effect k reply := by
  simp only [releasePublish, Outcome.bind_eq_ok, demand_eq_ok, currentOrg_eq_ok,
    management_eq_ok, exists_const] at h
  obtain ⟨o, inside, manages, _, -, version, profiles, actions, _, -, unreserved, unclaimed, h⟩ := h
  cases previous : k.previous with
  | some receipt =>
    simp only [previous, Outcome.pure_eq_ok] at h
    exact h ▸ .replay _ receipt payload ⟨rfl, rfl⟩ previous
  | none =>
    simp only [previous, Outcome.bind_eq_ok, demand_eq_ok, Outcome.pure_eq_ok,
      exists_const] at h
    obtain ⟨immutable, owned, rfl⟩ := h
    exact .release o p payload ⟨previous, inside, manages, version, profiles, actions,
      unreserved, unclaimed, immutable, owned⟩

theorem recordAppend_effect {p : RecordPayload}
    (payload : k.c.payload = .mutation (.recordAppend p))
    (h : k.recordAppend p = .ok reply) : Effect k reply := by
  simp only [recordAppend, Outcome.bind_eq_ok, demand_eq_ok, currentOrg_eq_ok, ids_eq_ok,
    writable_eq_ok, require_eq_ok, Option.filter_eq_some_iff, exists_const] at h
  obtain ⟨o, inside, ⟨-, parties⟩, own, writable, profile, ⟨pinned, accessible⟩, _, -, h⟩ := h
  cases previous : k.previous with
  | some receipt =>
    simp only [previous, Outcome.pure_eq_ok] at h
    exact h ▸ .replay _ receipt payload ⟨rfl, rfl⟩ previous
  | none =>
    simp only [previous, Outcome.bind_eq_ok, demand_eq_ok, exists_const] at h
    obtain ⟨⟨absent, unreserved⟩, capacity, before, predecessor, _, continues, s, attested,
      shaped, outcome, assessed, h⟩ := h
    have appends : k.Appends o p profile before s := ⟨previous, inside, parties, own, writable,
      pinned, accessible, absent, unreserved, capacity, predecessor, continues, attested,
      shaped⟩
    cases outcome with
    | duplicate company recordId =>
      simp only [Outcome.bind_eq_ok, access_eq_ok, Outcome.pure_eq_ok] at h
      obtain ⟨recorded, known, rfl⟩ := h
      exact .duplicate o p profile before s company recordId recorded payload appends assessed
        known
    | validated company validation =>
      simp only [Outcome.pure_eq_ok] at h
      exact h ▸ .append o p profile before s company validation payload appends assessed

theorem inventoryCreate_effect {policyId poolId productId : Uuid} {baseUnit : String}
    (payload : k.c.payload = .mutation (.inventoryCreate policyId poolId productId baseUnit))
    (h : k.inventoryCreate (.inventoryCreate policyId poolId productId baseUnit) policyId poolId
      productId baseUnit = .ok reply) : Effect k reply := by
  simp only [inventoryCreate, Outcome.bind_eq_ok, writable_eq_ok, currentOrg_eq_ok,
    exists_const] at h
  obtain ⟨writable, o, inside, h⟩ := h
  cases previous : k.previous with
  | some receipt =>
    simp only [previous, Outcome.pure_eq_ok] at h
    exact h ▸ .replayStock o _ receipt payload rfl inside previous
  | none =>
    simp only [previous, Outcome.bind_eq_ok, demand_eq_ok, require_eq_ok, Outcome.pure_eq_ok,
      exists_const] at h
    obtain ⟨absent, pool, opened, rfl⟩ := h
    exact .stock o _ _ _ payload previous inside
      (.pool policyId poolId productId baseUnit pool writable absent opened)

theorem inventoryOpen_effect {policyId productId : Uuid}
    (payload : k.c.payload = .mutation (.inventoryOpen policyId productId))
    (h : k.inventoryOpen (.inventoryOpen policyId productId) policyId productId = .ok reply) :
    Effect k reply := by
  simp only [inventoryOpen, Outcome.bind_eq_ok, writable_eq_ok, currentOrg_eq_ok,
    exists_const] at h
  obtain ⟨o, inside, writable, product, head, h⟩ := h
  cases previous : k.previous with
  | some receipt =>
    simp only [previous, Outcome.pure_eq_ok] at h
    exact h ▸ .replayStock o _ receipt payload rfl inside previous
  | none =>
    simp only [previous, Outcome.bind_eq_ok, demand_eq_ok, require_eq_ok, Outcome.pure_eq_ok,
      exists_const] at h
    obtain ⟨absent, ledger, opened, rfl⟩ := h
    exact .stock o _ _ _ payload previous inside
      (.ledger policyId productId product ledger writable head absent opened)

theorem flowOpen_effect {policyId bookId : Uuid}
    (payload : k.c.payload = .mutation (.flowOpen policyId bookId))
    (h : k.flowOpen (.flowOpen policyId bookId) policyId bookId = .ok reply) :
    Effect k reply := by
  simp only [flowOpen, Outcome.bind_eq_ok, writable_eq_ok, currentOrg_eq_ok,
    exists_const] at h
  obtain ⟨o, inside, writable, h⟩ := h
  cases previous : k.previous with
  | some receipt =>
    simp only [previous, Outcome.pure_eq_ok] at h
    exact h ▸ .replayStock o _ receipt payload rfl inside previous
  | none =>
    simp only [previous, Outcome.bind_eq_ok, demand_eq_ok, Outcome.pure_eq_ok,
      exists_const] at h
    obtain ⟨absent, rfl⟩ := h
    exact .stock o _ _ _ payload previous inside (.book policyId bookId writable absent)

theorem flowLedgerOpen_effect {p : LedgerPayload}
    (payload : k.c.payload = .mutation (.flowLedgerOpen p))
    (h : k.flowLedgerOpen (.flowLedgerOpen p) p = .ok reply) : Effect k reply := by
  simp only [flowLedgerOpen, Outcome.bind_eq_ok, writable_eq_ok, currentOrg_eq_ok,
    require_eq_ok, Option.filter_eq_some_iff, decide_eq_true_eq, exists_const] at h
  obtain ⟨o, inside, writable, book, ⟨found, held⟩, h⟩ := h
  cases previous : k.previous with
  | some receipt =>
    simp only [previous, Outcome.pure_eq_ok] at h
    exact h ▸ .replayStock o _ receipt payload rfl inside previous
  | none =>
    simp only [previous, Outcome.bind_eq_ok, Outcome.pure_eq_ok] at h
    obtain ⟨⟨key, opened⟩, opens, rfl⟩ := h
    exact .stock o _ _ _ payload previous inside
      (.bookLedger p book key opened writable found held opens)

omit [Primitives] [Reducers] in
theorem Reads.plain {result : Result} (action : k.c.payload.observes = true)
    (h : ∀ token, result ≠ .token token) : k.Reads (some result) :=
  ⟨action, fun token heq => absurd (Option.some.inj heq) (h token)⟩

theorem organizationsList_effect (payload : k.c.payload = .organizationsList)
    (h : k.organizationsList = .ok reply) : Effect k reply := by
  simp only [organizationsList, Outcome.bind_eq_ok, Outcome.pure_eq_ok] at h
  obtain ⟨_, -, rfl⟩ := h
  exact .read _ (.plain (by rw [payload]; rfl) (by simp))

theorem policyGet_effect {policyId : Uuid} (payload : k.c.payload = .policyGet policyId)
    (h : k.policyGet policyId = .ok reply) : Effect k reply := by
  simp only [policyGet, Outcome.bind_eq_ok, Outcome.pure_eq_ok] at h
  obtain ⟨pol, -, o, -, _, -, rfl⟩ := h
  exact .read _ (.plain (by rw [payload]; rfl) (by simp))

theorem profileGet_effect {digest : Digest} (payload : k.c.payload = .profileGet digest)
    (h : k.profileGet digest = .ok reply) : Effect k reply := by
  simp only [profileGet, Outcome.bind_eq_ok, Outcome.pure_eq_ok] at h
  obtain ⟨o, -, _, -, profile, -, _, -, understood, -, _, -, rfl⟩ := h
  exact .read _ (.plain (by rw [payload]; rfl) (by simp))

theorem recordGet_effect {id : Uuid} {digest : Digest}
    (payload : k.c.payload = .recordGet id digest)
    (h : k.recordGet id digest = .ok reply) : Effect k reply := by
  simp only [recordGet, Outcome.bind_eq_ok, Outcome.pure_eq_ok] at h
  obtain ⟨r, -, o, -, _, -, allowed, -, _, -, _, -, view, -, rfl⟩ := h
  exact .read _ (.plain (by rw [payload]; rfl) (by simp))

theorem recordsPage_effect {page : PagePayload} {exporting : Bool}
    (action : k.c.payload.observes = true)
    (h : k.recordsPage page exporting = .ok reply) : Effect k reply := by
  simp only [recordsPage, Outcome.bind_eq_ok, Outcome.pure_eq_ok] at h
  obtain ⟨o, -, _, -, _, -, expanded, -, chosen, -, views, -, rfl⟩ := h
  exact .read _ (.plain action (by simp))

theorem inventoryLedger_effect {policyId productId : Uuid}
    (payload : k.c.payload = .inventoryLedger policyId productId)
    (h : k.inventoryLedger policyId productId = .ok reply) : Effect k reply := by
  simp only [inventoryLedger, Outcome.bind_eq_ok, Outcome.pure_eq_ok] at h
  obtain ⟨o, -, held, -, rfl⟩ := h
  exact .read _ (.plain (by rw [payload]; rfl) (by simp))

theorem flowBook_effect {policyId bookId : Uuid}
    (payload : k.c.payload = .flowBook policyId bookId)
    (h : k.flowBook policyId bookId = .ok reply) : Effect k reply := by
  simp only [flowBook, Outcome.bind_eq_ok, Outcome.pure_eq_ok] at h
  obtain ⟨o, -, held, -, rfl⟩ := h
  exact .read _ (.plain (by rw [payload]; rfl) (by simp))

theorem inventoryGet_effect {policyId poolId : Uuid}
    (payload : k.c.payload = .inventoryGet policyId poolId)
    (h : k.inventoryGet policyId poolId = .ok reply) : Effect k reply := by
  simp only [inventoryGet, Outcome.bind_eq_ok, Outcome.pure_eq_ok] at h
  obtain ⟨o, -, held, -, rfl⟩ := h
  exact .read _ (.plain (by rw [payload]; rfl) (by simp))

theorem evidenceInspect_effect {token : SignedToken} {accepted : List Digest}
    (payload : k.c.payload = .evidenceInspect token accepted)
    (h : k.evidenceInspect token accepted = .ok reply) : Effect k reply := by
  simp only [evidenceInspect, Outcome.bind_eq_ok, Outcome.pure_eq_ok] at h
  obtain ⟨o, -, body, -, _, -, _, -, _, -, _, -, _, -, _, -, _, -, inspected, -, rfl⟩ := h
  exact .read _ (.plain (by rw [payload]; rfl) (by simp))

theorem authorityExport_effect (payload : k.c.payload = .authorityExport)
    (h : k.authorityExport = .ok reply) : Effect k reply := by
  simp only [authorityExport, authorityIssue, Outcome.bind_eq_ok, Outcome.pure_eq_ok] at h
  obtain ⟨o, -, _, -, token, ⟨org, -, issued⟩, rfl⟩ := h
  refine .read _ ⟨by rw [payload]; rfl, ?_⟩
  rintro _ ⟨rfl⟩
  exact Or.inl ⟨_, congrArg Signed.body (signToken_eq_ok issued)⟩

theorem evidenceIssue_effect {recordIds : List Uuid} {recipient : Recipient}
    {purpose : String} {expiresAt : Instant}
    (payload : k.c.payload = .evidenceIssue recordIds recipient purpose expiresAt)
    (h : k.evidenceIssue recordIds recipient purpose expiresAt = .ok reply) :
    Effect k reply := by
  simp only [evidenceIssue, Outcome.bind_eq_ok, Outcome.pure_eq_ok] at h
  obtain ⟨_, -, _, -, _, -, o, -, _, -, _, -, records, -, needed, -, profiles, -, _, -, _, -,
    token, issued, rfl⟩ := h
  refine .read _ ⟨by rw [payload]; rfl, ?_⟩
  rintro _ ⟨rfl⟩
  exact Or.inr (Or.inl ⟨_, congrArg Signed.body (signToken_eq_ok issued)⟩)

theorem chunk_effect {migrationId : Uuid} {index : ℕ}
    (payload : k.c.payload = .migrationChunk migrationId index)
    (h : k.chunk migrationId index = .ok reply) : Effect k reply := by
  simp only [chunk, DirectTrade.migrationChunk, Outcome.bind_eq_ok, Outcome.pure_eq_ok] at h
  obtain ⟨out, -, o, -, _, -, o', -, _, -, result, ⟨_, -, data, -, hash, -, rfl⟩, rfl⟩ := h
  exact .read _ (.plain (by rw [payload]; rfl) (by simp))

theorem receipt_effect {migrationId : Uuid}
    (payload : k.c.payload = .migrationReceipt migrationId)
    (h : k.receipt migrationId = .ok reply) : Effect k reply := by
  simp only [receipt, DirectTrade.migrationReceipt, Outcome.bind_eq_ok, require_eq_ok,
    Option.bind_eq_some_iff, Outcome.pure_eq_ok] at h
  obtain ⟨_, -, o, -, _, -, result, ⟨commit, ⟨out, found, token⟩, rfl⟩, rfl⟩ := h
  refine .read _ ⟨by rw [payload]; rfl, ?_⟩
  rintro _ ⟨rfl⟩
  exact Or.inr (Or.inr ⟨migrationId, out, commit, found, token, rfl⟩)

theorem status_effect {migrationId : Uuid}
    (payload : k.c.payload = .migrationStatus migrationId)
    (h : k.status migrationId = .ok reply) : Effect k reply := by
  simp only [status, Outcome.bind_eq_ok, Outcome.pure_eq_ok] at h
  obtain ⟨stage, -, rfl⟩ := h
  exact .read _ (.plain (by rw [payload]; rfl) (by simp))

omit [Reducers] in
theorem acceptAuthority_attests {s s' : State} {token : SignedToken} {ctx : Context}
    {hop : Option Digest} {result : Result}
    (h : acceptAuthority s token ctx hop = .ok (s', result)) :
    ∃ b, Attests s token ctx hop b ∧ s' = attested s token b ∧
      result = .authority b.organizationId b.generation b.host b.expiresAt := by
  simp only [acceptAuthority, Outcome.bind_eq_ok, demand_eq_ok, exists_const] at h
  obtain ⟨b, verified, bound, ⟨remote, -⟩, elsewhere, -, h⟩ := h
  refine ⟨b, ?_⟩
  cases hold : (s.remoteAuthorities.get? b.organizationId).map (·.token) with
  | none =>
    simp only [hold, Outcome.pure_eq_ok, Prod.mk.injEq] at h
    obtain ⟨rfl, rfl⟩ := h
    exact ⟨⟨verified, bound, remote, elsewhere, by simp [hold]⟩, rfl, rfl⟩
  | some old =>
    simp only [hold, Option.any_some, Outcome.bind_eq_ok, Outcome.pure_eq_ok,
      Prod.mk.injEq] at h
    obtain ⟨_, continued, rfl, rfl⟩ := h
    refine ⟨⟨verified, bound, remote, elsewhere, ?_⟩, rfl, rfl⟩
    rintro _ heq
    obtain rfl := Option.some.inj (hold.symm.trans heq)
    exact continued

theorem authorityImport_effect {token : SignedToken}
    (payload : k.c.payload = .authorityImport token)
    (h : k.authorityImport token = .ok reply) : Effect k reply := by
  simp only [authorityImport, Outcome.bind_eq_ok, Outcome.pure_eq_ok] at h
  obtain ⟨o, -, _, -, ⟨s', result⟩, accepted, rfl⟩ := h
  obtain ⟨b, attests, rfl, rfl⟩ := acceptAuthority_attests accepted
  exact .attest token none b (.inl payload) attests

theorem authorityRelocate_effect {token commit : SignedToken}
    (payload : k.c.payload = .authorityRelocate token commit)
    (h : k.authorityRelocate token commit = .ok reply) : Effect k reply := by
  simp only [authorityRelocate, DirectTrade.authorityRelocate, Outcome.bind_eq_ok,
    Outcome.pure_eq_ok] at h
  obtain ⟨o, -, _, -, ⟨s', result⟩, ⟨next, -, previous, -, old, -, c, -, _, -, _, -, ready, -,
    _, -, _, -, accepted⟩, rfl⟩ := h
  obtain ⟨b, attests, rfl, rfl⟩ := acceptAuthority_attests accepted
  exact .attest token _ b (.inr ⟨commit, payload⟩) attests

theorem prepare_effect {destination : HostRef}
    (payload : k.c.payload = .mutation (.migrationPrepare destination))
    (h : k.prepare (.migrationPrepare destination) destination = .ok reply) :
    Effect k reply := by
  simp only [prepare, migrationPrepare, Outcome.bind_eq_ok, demand_eq_ok, currentOrg_eq_ok,
    asController_eq_ok, require_eq_ok, Option.filter_eq_some_iff, Bool.and_eq_true,
    decide_eq_true_eq, Outcome.pure_eq_ok, exists_const] at h
  obtain ⟨o, inside, _, ⟨rfl, controls⟩, _, stewards, snapshot, built, ⟨s', result⟩,
    ⟨org, ⟨source, ⟨⟨⟨⟨active, -⟩, generation⟩, named⟩, -⟩, -⟩, bound, ⟨pinned, apart⟩, size,
      h⟩, rfl⟩ := h
  have prepares : k.Prepares o destination snapshot org := ⟨inside, controls, stewards, built,
    source, active, generation, named, bound, pinned, apart, size⟩
  cases prior : k.s.outgoing.get? k.c.requestId with
  | some out =>
    simp only [manifestOf, prior, Outcome.bind_eq_ok, demand_eq_ok, Outcome.pure_eq_ok,
      Prod.mk.injEq, exists_const] at h
    obtain ⟨same, rfl, rfl⟩ := h
    exact .prepareAgain o destination snapshot org out payload prepares prior same
  | none =>
    simp only [manifestOf, prior, Outcome.bind_eq_ok, Outcome.pure_eq_ok, Prod.mk.injEq] at h
    obtain ⟨token, issued, rfl, rfl⟩ := h
    obtain rfl := signToken_eq_ok issued
    exact .prepare o destination snapshot org payload prepares prior

omit [Primitives] [Reducers] in
theorem ownMigration_eq_ok {o : Organization} {migrationId : Uuid} {out : OutboundMigration}
    {u : Unit} (found : k.s.outgoing.get? migrationId = some out)
    (h : k.ownMigration o migrationId = .ok u) : out.manifest.organizationId = o.id := by
  simpa [ownMigration, found] using h

theorem commit_effect {migrationId : Uuid} {ready : SignedToken}
    (payload : k.c.payload = .migrationCommit migrationId ready)
    (h : k.commit migrationId ready = .ok reply) : Effect k reply := by
  simp only [commit, migrationCommit, Outcome.bind_eq_ok, demand_eq_ok, needOrg_eq_ok,
    asController_eq_ok, require_eq_ok, localSource, Outcome.pure_eq_ok, exists_const] at h
  obtain ⟨o, named, _, ⟨rfl, controls⟩, _, stewards, _, own, snapshot, built, ⟨s', result⟩,
    ⟨out, found, source, uncancelled, h⟩, rfl⟩ := h
  replace own := ownMigration_eq_ok found own
  cases committed : out.commitToken with
  | some token =>
    simp only [committed, Outcome.bind_eq_ok, demand_eq_ok, Outcome.pure_eq_ok, Prod.mk.injEq,
      exists_const] at h
    obtain ⟨-, rfl, rfl⟩ := h
    exact .commitAgain migrationId ready out o token payload
      ⟨named, controls, found, own, source⟩ committed
  | none =>
    simp only [committed, Outcome.bind_eq_ok, demand_eq_ok, require_eq_ok,
      Option.filter_eq_some_iff, Bool.and_eq_true, decide_eq_true_eq, Outcome.pure_eq_ok,
      Prod.mk.injEq, exists_const] at h
    obtain ⟨org, ⟨company, active, generation⟩, body, readied, ordered, ⟨lifetime, unchanged⟩,
      token, issued, rfl, rfl⟩ := h
    obtain rfl := signToken_eq_ok issued
    exact .commit o migrationId ready snapshot out org body payload ⟨named, controls, stewards,
      built, found, own, source, uncancelled, committed, company, active, generation, readied,
      ordered, lifetime, unchanged⟩

theorem cancel_effect {migrationId : Uuid} (payload : k.c.payload = .migrationCancel migrationId)
    (h : k.cancel migrationId = .ok reply) : Effect k reply := by
  simp only [cancel, DirectTrade.migrationCancel, Outcome.bind_eq_ok, demand_eq_ok,
    needOrg_eq_ok, asController_eq_ok, require_eq_ok, localSource, Outcome.pure_eq_ok,
    exists_const] at h
  obtain ⟨o, named, _, ⟨rfl, controls⟩, _, own, ⟨s', result⟩,
    ⟨out, found, source, uncommitted, h⟩, rfl⟩ := h
  have owns : k.Owns migrationId out o :=
    ⟨named, controls, found, ownMigration_eq_ok found own, source⟩
  cases cancelled : out.cancelToken with
  | some token =>
    simp only [cancelled, Outcome.pure_eq_ok, Prod.mk.injEq] at h
    obtain ⟨rfl, rfl⟩ := h
    exact .cancelAgain migrationId out o token payload owns cancelled
  | none =>
    simp only [cancelled, Outcome.bind_eq_ok, Outcome.pure_eq_ok, Prod.mk.injEq] at h
    obtain ⟨token, issued, rfl, rfl⟩ := h
    obtain rfl := signToken_eq_ok issued
    exact .cancel migrationId out o payload owns uncommitted cancelled

omit [Primitives] [Reducers] in
theorem stagingOwner_eq_ok {migrationId : Uuid} {code message : String} {status : ℕ}
    {stage : InboundMigration} (h : k.stagingOwner migrationId code message status = .ok stage) :
    k.s.incoming.get? migrationId = some stage ∧ k.c.actor.kind = .person ∧
      k.c.organizationId = none ∧ stage.manifestToken.body.actorId = k.c.actor.id := by
  simpa [stagingOwner, Option.filter_eq_some_iff, and_assoc] using h

omit [Primitives] [Reducers] in
theorem Stages.of_owner {migrationId : Uuid} {code message : String} {status : ℕ}
    {owned stage : InboundMigration}
    (owner : k.stagingOwner migrationId code message status = .ok owned)
    (found : k.s.incoming.get? migrationId = some stage)
    (destination : stage.manifest.destination = k.ctx.host) : k.Stages migrationId stage := by
  obtain ⟨held, person, apart, actor⟩ := stagingOwner_eq_ok owner
  obtain rfl := Option.some.inj (held.symm.trans found)
  exact ⟨found, person, apart, actor, destination⟩

theorem stage_effect {token : SignedToken} (payload : k.c.payload = .migrationStage token)
    (h : k.stage token = .ok reply) : Effect k reply := by
  simp only [stage, DirectTrade.migrationStage, localDestination, Outcome.bind_eq_ok,
    demand_eq_ok, Outcome.pure_eq_ok, exists_const] at h
  obtain ⟨⟨person, apart, owner⟩, ⟨s', result⟩, ⟨body, verified, _, -, _, shape, destination,
    ⟨issuer, key, -, -⟩, h⟩, rfl⟩ := h
  have selected : token.body.manifest? = some body := by
    simp only [verifyToken, Outcome.bind_eq_ok, require_eq_ok, Outcome.pure_eq_ok] at verified
    obtain ⟨b, selected, _, -, _, -, _, -, rfl⟩ := verified
    exact selected
  have manifests : k.Manifests token body := ⟨person, apart, by simpa [selected] using owner,
    verified, shape, destination, issuer, key⟩
  cases known : k.s.incoming.get? body.manifest.migrationId with
  | some old =>
    simp only [known, Outcome.bind_eq_ok, demand_eq_ok, Outcome.pure_eq_ok, Prod.mk.injEq,
      exists_const] at h
    obtain ⟨⟨live, -⟩, rfl, rfl⟩ := h
    exact .stageAgain token body old payload manifests known live
  | none =>
    simp only [known, Outcome.bind_eq_ok, demand_eq_ok, Outcome.pure_eq_ok, Prod.mk.injEq,
      exists_const] at h
    obtain ⟨⟨company, unreserved⟩, rfl, rfl⟩ := h
    exact .stage token body payload manifests known company unreserved

theorem upload_effect {migrationId : Uuid} {index : ℕ} {data : String}
    (payload : k.c.payload = .migrationUpload migrationId index data)
    (h : k.upload migrationId index data = .ok reply) : Effect k reply := by
  simp only [upload, DirectTrade.migrationUpload, localDestination, openStage,
    Outcome.bind_eq_ok, demand_eq_ok, require_eq_ok, Outcome.pure_eq_ok, exists_const] at h
  obtain ⟨owned, owner, ⟨s', result⟩, ⟨stage, found, destination, ⟨pending, -⟩, hash, -, bytes,
    -, -, known, h⟩, rfl⟩ := h
  simp only [Prod.mk.injEq] at h
  obtain ⟨rfl, rfl⟩ := h
  exact .upload migrationId index data stage payload (.of_owner owner found destination)
    pending known

theorem ready_effect {migrationId : Uuid} (payload : k.c.payload = .migrationReady migrationId)
    (h : k.ready migrationId = .ok reply) : Effect k reply := by
  simp only [ready, DirectTrade.migrationReady, localDestination, openStage,
    Outcome.bind_eq_ok, demand_eq_ok, require_eq_ok, Outcome.pure_eq_ok, exists_const] at h
  obtain ⟨owned, owner, ⟨s', result⟩, ⟨stage, found, destination, ⟨pending, lifetime⟩, h⟩,
    rfl⟩ := h
  have stages : k.Stages migrationId stage := .of_owner owner found destination
  cases readied : stage.readyToken with
  | some token =>
    simp only [readied, Outcome.pure_eq_ok, Prod.mk.injEq] at h
    obtain ⟨rfl, rfl⟩ := h
    exact .readyAgain migrationId stage token payload stages pending readied
  | none =>
    simp only [readied, Outcome.bind_eq_ok, demand_eq_ok, Outcome.pure_eq_ok, Prod.mk.injEq,
      exists_const] at h
    obtain ⟨snapshot, assembled, absent, _, -, _, valid, token, issued, rfl, rfl⟩ := h
    obtain rfl := signToken_eq_ok issued
    exact .ready migrationId stage snapshot payload stages pending readied lifetime assembled
      absent valid

theorem finalize_effect {migrationId : Uuid} {token : SignedToken}
    (payload : k.c.payload = .migrationFinalize migrationId token)
    (h : k.finalize migrationId token = .ok reply) : Effect k reply := by
  simp only [finalize, DirectTrade.migrationFinalize, localDestination, Outcome.bind_eq_ok,
    demand_eq_ok, require_eq_ok, Option.filter_eq_some_iff, Bool.not_eq_true',
    Outcome.pure_eq_ok, exists_const] at h
  obtain ⟨owned, owner, ⟨s', result⟩, ⟨stage, ⟨found, live⟩, ready, readied, destination, body,
    verified, _, matching, _, -, -, h⟩, rfl⟩ := h
  have stages : k.Stages migrationId stage := .of_owner owner found destination
  have binds : k.Binds migrationId token stage ready body := ⟨live, readied, verified, matching⟩
  cases activated : stage.activated with
  | true =>
    simp only [activated, if_true, Outcome.pure_eq_ok, Prod.mk.injEq] at h
    obtain ⟨rfl, rfl⟩ := h
    exact .finalizeAgain migrationId token stage ready body payload stages binds activated
  | false =>
    simp only [activated, Bool.false_eq_true, if_false, applySnapshot, Outcome.bind_eq_ok,
      demand_eq_ok, require_eq_ok, Outcome.pure_eq_ok, Prod.mk.injEq, exists_const] at h
    obtain ⟨snapshot, held, ⟨absent, digest⟩, next, ⟨_, valid, rfl⟩, activates, rfl, rfl⟩ := h
    exact .finalize migrationId token stage ready body snapshot payload stages binds activated
      held absent digest valid activates

theorem abort_effect {migrationId : Uuid} {token : SignedToken}
    (payload : k.c.payload = .migrationAbort migrationId token)
    (h : k.abort migrationId token = .ok reply) : Effect k reply := by
  simp only [abort, DirectTrade.migrationAbort, localDestination, Outcome.bind_eq_ok,
    demand_eq_ok, require_eq_ok, Outcome.pure_eq_ok, exists_const] at h
  obtain ⟨owned, owner, ⟨s', result⟩, ⟨stage, found, destination, inactive, body, verified,
    ⟨issuer, key, migration, company, manifest, -⟩, h⟩, rfl⟩ := h
  simp only [Prod.mk.injEq] at h
  obtain ⟨rfl, rfl⟩ := h
  exact .abort migrationId token stage body payload (.of_owner owner found destination)
    inactive verified ⟨issuer, key⟩ ⟨migration, company, manifest⟩

theorem mutate_effect {m : Mutation} (payload : k.c.payload = .mutation m)
    (h : k.mutate m = .ok reply) : Effect k reply := by
  cases m with
  | personRegister keys => exact personRegister_effect payload h
  | personRotate add revoke => exact personRotate_effect payload h
  | organizationCreate name nonce controllers threshold =>
    exact organizationCreate_effect payload h
  | organizationPolicy controllers threshold => exact organizationPolicy_effect payload h
  | membershipInvite invitationId personId permissions expiresAt =>
    exact membershipInvite_effect payload h
  | membershipAccept invitationId => exact membershipAccept_effect payload h
  | membershipRevoke personId => exact membershipRevoke_effect payload h
  | policyCreate p => exact policyWrite_effect true payload h
  | policyUpdate p => exact policyWrite_effect false payload h
  | profilePublish p => exact profilePublish_effect payload h
  | profileAdmit digest => exact profileAdmit_effect payload h
  | releasePublish p => exact releasePublish_effect payload h
  | installationCreate p => exact installationCreate_effect payload h
  | installationRevoke installationId => exact installationRevoke_effect payload h
  | recordAppend p => exact recordAppend_effect payload h
  | inventoryCreate policyId poolId productId baseUnit =>
    exact inventoryCreate_effect payload h
  | inventoryOpen policyId productId => exact inventoryOpen_effect payload h
  | flowOpen policyId bookId => exact flowOpen_effect payload h
  | flowLedgerOpen p => exact flowLedgerOpen_effect payload h
  | migrationPrepare destination => exact prepare_effect payload h

theorem dispatch_effect (h : k.dispatch = .ok reply) : Effect k reply := by
  unfold dispatch at h
  cases payload : k.c.payload <;> simp only [payload] at h
  case mutation m => exact mutate_effect payload h
  case organizationsList => exact organizationsList_effect payload h
  case policyGet => exact policyGet_effect payload h
  case profileGet => exact profileGet_effect payload h
  case recordGet => exact recordGet_effect payload h
  case recordsList => exact recordsPage_effect (by rw [payload]; rfl) h
  case recordsExport => exact recordsPage_effect (by rw [payload]; rfl) h
  case workspaceView => exact recordsPage_effect (by rw [payload]; rfl) h
  case inventoryGet => exact inventoryGet_effect payload h
  case inventoryLedger => exact inventoryLedger_effect payload h
  case flowBook => exact flowBook_effect payload h
  case authorityExport => exact authorityExport_effect payload h
  case authorityImport => exact authorityImport_effect payload h
  case authorityRelocate => exact authorityRelocate_effect payload h
  case evidenceIssue => exact evidenceIssue_effect payload h
  case evidenceInspect => exact evidenceInspect_effect payload h
  case migrationChunk => exact chunk_effect payload h
  case migrationCommit => exact commit_effect payload h
  case migrationReceipt => exact receipt_effect payload h
  case migrationStatus => exact status_effect payload h
  case migrationCancel => exact cancel_effect payload h
  case migrationAbort => exact abort_effect payload h
  case migrationStage => exact stage_effect payload h
  case migrationUpload => exact upload_effect payload h
  case migrationReady => exact ready_effect payload h
  case migrationFinalize => exact finalize_effect payload h

end Call
end DirectTrade
