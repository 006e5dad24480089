import DirectTrade.StockActions

/-!
Disclosure of exact record versions to one company at one host. The issuer's projections
travel as assertions; the recipient recomputes what it can.
-/

namespace DirectTrade

open Library

variable [Primitives] [Reducers]

/-- Adds a profile and its dependencies, depth first; more than 32 are refused, so the
nesting never exceeds `fuel`. -/
def includeProfile (s : State) : (fuel : ℕ) → (needed : List Digest) → (d : Digest) →
    Attempt (List Digest)
  | 0, _, _ => .error (.dtp "evidence_too_large" "dependency closure exceeds 32 profiles" 413)
  | fuel + 1, needed, d =>
    if d ∈ needed then pure needed
    else do
      let needed := needed ++ [d]
      demand (needed.length ≤ 32)
        "evidence_too_large" "dependency closure exceeds 32 profiles" 413
      let p ← access (s.profiles.get? d)
      p.dependencies.foldlM (includeProfile s fuel) needed

/-- A disclosed profile must carry its signed publication or admission. -/
def inspectProfile (profiles : Digest → Option Profile) (pr : Profile) : Attempt Unit := do
  validateProfile pr profiles
  demand (pr.id = pr.label)
    "invalid_evidence" "profile identity label differs from pinned contract" 403
  let _ ← verifyStored pr.command
  match pr.publisherId with
  | .dtp =>
    demand (pr.command.payload = .profileAdmit pr.digest ∧ pr.visibility = .community ∧
        pr.readers = [])
      "invalid_evidence" "protocol profile differs from its admission" 403
  | .organization publisherId =>
    demand (pr.command.organizationId = some publisherId ∧
        pr.command.payload = .profilePublish pr.publication)
      "invalid_evidence" "profile differs from signed publication" 403

namespace Call

def disclosed (k : Call) (o : Organization) (recordId : Uuid) : Attempt BusinessRecord := do
  let r ← require ((k.s.records.get? recordId).filter (·.organizationId = o.id))
    "not_found" "exportable record unavailable" 404
  let readable ← k.can r.policyId r.resourceId .read
  demand (readable = true) "not_found" "exportable record unavailable" 404
  let exportable ← k.can r.policyId r.resourceId .export
  demand (exportable = true) "not_found" "exportable record unavailable" 404
  pure r

def evidenceIssue (k : Call) (recordIds : List Uuid) (recipient : Recipient) (purpose : String)
    (expiresAt : Instant) : Attempt Reply := do
  ids recordIds 1 20
  text purpose 200
  text recipient.audience 300
  let o ← k.currentOrg
  demand (k.c.actor.kind = .person ∧ recipient.organizationId ≠ o.id ∧
      recipient.audience ≠ k.ctx.audience ∧ (k.ctx.pins recipient.audience).isSome)
    "forbidden" "explicit remote recipient and pinned host required" 403
  demand (expiresAt > k.ctx.now ∧ expiresAt ≤ k.ctx.now + 60000)
    "invalid" "evidence disclosure lifetime is at most 60 seconds" 400
  let records ← recordIds.mapM (k.disclosed o)
  let needed ← (records.map (·.profileDigest)).foldlM (includeProfile k.s 33) []
  let profiles ← needed.mapM fun d => access (k.s.profiles.get? d)
  demand (∀ pr ∈ profiles, pr.publisherId = .organization o.id ∨
      accessibleProfile pr recipient.organizationId = true)
    "forbidden" "private third-party profile cannot be redistributed to recipient" 403
  let body : EvidenceBody :=
    { issuer := k.ctx.audience, issuedAt := k.ctx.now, expiresAt := expiresAt,
      sourceOrganization := o.id, recipient := recipient, purpose := purpose,
      records := records, profiles := profiles }
  demand (Primitives.evidenceBytes body ≤ 512 * 1024)
    "evidence_too_large" "use a smaller exact evidence selection" 413
  let token ← signToken (.evidence body) k.ctx
  pure (k.answer (some (.token token)))

/-- What the recipient recomputes for a disclosed record. -/
def inspectBody (profile : Profile) (r : BusinessRecord) : Attempt Inspection :=
  match profile.semantics with
  | .invoiceV1 => do
    let report := Reducers.validateInvoice r.body fun _ _ => .unknown
    demand (report.valid = true) "invalid_evidence" "invalid invoice arithmetic" 403
    pure (.invoice report)
  | .inventoryV1 => pure .notReplayed
  | _ => pure (.structural profile.digest)

def inspectRecord (k : Call) (source : Uuid) (accepted : List Digest)
    (profiles : Digest → Option Profile) (r : BusinessRecord) : Attempt InspectedRecord := do
  demand (r.organizationId = source ∧ r.profileDigest ∈ accepted)
    "unsupported_profile" "consumer does not accept disclosed profile" 422
  let understood ← k.understands r.profileDigest
  demand (understood = true)
    "unsupported_profile" "consumer does not accept disclosed profile" 422
  let _ ← verifyStored r.command
  demand (r.command.payload = .recordAppend r.toRecordPayload ∧
      r.command.organizationId = some source)
    "invalid_evidence" "record differs from original signed payload" 403
  let profile ← require (profiles r.profileDigest)
    "invalid_evidence" "record differs from original signed payload" 403
  demand (validateShape profile.schema r.body = true)
    "invalid_evidence" "record violates disclosed schema" 403
  let checked ← inspectBody profile r
  pure ⟨r.toRecordPayload, r.command, checked, r.seq, r.isHead, r.acceptedAt, r.validation⟩

def evidenceInspect (k : Call) (token : SignedToken) (accepted : List Digest) :
    Attempt Reply := do
  let o ← k.currentOrg
  let body ← verifyToken TokenBody.evidence? token k.ctx
  demand (Primitives.evidenceBytes body ≤ 512 * 1024)
    "evidence_too_large" "evidence exceeds 512 KiB" 413
  text body.purpose 200
  demand (body.expiresAt - body.issuedAt ≤ 60000 ∧ body.recipient.organizationId = o.id ∧
      body.recipient.audience = k.ctx.audience)
    "forbidden" "evidence is bound to a different recipient or lifetime" 403
  k.visible body.recipient.policyId body.recipient.resourceId
  demand (0 < body.records.length ∧ body.records.length ≤ 20 ∧ body.profiles.length ≤ 32 ∧
      accepted.length ≤ 32)
    "invalid_evidence" "bounded evidence selection required" 400
  demand (body.profiles.map (·.digest)).Nodup "invalid_evidence" "duplicate profiles" 400
  let profiles := fun d =>
    (body.profiles.find? fun pr => pr.digest = d).or (k.s.profiles.get? d)
  Outcome.each (inspectProfile profiles) body.profiles
  let inspected ← body.records.mapM (k.inspectRecord body.sourceOrganization accepted profiles)
  pure (k.answer (some (.evidence body.sourceOrganization body.purpose body.expiresAt inspected
    body.profiles)))

end Call
end DirectTrade
