import DirectTrade.Append

/-!
Record reads. A read sees the records of the caller's company that its grants cover and
whose profile it understands; an invoice is assessed again at every read.
-/

namespace DirectTrade

open Library

variable [Reducers]

namespace Call

/-- Whether the caller can read a record and understands its profile. -/
def readable (k : Call) (r : BusinessRecord) : Attempt Bool := do
  let allowed ← k.can r.policyId r.resourceId .read
  if allowed then k.understands r.profileDigest else pure false

/-- What the caller may learn about a referenced record. An unreadable record, an
unpinned profile and an absent record all answer `unknown`. -/
def resolveReference (k : Call) (referenceId expectedType : String) : Attempt Reference := do
  match (parseUuid referenceId).bind k.s.records.get? with
  | none => pure .unknown
  | some ref =>
    let o ← k.currentOrg
    if ref.organizationId ≠ o.id then pure .unknown
    else
      let allowed ← k.readable ref
      let pinned := (k.ctx.referenceProfiles expectedType).contains ref.profileDigest
      match ref.body.member? "seller_company_id", ref.body.member? "buyer_company_id" with
      | some seller, some buyer =>
        if allowed && pinned && seller.isUuid && buyer.isUuid
        then pure (.present expectedType seller buyer) else pure .unknown
      | _, _ => pure .unknown

/-- A resolver that throws leaves the reference unknown. -/
def resolver (k : Call) (referenceId expectedType : String) : Reference :=
  match k.resolveReference referenceId expectedType with
  | .ok reference => reference
  | .error _ => .unknown

def viewRecord (k : Call) (r : BusinessRecord) : Attempt RecordView := do
  let profile ← access (k.s.profiles.get? r.profileDigest)
  pure ⟨r, if profile.semantics = .invoiceV1
    then some (Reducers.validateInvoice r.body k.resolver) else none⟩

def recordGet (k : Call) (id : Uuid) (profileDigest : Digest) : Attempt Reply := do
  let r ← require (k.s.records.get? id) "not_found" "record unavailable" 404
  let o ← k.currentOrg
  demand (r.organizationId = o.id) "not_found" "record unavailable" 404
  let allowed ← k.readable r
  demand (allowed = true) "not_found" "record unavailable" 404
  demand (r.profileDigest = profileDigest)
    "unsupported_profile" "consumer must accept the exact profile" 422
  let view ← k.viewRecord r
  pure (k.answer (some (.record view)))

/-- Whether a record belongs on a page: after the cursor, of an accepted profile, readable,
exportable when the page is an export, and understood. -/
def onPage (k : Call) (o : Organization) (after : ℕ) (accepted : List Digest) (exporting : Bool)
    (r : BusinessRecord) : Attempt Bool :=
  if r.organizationId = o.id ∧ r.seq > after ∧ r.profileDigest ∈ accepted then do
    let allowed ← k.can r.policyId r.resourceId .read
    if allowed then
      let exportable ← if exporting then k.can r.policyId r.resourceId .export else pure true
      if exportable then k.understands r.profileDigest else pure false
    else pure false
  else pure false

def recordsPage (k : Call) (p : PagePayload) (exporting : Bool) : Attempt Reply := do
  let o ← k.currentOrg
  demand (p.after ≤ maxSafeInteger ∧ 0 < p.limit ∧ p.limit ≤ 100 ∧
      p.profileDigests.length ≤ 32 ∧ p.kinds.length ≤ 32 ∧ p.kinds.Nodup)
    "invalid" "invalid scoped page" 400
  demand (∀ d ∈ p.profileDigests, (k.s.profiles.get? d).any (accessibleProfile · o.id) = true)
    "unsupported_profile" "requested profile unavailable or unsupported" 422
  let expanded ← expandKinds k.s p.kinds (accessibleProfile · o.id) k.ctx.kinds
  let accepted := sortedSet (p.profileDigests ++ expanded)
  let chosen ← Outcome.keep (k.onPage o p.after accepted exporting) k.s.records.values
  let rows := (chosen.insertionSort (·.seq ≤ ·.seq)).take (p.limit + 1)
  let page := rows.take p.limit
  let views ← page.mapM k.viewRecord
  pure (k.answer (some (.page
    { id := o.id, name := o.name, generation := o.generation, profileDigests := accepted,
      records := views,
      nextCursor := if rows.length > p.limit then page.getLast?.map (·.seq) else none })))

end Call
end DirectTrade
