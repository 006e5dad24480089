import DirectTrade.Library.Outcome
import DirectTrade.Model

/-!
Signed commands and host tokens. Canonical bytes, digests and signatures enter
through `Primitives`; everything the wire layer decides from them is decided here.
-/

namespace DirectTrade

open Library

/-- What a handler can throw: a `DtpError`, or an exception that is not one. -/
inductive Thrown where
  | dtp (code message : String) (status : ℕ)
  | fault
  deriving DecidableEq

abbrev Attempt := Except Thrown

def demand (p : Prop) [Decidable p] (code message : String) (status : ℕ) : Attempt Unit :=
  Outcome.demand (.dtp code message status) p

def require {α : Type} (o : Option α) (code message : String) (status : ℕ) : Attempt α :=
  Outcome.require (.dtp code message status) o

/-- A member access on a value that the source takes to be present. -/
def access {α : Type} (o : Option α) : Attempt α := Outcome.require .fault o

@[simp] theorem demand_eq_ok (p : Prop) [Decidable p] (code message : String) (status : ℕ)
    (u : Unit) : demand p code message status = .ok u ↔ p :=
  Outcome.demand_eq_ok _ p u

@[simp] theorem require_eq_ok {α : Type} (o : Option α) (code message : String) (status : ℕ)
    (a : α) : require o code message status = .ok a ↔ o = some a :=
  Outcome.require_eq_ok _ o a

@[simp] theorem access_eq_ok {α : Type} (o : Option α) (a : α) :
    access o = .ok a ↔ o = some a :=
  Outcome.require_eq_ok _ o a

/-- Canonical JSON, SHA-256, Ed25519 and the guards over canonical text. A digest or a
signature check of a value is the one of its canonical bytes; `sign` is the
deterministic signature under the secret half of a key. -/
class Primitives where
  verifyCommand : KeyId → Header → Payload → Signature → Bool
  verifyToken : KeyId → TokenBody → Signature → Bool
  sign : KeyId → TokenBody → Signature
  validKey : KeyId → Bool
  registrableKey : KeyId → Bool
  keyText : KeyId → String
  nulFree : Command → Bool
  personId : KeyId → Uuid
  organizationId : Uuid → Uuid → Uuid
  digestCommand : Command → Digest
  digestToken : SignedToken → Digest
  digestBody : TokenBody → Digest
  digestManifest : MigrationManifest → Digest
  digestHost : HostRef → Digest
  digestSnapshot : Snapshot → Digest
  digestContract : ProfileContract → Digest
  digestRelease : Uuid → ReleasePayload → Digest
  digestJson : Json → Digest
  inventoryKey : List Json → Digest
  evidenceBytes : EvidenceBody → ℕ
  sha256 : List UInt8 → Digest
  snapshotBytes : Snapshot → List UInt8
  parseSnapshot : List UInt8 → Option Snapshot
  snapshotDepth : Snapshot → ℕ
  snapshotNulFree : Snapshot → Bool

/-- `length` of a text: characters beyond the basic plane take two code units. -/
def utf16Length (s : String) : ℕ :=
  (s.toList.map fun c => if c.toNat > 0xFFFF then 2 else 1).sum

/-- The maximal parts of a text between separators. -/
def splitOn (separator : Char) : List Char → List (List Char)
  | [] => [[]]
  | c :: rest =>
    match splitOn separator rest with
    | [] => [[c]]
    | part :: parts => if c = separator then [] :: part :: parts else (c :: part) :: parts

/-- Three dot-separated decimal numbers. -/
def isVersion (version : String) : Bool :=
  let parts := splitOn '.' version.toList
  parts.length == 3 && parts.all fun part => !part.isEmpty && part.all Char.isDigit

def isName (name : String) : Bool :=
  match name.toList with
  | [] => false
  | c :: rest => c.isLower && rest.length ≤ 79 &&
      rest.all fun d => d.isLower || d.isDigit || d == '.' || d == '_' || d == '-'

/-- A `uniqueItems` array of bounded length. -/
def arrayOf {α : Type} [DecidableEq α] (items : List α) (max min : ℕ) : Bool :=
  items.Nodup && min ≤ items.length && items.length ≤ max

def str (s : String) (max : ℕ) : Bool := 1 ≤ s.length && s.length ≤ max

def Permission.conforms : Permission → Bool
  | .other name => str name 120
  | _ => true

def Scope.conforms : Scope → Bool
  | .all => true
  | .only ids => arrayOf ids 128 1

def Grant.conforms (g : Grant) : Bool := arrayOf g.actions 3 1 && g.resourceIds.conforms

def PolicyPayload.conforms (p : PolicyPayload) : Bool :=
  p.expectedRevision ≤ maxSafeInteger && arrayOf p.stewards 8 1 && 1 ≤ p.threshold &&
    p.threshold ≤ 8 && arrayOf p.grants 256 0 && p.grants.all Grant.conforms

def PagePayload.conforms (p : PagePayload) : Bool :=
  p.after ≤ maxSafeInteger && 1 ≤ p.limit && p.limit ≤ 100 && arrayOf p.profileDigests 32 0 &&
    arrayOf p.kinds 32 0

def Mutation.conforms : Mutation → Bool
  | .personRegister keys => arrayOf keys 8 1
  | .personRotate add revoke => arrayOf add 8 0 && arrayOf revoke 8 0
  | .organizationCreate name _ controllers threshold =>
    str name 120 && arrayOf controllers 8 1 && 1 ≤ threshold && threshold ≤ 8
  | .organizationPolicy controllers threshold =>
    arrayOf controllers 8 1 && 1 ≤ threshold && threshold ≤ 8
  | .membershipInvite _ _ permissions _ =>
    arrayOf permissions 6 0 && permissions.all Permission.conforms
  | .policyCreate p | .policyUpdate p => p.conforms
  | .profilePublish p =>
    str p.name 80 && str p.version 120 && p.schema.isObject && arrayOf p.dependencies 8 0 &&
      arrayOf p.readers 64 0
  | .releasePublish p => str p.version 120 && arrayOf p.profiles 16 1 && arrayOf p.actions 3 1
  | .installationCreate p => arrayOf p.policyIds 32 1 && arrayOf p.actions 3 1
  | .recordAppend p => arrayOf p.counterpartyIds 16 0 && p.body.isObject
  | .inventoryCreate _ _ _ baseUnit => str baseUnit 120
  | .flowLedgerOpen p => p.asset.currency.all fun currency => str currency 8
  | .migrationPrepare destination => str destination.audience 300
  | .membershipAccept _ | .membershipRevoke _ | .profileAdmit _ | .installationRevoke _
  | .inventoryOpen _ _ | .flowOpen _ _ => true

def Payload.conforms : Payload → Bool
  | .mutation m => m.conforms
  | .recordsList p | .recordsExport p | .workspaceView p => p.conforms
  | .evidenceIssue ids recipient purpose _ =>
    arrayOf ids 20 1 && str recipient.audience 300 && str purpose 200
  | .evidenceInspect _ accepted => arrayOf accepted 32 0
  | .migrationChunk _ index => index ≤ 511
  | .migrationUpload _ index data => index ≤ 511 && str data 87384
  | _ => true

def Command.conforms (c : Command) : Bool :=
  str c.audience 300 && arrayOf c.signatures 16 1 && c.payload.conforms

variable [Primitives]

def validateCommand (c : Command) (audience : String) (now : Instant) : Attempt Unit := do
  demand (c.conforms = true) "invalid" "command or action payload does not conform to v0.4" 400
  demand (c.audience = audience) "wrong_audience" "wrong protocol or audience" 400
  demand (Primitives.validKey c.actor.keyId = true) "invalid" "invalid public key" 400
  demand (c.issuedAt ≤ now + 30000 ∧ c.expiresAt > now ∧ c.expiresAt > c.issuedAt ∧
      c.expiresAt - c.issuedAt ≤ 300000)
    "expired" "command expired or outside five-minute window" 401
  demand (Primitives.nulFree c = true)
    "nul_character" "a string value contains U+0000" 400

/-- Checks the proofs in order and returns the keys that signed. -/
def verifyProofs (c : Command) : List Proof → List KeyId → Attempt (List KeyId)
  | [], keys => .ok keys
  | proof :: rest, keys => do
    demand (proof.keyId ∉ keys) "invalid" "duplicate signature" 400
    demand (Primitives.verifyCommand proof.keyId c.toHeader c.payload proof.signature = true)
      "signature_invalid" "signature does not verify" 401
    verifyProofs c rest (keys ++ [proof.keyId])

def verifyCommand (c : Command) : Attempt (List KeyId) := do
  demand (0 < c.signatures.length ∧ c.signatures.length ≤ 16)
    "invalid" "1-16 signatures required" 400
  let keys ← verifyProofs c c.signatures []
  demand (c.actor.keyId ∈ keys) "signature_invalid" "actor signature required" 401
  pure keys

/-- The verdict a stored command gets at its own signing time. -/
def verifyStored (c : StoredCommand) : Attempt (List KeyId) := do
  validateCommand c.signedForm c.audience c.issuedAt
  verifyCommand c.signedForm

def signToken (body : TokenBody) (ctx : Context) : Attempt SignedToken := do
  demand (body.stamp.issuer = ctx.audience) "invalid" "token issuer must be this host" 400
  pure ⟨body, ctx.storeKey, Primitives.sign ctx.storeKey body⟩

theorem signToken_eq_ok {body : TokenBody} {ctx : Context} {token : SignedToken}
    (h : signToken body ctx = .ok token) :
    token = ⟨body, ctx.storeKey, Primitives.sign ctx.storeKey body⟩ := by
  simp only [signToken, Outcome.bind_eq_ok, demand_eq_ok, Outcome.pure_eq_ok] at h
  obtain ⟨_, -, rfl⟩ := h
  rfl

/-- Checks a token of the kind that `select` picks against the pinned key of its issuer. -/
def verifyToken {β : Type} (select : TokenBody → Option β) (token : SignedToken)
    (ctx : Context) : Attempt β := do
  let body ← require (select token.body) "invalid_token" "wrong token kind" 403
  let stamp := token.body.stamp
  let pinned := if stamp.issuer = ctx.audience then some ctx.storeKey else ctx.pins stamp.issuer
  demand (pinned = some token.keyId) "untrusted_source" "issuer is not pinned" 403
  demand (Primitives.verifyToken token.keyId token.body token.signature = true)
    "signature_invalid" "host token signature does not verify" 401
  demand (stamp.issuedAt ≤ ctx.now + 30000 ∧ stamp.expiresAt > ctx.now ∧
      stamp.expiresAt > stamp.issuedAt)
    "expired" "host token expired" 401
  pure body

theorem verifyToken_select {β : Type} {select : TokenBody → Option β} {token : SignedToken}
    {ctx : Context} {b : β} (h : verifyToken select token ctx = .ok b) :
    select token.body = some b := by
  simp only [verifyToken, Outcome.bind_eq_ok, require_eq_ok, Outcome.pure_eq_ok] at h
  obtain ⟨_, selected, _, -, _, -, _, -, rfl⟩ := h
  exact selected

def verifyAssessment (token : Signed AssessmentBody) (ctx : Context) :
    Attempt AssessmentBody := do
  demand (ctx.assessmentPins token.body.issuer = some token.keyId)
    "untrusted_assessor" "artifact assessment issuer is not explicitly trusted" 403
  demand (Primitives.digestToken (token.map .assessment) ∉ ctx.revokedAssessments)
    "assessment_revoked" "artifact assessment was revoked" 403
  verifyToken TokenBody.assessment? (token.map .assessment)
    { ctx with pins := ctx.assessmentPins }

end DirectTrade
