import DirectTrade.Foundation.Datatypes
import DirectTrade.Foundation.IdentityData

/-!
Organization identity: a keyless identifier derived from a genesis, controlled by people
through governance. Authenticating the control heads of the people is the business of the
caller, so every function here takes a lookup of those heads.
-/

namespace DirectTrade.Foundation

open Library Outcome

structure OrganizationGenesis where
  nonce : Uuid
  founder : Uuid
  controllers : List Uuid
  threshold : ℕ
  deriving DecidableEq

inductive ConsentSubject where
  | genesis
  | transition
  deriving DecidableEq

/-- What a consent is asked for: one genesis or one transition of an organization. -/
structure Act where
  organizationId : Uuid
  subject : ConsentSubject
  digest : Digest
  deriving DecidableEq

/-- One person's consent to one act, under one of the person's control heads. -/
structure OrganizationConsent extends Act where
  personId : Uuid
  headDigest : Digest
  issuedAt : ℤ
  expiresAt : ℤ
  deriving DecidableEq

/-- Replaces the governance that has the expected digest. -/
structure GovernanceTransition where
  organizationId : Uuid
  expectedDigest : Digest
  sequence : ℕ
  controllers : List Uuid
  threshold : ℕ
  issuedAt : ℤ
  expiresAt : ℤ
  deriving DecidableEq

/-- Every member comes from consented material, so the digest is the owners' own. -/
structure GovernanceHead where
  organizationId : Uuid
  sequence : ℕ
  previousDigest : Option Digest
  controllers : List Uuid
  threshold : ℕ
  deriving DecidableEq

structure GovernanceEntry where
  transition : GovernanceTransition
  consents : List (Signed OrganizationConsent)
  deriving DecidableEq

structure GovernanceLog where
  format : String
  genesis : OrganizationGenesis
  consents : List (Signed OrganizationConsent)
  entries : List GovernanceEntry
  deriving DecidableEq

structure VerifiedGovernance where
  head : GovernanceHead
  headDigest : Digest
  deriving DecidableEq

structure VerifiedGovernanceLog where
  organizationId : Uuid
  genesisDigest : Digest
  heads : List VerifiedGovernance
  current : VerifiedGovernance
  governance : Governance
  deriving DecidableEq

/-- The head a consent was signed under, where the caller vouches for it. -/
abbrev ControlLookup := Uuid → Digest → Option Control

/-- What is hashed: a genesis or a transition under its domain, or a governance head. -/
inductive GovernanceDocument where
  | genesis (body : OrganizationGenesis)
  | transition (body : GovernanceTransition)
  | head (body : GovernanceHead)
  deriving DecidableEq

/-- The hashes and signatures of governance. -/
class GovernanceCrypto extends Crypto where
  digestOf : GovernanceDocument → Digest
  verifyConsent : KeyId → OrganizationConsent → DirectTrade.Signature → Bool

def OrganizationGenesis.json (g : OrganizationGenesis) : Json :=
  .obj [("nonce", uuidJson g.nonce), ("founder", uuidJson g.founder),
    ("controllers", .arr (g.controllers.map uuidJson)), ("threshold", .num g.threshold)]

def ConsentSubject.text : ConsentSubject → String
  | .genesis => "genesis"
  | .transition => "transition"

def OrganizationConsent.json (b : OrganizationConsent) : Json :=
  .obj [("organization_id", uuidJson b.organizationId), ("subject", .str b.subject.text),
    ("digest", digestJson b.digest), ("person_id", uuidJson b.personId),
    ("head_digest", digestJson b.headDigest), ("issued_at", .num b.issuedAt),
    ("expires_at", .num b.expiresAt)]

def GovernanceTransition.json (t : GovernanceTransition) : Json :=
  .obj [("organization_id", uuidJson t.organizationId),
    ("expected_digest", digestJson t.expectedDigest), ("sequence", .num t.sequence),
    ("controllers", .arr (t.controllers.map uuidJson)), ("threshold", .num t.threshold),
    ("issued_at", .num t.issuedAt), ("expires_at", .num t.expiresAt)]

section
variable [Crypto]

def consentsJson (consents : List (Signed OrganizationConsent)) : Json :=
  .arr (consents.map (Signed.json OrganizationConsent.json))

def GovernanceEntry.json (e : GovernanceEntry) : Json :=
  .obj [("transition", e.transition.json), ("consents", consentsJson e.consents)]

def GovernanceLog.json (l : GovernanceLog) : Json :=
  .obj [("format", .str l.format), ("genesis", l.genesis.json),
    ("consents", consentsJson l.consents), ("entries", .arr (l.entries.map GovernanceEntry.json))]

end

def organizationWindowMs : ℤ := 86400000

def maxGovernanceEntries : ℕ := 4096

def governanceLogFormat : String := "dtp-governance-log-1"

/-- One controller set has one text: strictly ascending order excludes duplicates. -/
def controllers (value : List Uuid) : Checked Unit := do
  demand "1-16 person controllers required" (1 ≤ value.length ∧ value.length ≤ 16)
  demand "controllers must be distinct and ascending" (value.IsChain (· < ·))

def isInstant (v : ℤ) : Prop := 0 ≤ v ∧ v ≤ maxSafeInteger

instance (v : ℤ) : Decidable (isInstant v) := inferInstanceAs (Decidable (_ ∧ _))

/-- A window of at most a day, open at the clock of a host that has one. -/
def Organization.window (issuedAt expiresAt : ℤ) (now : Option ℤ) (what : String) :
    Checked Unit := do
  demand s!"invalid {what} window"
    (isInstant issuedAt ∧ isInstant expiresAt ∧ issuedAt < expiresAt ∧
      expiresAt - issuedAt ≤ organizationWindowMs)
  demand "invalid clock" (∀ t ∈ now, isInstant t)
  demand s!"{what} expired or not yet valid" (∀ t ∈ now, issuedAt ≤ t ∧ t < expiresAt)

def parseOrganizationGenesis (g : OrganizationGenesis) : Checked Unit := do
  controllers g.controllers
  demand "founder must be an initial controller" (g.founder ∈ g.controllers)
  demand "invalid controller quorum" (1 ≤ g.threshold ∧ g.threshold ≤ g.controllers.length)

def parseConsentBody (b : OrganizationConsent) : Checked Unit :=
  Organization.window b.issuedAt b.expiresAt none "consent"

def parseTransition (t : GovernanceTransition) : Checked Unit := do
  demand "invalid governance transition" ((t.sequence : ℤ) ≤ maxSafeInteger ∧ 1 ≤ t.sequence)
  controllers t.controllers
  demand "invalid controller quorum" (1 ≤ t.threshold ∧ t.threshold ≤ t.controllers.length)
  Organization.window t.issuedAt t.expiresAt none "transition"

def governanceOf (head : GovernanceHead) : Governance :=
  { organizationId := head.organizationId, controllers := head.controllers.map .person
    threshold := head.threshold }

section
variable [GovernanceCrypto]

def organizationGenesisDigest (g : OrganizationGenesis) : Digest :=
  GovernanceCrypto.digestOf (.genesis g)

/-- The first 128 bits of the genesis digest. -/
def organizationId (g : OrganizationGenesis) : Uuid := identityOf (organizationGenesisDigest g)

def governanceTransitionDigest (t : GovernanceTransition) : Digest :=
  GovernanceCrypto.digestOf (.transition t)

def governanceHeadDigest (head : GovernanceHead) : Digest :=
  GovernanceCrypto.digestOf (.head head)

/-- The signers found so far, extended by the signer of the next signature. -/
def consentSigner (b : OrganizationConsent) (h : Control) (signers : List KeyId)
    (s : Signature) : Checked (List KeyId) := do
  demand "invalid or duplicate consent signature" (s.keyId ∉ signers)
  demand "consent must be signed by current operational keys" (s.keyId ∈ h.operational.keys)
  demand "invalid consent signature"
    (GovernanceCrypto.verifyConsent s.keyId b s.signature = true)
  pure (signers ++ [s.keyId])

/-- Refuses unless this is the person's consent to exactly this act, signed by the
operational quorum of the head that the caller has authenticated. -/
def verifyOrganizationConsent (signed : Signed OrganizationConsent) (expected : Act)
    (person : Uuid) (h : Control) (now : Option ℤ) : Checked Unit := do
  let b := signed.body
  parseConsentBody b
  demand "consent does not describe this act" (b.toAct = expected ∧ b.personId = person)
  demand "consent was not signed under this control head"
    (h.identityId = b.personId ∧ b.headDigest = Crypto.digest (.control h))
  Organization.window b.issuedAt b.expiresAt now "consent"
  demand "1-8 consent signatures required"
    (1 ≤ signed.signatures.length ∧ signed.signatures.length ≤ 8)
  let signers ← signed.signatures.foldlM (consentSigner b h) []
  demand "operational quorum required" (h.operational.threshold ≤ signers.length)

/-- The people who consented so far, extended by the author of the next consent. -/
def consentFrom (required : List Uuid) (expected : Act) (heads : ControlLookup)
    (now : Option ℤ) (seen : List Uuid) (c : Signed OrganizationConsent) :
    Checked (List Uuid) := do
  let person := c.body.personId
  demand "consent from a person who is not asked, or a duplicate"
    (person ∈ required ∧ person ∉ seen)
  let head ← require "consenting person's control head is not established"
    (heads person c.body.headDigest)
  verifyOrganizationConsent c expected person head now
  pure (seen ++ [person])

/-- Every consent of a set, one per person who is asked. -/
def consentsFrom (consents : List (Signed OrganizationConsent)) (required : List Uuid)
    (expected : Act) (heads : ControlLookup) (now : Option ℤ) : Checked (List Uuid) := do
  demand "bounded consents required" (consents.length ≤ 32)
  consents.foldlM (consentFrom required expected heads now) []

/-- Governance head 0. A threshold is not enough at creation, since a controller carries
duties as well as power. -/
def verifyOrganizationGenesis (g : OrganizationGenesis)
    (consents : List (Signed OrganizationConsent)) (heads : ControlLookup) (now : Option ℤ) :
    Checked VerifiedGovernance := do
  parseOrganizationGenesis g
  let consented ← consentsFrom consents g.controllers
    ⟨organizationId g, .genesis, organizationGenesisDigest g⟩ heads now
  demand "every initial controller must consent to the genesis"
    (∀ c ∈ g.controllers, c ∈ consented)
  let head : GovernanceHead :=
    { organizationId := organizationId g, sequence := 0, previousDigest := none
      controllers := g.controllers, threshold := g.threshold }
  pure ⟨head, governanceHeadDigest head⟩

def GovernanceTransition.added (t : GovernanceTransition) (head : GovernanceHead) : List Uuid :=
  t.controllers.filter (· ∉ head.controllers)

/-- The governance that a transition leads to. -/
def GovernanceTransition.head (t : GovernanceTransition) : GovernanceHead :=
  { organizationId := t.organizationId, sequence := t.sequence
    previousDigest := some (governanceTransitionDigest t)
    controllers := t.controllers, threshold := t.threshold }

/-- Succession: consented to by the current quorum and by every added controller. -/
def applyGovernanceTransition (cur : VerifiedGovernance) (e : GovernanceEntry)
    (heads : ControlLookup) (now : Option ℤ) : Checked VerifiedGovernance := do
  demand "current governance digest mismatch" (cur.headDigest = governanceHeadDigest cur.head)
  let t := e.transition
  parseTransition t
  demand "stale governance head"
    (t.organizationId = cur.head.organizationId ∧ t.expectedDigest = cur.headDigest ∧
      t.sequence = cur.head.sequence + 1)
  Organization.window t.issuedAt t.expiresAt now "transition"
  demand "transition changes nothing"
    (t.controllers ≠ cur.head.controllers ∨ t.threshold ≠ cur.head.threshold)
  let added := t.added cur.head
  let consented ← consentsFrom e.consents (cur.head.controllers ++ added)
    ⟨t.organizationId, .transition, governanceTransitionDigest t⟩ heads now
  demand "controller quorum required"
    (cur.head.threshold ≤ (cur.head.controllers.filter (· ∈ consented)).length)
  demand "every added controller must consent" (∀ c ∈ added, c ∈ consented)
  pure ⟨t.head, governanceHeadDigest t.head⟩

/-- The heads that follow a head, one per entry. -/
def replayGovernance (heads : ControlLookup) :
    VerifiedGovernance → List GovernanceEntry → Checked (List VerifiedGovernance)
  | _, [] => pure []
  | current, e :: rest => do
    let next ← applyGovernanceTransition current e heads none
    let later ← replayGovernance heads next rest
    pure (next :: later)

/-- A governance history replayed without a clock. -/
def verifyGovernanceLog (log : GovernanceLog) (heads : ControlLookup) :
    Checked VerifiedGovernanceLog := do
  copyIdentityData log.json
  demand "unsupported governance log format" (log.format = governanceLogFormat)
  demand "bounded governance entries required" (log.entries.length ≤ maxGovernanceEntries)
  let first ← verifyOrganizationGenesis log.genesis log.consents heads none
  let later ← replayGovernance heads first log.entries
  let current := later.getLastD first
  pure
    { organizationId := organizationId log.genesis
      genesisDigest := organizationGenesisDigest log.genesis
      heads := first :: later, current, governance := governanceOf current.head }

end
end DirectTrade.Foundation
