import DirectTrade.Json
import DirectTrade.Library.Outcome

/-!
Control of an identity: the key sets an owner signs, and the head they form at the
resolver that accepts them. A document is a value of its own type, which is what the
closed shape checks leave; copying a document is the identity, since the limits of the
copy lie beyond what the checks on the document accept.
-/

namespace DirectTrade.Foundation

open Library Outcome

structure KeySet where
  keys : List KeyId
  threshold : ℕ
  deriving DecidableEq

structure Genesis where
  nonce : Uuid
  operational : KeySet
  recovery : KeySet
  deriving DecidableEq

structure Signature where
  keyId : KeyId
  signature : DirectTrade.Signature
  deriving DecidableEq

structure Signed (β : Type) where
  body : β
  signatures : List Signature
  deriving DecidableEq

structure Control where
  identityId : Uuid
  sequence : ℕ
  previousDigest : Option Digest
  operational : KeySet
  recovery : KeySet
  effectiveAt : ℤ
  deriving DecidableEq

structure IdentityState where
  genesisDigest : Digest
  head : Control
  headDigest : Digest
  retiredKeys : List KeyId
  resolverId : Uuid
  resolverKey : KeyId
  resolverEpoch : ℕ
  lastLeaseExpiry : ℤ
  lastUpdate : ℤ
  deriving DecidableEq

inductive TransitionKind where
  | rotate
  | recover
  | recoveryPolicy
  deriving DecidableEq

structure Transition where
  identityId : Uuid
  expectedDigest : Digest
  sequence : ℕ
  kind : TransitionKind
  operational : KeySet
  recovery : KeySet
  issuedAt : ℤ
  expiresAt : ℤ
  deriving DecidableEq

structure RehomeFrom where
  resolverId : Uuid
  resolverEpoch : ℕ
  deriving DecidableEq

structure RehomeTo where
  resolverId : Uuid
  resolverKey : KeyId
  audience : String
  resolverEpoch : ℕ
  deriving DecidableEq

/-- Owner consent to a new resolver, or a new resolver key. -/
structure Rehome where
  identityId : Uuid
  expectedDigest : Digest
  sequence : ℕ
  source : RehomeFrom
  destination : RehomeTo
  issuedAt : ℤ
  expiresAt : ℤ
  deriving DecidableEq

structure ResolutionRequest where
  identityId : Uuid
  audience : String
  challenge : Digest
  deriving DecidableEq

structure Resolution extends ResolutionRequest where
  resolverId : Uuid
  resolverEpoch : ℕ
  head : Control
  headDigest : Digest
  issuedAt : ℤ
  expiresAt : ℤ
  deriving DecidableEq

structure ResolverEnrollment where
  identityId : Uuid
  genesisDigest : Digest
  resolverId : Uuid
  resolverKey : KeyId
  audience : String
  nonce : Digest
  issuedAt : ℤ
  expiresAt : ℤ
  deriving DecidableEq

/-- The enrolled resolver's statement that this head is the one it accepted. -/
structure HeadAttestation where
  identityId : Uuid
  resolverId : Uuid
  resolverEpoch : ℕ
  sequence : ℕ
  headDigest : Digest
  effectiveAt : ℤ
  deriving DecidableEq

/-- A destination's statement that it did not adopt a rehome and never will. -/
structure RehomeRefusal where
  identityId : Uuid
  rehomeDigest : Digest
  resolverId : Uuid
  resolverEpoch : ℕ
  refusedAt : ℤ
  deriving DecidableEq

/-- A body under its signing domain. -/
inductive Message where
  | genesis (body : Genesis)
  | transition (body : Transition)
  | rehome (body : Rehome)
  | enrollment (body : ResolverEnrollment)
  | resolution (body : Resolution)
  | head (body : HeadAttestation)
  | refusal (body : RehomeRefusal)
  | operation (intent : Digest) (resolution : Signed Resolution)
  deriving DecidableEq

/-- What is hashed: a body under its domain, a control head, or a body on its own. -/
inductive Document where
  | message (m : Message)
  | control (head : Control)
  | transition (body : Transition)
  | rehome (body : Rehome)
  | enrollment (body : ResolverEnrollment)
  deriving DecidableEq

/-- Ed25519, SHA-256 of canonical bytes, and URL parsing. -/
class Crypto where
  verifyBytes : KeyId → Message → DirectTrade.Signature → Bool
  signBytes : KeyId → Message → DirectTrade.Signature
  digest : Document → Digest
  decodesKey : KeyId → Bool
  registrableKey : KeyId → Bool
  payloadBytes : Message → ℕ
  isOrigin : String → Bool
  keyText : KeyId → String
  signatureText : DirectTrade.Signature → String

def Message.domain : Message → ℕ
  | .genesis _ => 0
  | .transition _ => 1
  | .rehome _ => 2
  | .enrollment _ => 3
  | .resolution _ => 4
  | .head _ => 5
  | .refusal _ => 6
  | .operation _ _ => 7

/-- A small instance: a signature names its key and its domain, and a digest the members
that tell the documents of a sample apart. -/
def sampleCrypto : Crypto where
  verifyBytes k m s := s == 8 * k + m.domain
  signBytes k m := 8 * k + m.domain
  digest
    | .message (.genesis b) => 2 ^ 128 * (b.nonce + 1)
    | .message (.rehome b) => 64 * (64 * b.expectedDigest + b.destination.resolverId) + 1
    | .control h => 64 * (64 * h.effectiveAt.toNat + h.sequence) + 2
    | .transition b => 64 * (64 * b.issuedAt.toNat + b.sequence) + 3
    | .rehome b => 64 * (64 * b.issuedAt.toNat + b.destination.resolverId) + 4
    | .enrollment b => 64 * (64 * b.issuedAt.toNat + b.resolverId) + 5
    | .message m => m.domain
  decodesKey _ := true
  registrableKey _ := true
  payloadBytes _ := 1000
  isOrigin _ := true
  keyText _ := "ed25519:key"
  signatureText _ := "ed25519:signature"

def sampleSign {β : Type} (message : β → Message) (body : β) (keys : List KeyId) : Signed β :=
  ⟨body, keys.map fun k => ⟨k, 8 * k + (message body).domain⟩⟩

abbrev Checked (α : Type) := Except String α

def leaseMs : ℤ := 30000

def clockMarginMs : ℤ := 5000

def maxSafeInteger : ℤ := 9007199254740991

def timestamp (now : ℤ) : Checked Unit :=
  demand "invalid timestamp" (0 ≤ now ∧ now ≤ maxSafeInteger)

def clock (now : ℤ) : Checked Unit := do
  timestamp now
  demand "invalid clock" (now ≤ maxSafeInteger - 300000)

def KeySet.signedBy (keys : KeySet) (signers : List KeyId) : Prop :=
  keys.threshold ≤ (keys.keys.filter (· ∈ signers)).length

instance (keys : KeySet) (signers : List KeyId) : Decidable (keys.signedBy signers) :=
  inferInstanceAs (Decidable (_ ≤ _))

def quorum (keys : KeySet) (signers : List KeyId) : Checked Unit :=
  demand "quorum required" (keys.signedBy signers)

section
variable [Crypto]

def key (k : KeyId) : Checked Unit := demand "invalid key" (Crypto.decodesKey k = true)

def keySet (value : KeySet) : Checked Unit := do
  demand "bounded array required" (1 ≤ value.keys.length ∧ value.keys.length ≤ 8)
  demand "unique dense keys required" value.keys.Nodup
  each key value.keys
  demand "invalid quorum" (1 ≤ value.threshold ∧ value.threshold ≤ value.keys.length)

def sets (operational recovery : KeySet) : Checked Unit := do
  keySet operational
  keySet recovery
  demand "operational and recovery keys must be separate"
    (∀ k ∈ operational.keys, k ∉ recovery.keys)

/-- The signers found so far, extended by every signature that follows. -/
def collect (m : Message) : List KeyId → List Signature → Checked (List KeyId)
  | result, [] => .ok result
  | result, s :: rest => do
    key s.keyId
    demand "invalid duplicate signature" (s.keyId ∉ result)
    demand "invalid signature" (Crypto.verifyBytes s.keyId m s.signature = true)
    collect m (result ++ [s.keyId]) rest

/-- The keys that signed a message. -/
def verified (signatures : List Signature) (m : Message) : Checked (List KeyId) := do
  demand "bounded array required" (1 ≤ signatures.length ∧ signatures.length ≤ 24)
  demand "identity payload too large" (Crypto.payloadBytes m ≤ 16384)
  collect m [] signatures

def origin (audience : String) : Checked Unit :=
  demand "exact audience origin required" (Crypto.isOrigin audience = true)

/-- The first 128 bits of the genesis digest. -/
def identityOf (genesisDigest : Digest) : Uuid := genesisDigest / 2 ^ 128

def createIdentity (signed : Signed Genesis) (resolverId : Uuid) (resolverKey : KeyId)
    (now : ℤ) : Checked IdentityState := do
  let b := signed.body
  let controls := b.operational.keys ++ b.recovery.keys
  clock now
  key resolverKey
  sets b.operational b.recovery
  demand "resolver key cannot control the person" (resolverKey ∉ controls)
  let signers ← verified signed.signatures (.genesis b)
  demand "all genesis keys must prove possession" (∀ k ∈ controls, k ∈ signers)
  let genesisDigest := Crypto.digest (.message (.genesis b))
  let head : Control :=
    { identityId := identityOf genesisDigest, sequence := 0, previousDigest := none,
      operational := b.operational, recovery := b.recovery, effectiveAt := now }
  pure
    { genesisDigest, head, headDigest := Crypto.digest (.control head), retiredKeys := []
      resolverId, resolverKey, resolverEpoch := 0, lastLeaseExpiry := now, lastUpdate := now }

/-- Owner consent to a specific resolver, separate from genesis. -/
def verifyResolverEnrollment (state : IdentityState) (signed : Signed ResolverEnrollment)
    (audience : String) (now : ℤ) : Checked Unit := do
  let b := signed.body
  timestamp now
  demand "initial enrollment requires genesis state"
    (state.head.sequence = 0 ∧ state.resolverEpoch = 0)
  demand "enrollment resolver binding mismatch"
    (b.identityId = state.head.identityId ∧ b.genesisDigest = state.genesisDigest ∧
      b.resolverId = state.resolverId ∧ b.resolverKey = state.resolverKey ∧
      b.audience = audience)
  origin b.audience
  timestamp b.issuedAt
  timestamp b.expiresAt
  demand "enrollment expired"
    (b.issuedAt ≤ now ∧ now < b.expiresAt ∧ b.expiresAt - b.issuedAt ≤ 300000)
  let signers ← verified signed.signatures (.enrollment b)
  quorum state.head.operational signers
  quorum state.head.recovery signers

def Control.keys (head : Control) : List KeyId := head.operational.keys ++ head.recovery.keys

/-- The quorum a transition answers to. -/
def TransitionKind.authority (kind : TransitionKind) (head : Control) : KeySet :=
  match kind with
  | .rotate => head.operational
  | .recover | .recoveryPolicy => head.recovery

/-- What a transition leaves as it is. -/
def Transition.confined (p : Transition) (head : Control) : Checked Unit :=
  match p.kind with
  | .rotate | .recover =>
    demand "ordinary transition cannot change recovery authority" (p.recovery = head.recovery)
  | .recoveryPolicy =>
    demand "recovery-policy cannot change ordinary authority" (p.operational = head.operational)

def Transition.keys (p : Transition) : List KeyId := p.operational.keys ++ p.recovery.keys

def retire (current : IdentityState) (p : Transition) : List KeyId :=
  current.retiredKeys ++ current.head.keys.filter (· ∉ p.keys)

def transitionIdentity (current : IdentityState) (signed : Signed Transition) (now : ℤ) :
    Checked IdentityState := do
  let p := signed.body
  clock now
  demand "control transition barrier pending or clock regressed"
    (current.lastUpdate ≤ now ∧ current.head.effectiveAt ≤ now)
  demand "stale control head"
    (p.identityId = current.head.identityId ∧ p.expectedDigest = current.headDigest ∧
      p.sequence = current.head.sequence + 1 ∧ (p.sequence : ℤ) ≤ maxSafeInteger)
  timestamp p.issuedAt
  timestamp p.expiresAt
  demand "transition expired or outside window"
    (p.issuedAt ≤ now ∧ now < p.expiresAt ∧ p.issuedAt < p.expiresAt ∧
      p.expiresAt - p.issuedAt ≤ 300000)
  sets p.operational p.recovery
  let signers ← verified signed.signatures (.transition p)
  quorum (p.kind.authority current.head) signers
  p.confined current.head
  demand "resolver key cannot control the person" (current.resolverKey ∉ p.keys)
  demand "retired key cannot be reinstated" (∀ k ∈ p.keys, k ∉ current.retiredKeys)
  demand "new key possession required" (∀ k ∈ p.keys, k ∉ current.head.keys → k ∈ signers)
  demand "identity key history capacity" ((retire current p).length ≤ 4096)
  let head : Control :=
    { identityId := p.identityId, sequence := p.sequence, previousDigest := p.expectedDigest
      operational := p.operational, recovery := p.recovery
      effectiveAt := max now (current.lastLeaseExpiry + clockMarginMs) }
  pure { current with
    head, headDigest := Crypto.digest (.control head), retiredKeys := retire current p
    lastUpdate := now }

/-- Moves the identity to another resolver without changing control. The head commits to
the rehome through its previous digest. -/
def rehomeIdentity (current : IdentityState) (signed : Signed Rehome) (now : ℤ) :
    Checked IdentityState := do
  let p := signed.body
  clock now
  demand "control transition barrier pending or clock regressed"
    (current.lastUpdate ≤ now ∧ current.head.effectiveAt ≤ now)
  demand "stale control head"
    (p.identityId = current.head.identityId ∧ p.expectedDigest = current.headDigest ∧
      p.sequence = current.head.sequence + 1 ∧ (p.sequence : ℤ) ≤ maxSafeInteger)
  demand "rehome does not leave the current resolver"
    (p.source.resolverId = current.resolverId ∧ p.source.resolverEpoch = current.resolverEpoch)
  demand "resolver epoch must advance by one"
    ((p.destination.resolverEpoch : ℤ) ≤ maxSafeInteger ∧
      p.destination.resolverEpoch = current.resolverEpoch + 1)
  key p.destination.resolverKey
  origin p.destination.audience
  timestamp p.issuedAt
  timestamp p.expiresAt
  demand "rehome expired or outside window"
    (p.issuedAt ≤ now ∧ now < p.expiresAt ∧ p.issuedAt < p.expiresAt ∧
      p.expiresAt - p.issuedAt ≤ 300000)
  demand "a key that controls the person cannot resolve it"
    (p.destination.resolverKey ∉ current.head.keys ++ current.retiredKeys)
  let signers ← verified signed.signatures (.rehome p)
  quorum current.head.recovery signers
  let head : Control :=
    { identityId := p.identityId, sequence := p.sequence
      previousDigest := some (Crypto.digest (.message (.rehome p)))
      operational := current.head.operational, recovery := current.head.recovery
      effectiveAt := now }
  pure { current with
    head, headDigest := Crypto.digest (.control head)
    resolverId := p.destination.resolverId, resolverKey := p.destination.resolverKey
    resolverEpoch := p.destination.resolverEpoch
    lastLeaseExpiry := now + leaseMs, lastUpdate := now }

/-- One lease on the current head, and the state that remembers it. -/
def issueResolution (current : IdentityState) (input : ResolutionRequest) (resolverKey : KeyId)
    (now : ℤ) : Checked (IdentityState × Signed Resolution) := do
  clock now
  origin input.audience
  demand "wrong identity or resolver"
    (input.identityId = current.head.identityId ∧ resolverKey = current.resolverKey)
  demand "identity control barrier pending or clock regressed"
    (current.lastUpdate ≤ now ∧ current.head.effectiveAt ≤ now)
  let body : Resolution :=
    { input with
      resolverId := current.resolverId, resolverEpoch := current.resolverEpoch
      head := current.head, headDigest := current.headDigest
      issuedAt := now, expiresAt := now + leaseMs }
  pure
    ({ current with
        lastLeaseExpiry := max current.lastLeaseExpiry body.expiresAt, lastUpdate := now },
      ⟨body, [⟨resolverKey, Crypto.signBytes resolverKey (.resolution body)⟩]⟩)

/-- What a verifier expects of a lease: its own request, and the resolver and checkpoint
that it holds. -/
structure Expected extends ResolutionRequest where
  resolverId : Uuid
  resolverKey : KeyId
  resolverEpoch : ℕ
  minimumSequence : ℕ
  minimumDigest : Option Digest
  deriving DecidableEq

def verifyResolution (proof : Signed Resolution) (expected : Expected) (now : ℤ) :
    Checked Control := do
  let b := proof.body
  timestamp now
  origin expected.audience
  demand "resolution context mismatch"
    (b.identityId = expected.identityId ∧ b.audience = expected.audience ∧
      b.challenge = expected.challenge)
  demand "resolver authority mismatch"
    (b.resolverId = expected.resolverId ∧ b.resolverEpoch = expected.resolverEpoch)
  timestamp b.issuedAt
  timestamp b.expiresAt
  demand "resolution lease expired"
    (b.issuedAt ≤ now ∧ now < b.expiresAt ∧ b.issuedAt < b.expiresAt ∧
      b.expiresAt - b.issuedAt ≤ leaseMs)
  sets b.head.operational b.head.recovery
  timestamp b.head.effectiveAt
  demand "invalid control head"
    (b.head.identityId = b.identityId ∧ (b.head.sequence : ℤ) ≤ maxSafeInteger ∧
      b.head.effectiveAt ≤ b.issuedAt)
  demand "invalid predecessor" (b.head.sequence = 0 ↔ b.head.previousDigest = none)
  let signers ← verified proof.signatures (.resolution b)
  demand "untrusted resolver signature" (signers = [expected.resolverKey])
  demand "control digest mismatch" (Crypto.digest (.control b.head) = b.headDigest)
  demand "control rollback"
    ((expected.minimumSequence : ℤ) ≤ maxSafeInteger ∧
      expected.minimumSequence ≤ b.head.sequence)
  demand "conflicting control checkpoint"
    (b.head.sequence = expected.minimumSequence →
      ∀ d ∈ expected.minimumDigest, b.headDigest = d)
  pure b.head

end
end DirectTrade.Foundation
