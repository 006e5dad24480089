import DirectTrade.Foundation.IdentityData
import Mathlib.Data.List.Basic

/-!
The portable identity log: its replay, the comparison of two logs, and the judgement of
a relying party that pins a resolver and a head. Replay runs the identity state machine
under a witness timeline, so every rule of control is the rule of the live host.
-/

namespace DirectTrade.Foundation

open Library Outcome

def maxLogEntries : ℕ := 4096

/-- Format 1 has no rehome member. -/
inductive LogFormat where
  | legacy
  | moves
  deriving DecidableEq

/-- One head. The rehome member is `none` where it is absent, `some none` where it is null. -/
structure IdentityLogEntry where
  effectiveAt : ℤ
  transition : Option (Signed Transition)
  rehome : Option (Option (Signed Rehome))
  attestation : Option (Signed HeadAttestation)
  deriving DecidableEq

structure IdentityLog where
  format : LogFormat
  genesis : Signed Genesis
  enrollment : Signed ResolverEnrollment
  entries : List IdentityLogEntry
  deriving DecidableEq

structure ResolverBinding where
  epoch : ℕ
  id : Uuid
  keyId : KeyId
  audience : String
  deriving DecidableEq

structure VerifiedHead where
  head : Control
  headDigest : Digest
  epoch : ℕ
  attested : Bool
  deriving DecidableEq

/-- What a log proves: every head, every binding before the current one, and the state
that a host adopting the identity continues from. -/
structure VerifiedIdentityLog where
  former : List ResolverBinding
  resolver : ResolverBinding
  heads : List VerifiedHead
  unattested : List ℕ
  state : IdentityState
  deriving DecidableEq

namespace VerifiedIdentityLog

def identityId (v : VerifiedIdentityLog) : Uuid := v.state.head.identityId

def genesisDigest (v : VerifiedIdentityLog) : Digest := v.state.genesisDigest

def resolvers (v : VerifiedIdentityLog) : List ResolverBinding := v.former ++ [v.resolver]

def head (v : VerifiedIdentityLog) : Control := v.state.head

def headDigest (v : VerifiedIdentityLog) : Digest := v.state.headDigest

end VerifiedIdentityLog

/-- What a relying party durably keeps for an identity. -/
structure ResolverPin where
  identityId : Uuid
  resolverId : Uuid
  resolverKey : KeyId
  resolverEpoch : ℕ
  minimumSequence : ℕ
  minimumDigest : Option Digest
  deriving DecidableEq

inductive AdmissionRefusal where
  | invalidLog
  | anotherIdentity
  | unknownIdentity
  | foreignLineage
  | behind
  | conflict
  | unadoptedMove
  | refusedMove
  deriving DecidableEq

/-- The pin, the log ending at the pinned head where the party holds it, and the rehome
refusals it holds. -/
structure PinnedHistory where
  pin : ResolverPin
  log : Option IdentityLog
  refusals : List (Signed RehomeRefusal)
  deriving DecidableEq

inductive Admitted where
  | unchanged
  | advanced
  | superseded
  deriving DecidableEq

structure IdentityLogAdmission where
  outcome : Admitted
  pin : ResolverPin
  superseded : Option (ℕ × Digest)
  deriving DecidableEq

inductive IdentityLogJudgement where
  | admission (a : IdentityLogAdmission)
  | refused (reason : AdmissionRefusal)
  deriving DecidableEq

def bindingOf (s : IdentityState) (audience : String) : ResolverBinding :=
  ⟨s.resolverEpoch, s.resolverId, s.resolverKey, audience⟩

/-- A member that is absent and one that is null carry no rehome. -/
def IdentityLogEntry.move (e : IdentityLogEntry) : Option (Signed Rehome) := e.rehome.join

def HeadAttestation.of (head : Control) (resolverId : Uuid) (epoch : ℕ) (headDigest : Digest) :
    HeadAttestation :=
  { identityId := head.identityId, resolverId, resolverEpoch := epoch, sequence := head.sequence
    headDigest, effectiveAt := head.effectiveAt }

section
variable [Crypto]

/-- The resolver's statement about a head of an epoch that it served. -/
def attestHead (head : Control) (resolver : ResolverBinding) (keyId : KeyId) :
    Signed HeadAttestation :=
  let body := HeadAttestation.of head resolver.id resolver.epoch (Crypto.digest (.control head))
  ⟨body, [⟨keyId, Crypto.signBytes keyId (.head body)⟩]⟩

def checkAttestation (signed : Signed HeadAttestation) (expected : HeadAttestation)
    (resolverKey : KeyId) : Checked Unit := do
  demand "head attestation does not describe this head" (signed.body = expected)
  match signed.signatures with
  | [s] => do
    demand "head attestation must be signed by the enrolled resolver key" (s.keyId = resolverKey)
    demand "invalid head attestation signature"
      (Crypto.verifyBytes resolverKey (.head expected) s.signature = true)
  | _ => .error "bounded dense log array required"

def instant (n : ℤ) : Prop := 0 ≤ n ∧ n ≤ maxSafeInteger

instance (n : ℤ) : Decidable (instant n) := inferInstanceAs (Decidable (_ ∧ _))

/-- Where an effective instant stands to its predecessor and to the signed window. -/
def window (what : String) (issuedAt expiresAt effective previous : ℤ) : Checked Unit := do
  demand s!"invalid {what} window" (instant issuedAt ∧ instant expiresAt)
  demand "effective instant precedes the signed window" (issuedAt ≤ effective)
  demand "effective instants must not decrease" (previous ≤ effective)
  demand s!"{what} expired before its predecessor took effect" (previous < expiresAt)

/-- The latest acceptance the signed window allows, under the lease barrier that yields
the logged instant. -/
def replayTransition (state : IdentityState) (command : Signed Transition) (effective : ℤ) :
    Checked IdentityState := do
  let previous := state.head.effectiveAt
  let expiresAt := command.body.expiresAt
  window "transition" command.body.issuedAt expiresAt effective previous
  demand "effective instant beyond the lease barrier bound"
    (effective ≤ expiresAt - 1 + leaseMs + clockMarginMs)
  let witness := { state with lastUpdate := previous, lastLeaseExpiry := effective - clockMarginMs }
  transitionIdentity witness command (min (expiresAt - 1) effective)

/-- A rehome takes effect when the new resolver adopts it: there is no barrier. -/
def replayRehome (state : IdentityState) (move : Signed Rehome) (effective : ℤ) :
    Checked IdentityState := do
  let previous := state.head.effectiveAt
  window "rehome" move.body.issuedAt move.body.expiresAt effective previous
  demand "rehome effective instant beyond the signed window" (effective < move.body.expiresAt)
  rehomeIdentity { state with lastUpdate := previous } move effective

/-- The state and the binding that an entry takes a replay to. -/
def follow (v : VerifiedIdentityLog) (entry : IdentityLogEntry) : Checked VerifiedIdentityLog :=
  match entry.transition, entry.move with
  | some command, none => do
    let state ← replayTransition v.state command entry.effectiveAt
    pure { v with state }
  | none, some move => do
    let state ← replayRehome v.state move entry.effectiveAt
    pure { v with
      state, former := v.resolvers
      resolver := bindingOf state move.body.destination.audience }
  | _, _ => .error "every later entry carries exactly one signed transition or rehome"

def advance (v : VerifiedIdentityLog) (n : ℕ) (entry : IdentityLogEntry) :
    Checked VerifiedIdentityLog := do
  let next ← follow v entry
  demand "effective instant not reproducible"
    (next.state.head.effectiveAt = entry.effectiveAt ∧ next.state.head.sequence = n)
  pure next

/-- The attestation of a head, where the entry carries one. -/
def attest (requireAttestation : Bool) (n : ℕ) (entry : IdentityLogEntry)
    (v : VerifiedIdentityLog) : Checked (List ℕ) :=
  match entry.attestation with
  | none => do
    demand "resolver head attestation required" (requireAttestation = false)
    pure (v.unattested ++ [n])
  | some signed => do
    let expected : HeadAttestation :=
      { identityId := v.state.head.identityId, resolverId := v.resolver.id
        resolverEpoch := v.resolver.epoch, sequence := n, headDigest := v.state.headDigest
        effectiveAt := entry.effectiveAt }
    checkAttestation signed expected v.resolver.keyId
    pure v.unattested

def record (requireAttestation : Bool) (n : ℕ) (entry : IdentityLogEntry)
    (v : VerifiedIdentityLog) : Checked VerifiedIdentityLog := do
  let unattested ← attest requireAttestation n entry v
  pure { v with
    unattested
    heads := v.heads ++
      [⟨v.state.head, v.state.headDigest, v.resolver.epoch, entry.attestation.isSome⟩] }

/-- One later entry: the next head, and its record. -/
def replayEntry (requireAttestation : Bool) (v : VerifiedIdentityLog)
    (entry : IdentityLogEntry × ℕ) : Checked VerifiedIdentityLog := do
  let next ← advance v entry.2 entry.1
  record requireAttestation entry.2 entry.1 next

/-- The member names a format asks for, and an effective instant. -/
def entryShape (format : LogFormat) (e : IdentityLogEntry) : Checked Unit := do
  demand "exact identity log fields required" (e.rehome = none ↔ format = .legacy)
  demand "invalid effective instant" (instant e.effectiveAt)

/-- Head 0 takes effect when the resolver accepts enrollment. -/
def openLog (genesis : Signed Genesis) (enrollment : Signed ResolverEnrollment) (effective : ℤ) :
    Checked VerifiedIdentityLog := do
  let bound := enrollment.body
  let state ← createIdentity genesis bound.resolverId bound.resolverKey effective
  verifyResolverEnrollment state enrollment bound.audience effective
  pure ⟨[], bindingOf state bound.audience, [], [], state⟩

/-- Succeeds only on one valid, owner-authorized control history. -/
def verifyIdentityLog (input : IdentityLog) (requireAttestation : Bool) :
    Checked VerifiedIdentityLog := do
  demand "bounded dense log array required"
    (1 ≤ input.entries.length ∧ input.entries.length ≤ maxLogEntries)
  each (entryShape input.format) input.entries
  match input.entries with
  | [] => .error "bounded dense log array required"
  | first :: later => do
    demand "the first entry is the genesis head and carries no transition"
      (first.transition = none ∧ first.move = none)
    let opened ← openLog input.genesis input.enrollment first.effectiveAt
    let recorded ← record requireAttestation 0 first opened
    (later.zipIdx 1).foldlM (replayEntry requireAttestation) recorded

inductive Comparison where
  | consistent
  | logBehind
  | conflict
  deriving DecidableEq

/-- What a verified log says about a head digest obtained elsewhere. -/
def compareCheckpoint (v : VerifiedIdentityLog) (sequence : ℕ) (headDigest : Digest) :
    Comparison :=
  match v.heads[sequence]? with
  | none => .logBehind
  | some h => if h.headDigest = headDigest then .consistent else .conflict

/-- The same keys, in any order, and the same threshold. -/
def sameQuorum (a b : KeySet) : Bool := a.threshold = b.threshold && a.keys.isPerm b.keys

/-- The first sequence at which two histories have different heads. -/
def forkPoint : List VerifiedHead → List VerifiedHead → Option ℕ
  | a :: as, b :: bs =>
    if a.headDigest = b.headDigest then (forkPoint as bs).map (· + 1) else some 0
  | _, _ => none

inductive Precedence where
  | equal
  | aExtendsB
  | bExtendsA
  | aSupersedesB
  | bSupersedesA
  | conflict
  deriving DecidableEq

/-- The recovery quorum of the last shared head, which signed the fork, is still current at
the other history's head. -/
def quorumStands (higher lower : VerifiedIdentityLog) (fork : ℕ) : Bool :=
  (higher.heads[fork - 1]?).any fun h => sameQuorum h.head.recovery lower.head.recovery

/-- Epoch precedence between two verified histories of one identity. -/
def precedence (a b : VerifiedIdentityLog) : Checked Precedence := do
  demand "histories of different identities"
    (a.identityId = b.identityId ∧ a.genesisDigest = b.genesisDigest)
  match forkPoint a.heads b.heads with
  | some fork =>
    if a.resolver.epoch = b.resolver.epoch then pure .conflict
    else if a.resolver.epoch > b.resolver.epoch then
      pure (if quorumStands a b fork then .aSupersedesB else .conflict)
    else pure (if quorumStands b a fork then .bSupersedesA else .conflict)
  | none =>
    if a.heads.length = b.heads.length then pure .equal
    else if a.heads.length > b.heads.length then pure .aExtendsB
    else pure .bExtendsA

def rehomeDigest (rehome : Signed Rehome) : Digest := Crypto.digest (.message (.rehome rehome.body))

/-- The destination's statement that it will never adopt a rehome. -/
def refuseRehome (rehome : Signed Rehome) (keyId : KeyId) (now : ℤ) :
    Checked (Signed RehomeRefusal) := do
  demand "invalid refusal instant" (instant now)
  demand "only the destination the rehome names can refuse it"
    (keyId = rehome.body.destination.resolverKey)
  let body : RehomeRefusal :=
    { identityId := rehome.body.identityId, rehomeDigest := rehomeDigest rehome
      resolverId := rehome.body.destination.resolverId
      resolverEpoch := rehome.body.destination.resolverEpoch, refusedAt := now }
  pure ⟨body, [⟨keyId, Crypto.signBytes keyId (.refusal body)⟩]⟩

/-- Succeeds only on the named destination's statement about exactly this rehome. -/
def verifyRehomeRefusal (refusal : Signed RehomeRefusal) (rehome : Signed Rehome) :
    Checked RehomeRefusal := do
  let b := refusal.body
  let target := rehome.body.destination
  match refusal.signatures with
  | [s] => do
    demand "refusal does not describe this rehome"
      (b.identityId = rehome.body.identityId ∧ b.rehomeDigest = rehomeDigest rehome ∧
        b.resolverId = target.resolverId ∧ b.resolverEpoch = target.resolverEpoch ∧
        instant b.refusedAt)
    demand "refusal must be signed by the destination the rehome names"
      (s.keyId = target.resolverKey)
    demand "invalid refusal signature"
      (Crypto.verifyBytes target.resolverKey (.refusal b) s.signature = true)
    pure b
  | _ => .error "bounded dense log array required"

/-- A refusal that a party holds for this rehome. -/
def refuses (rehome : Signed Rehome) (refusal : Signed RehomeRefusal) : Bool :=
  refusal.body.rehomeDigest = rehomeDigest rehome && (verifyRehomeRefusal refusal rehome).toBool

/-- Whether a later rehome leaves the destination of this one for another. -/
def escaped (rehome : Signed Rehome) (later : List IdentityLogEntry) : Bool :=
  later.any fun e => e.move.any fun m =>
    m.body.destination.resolverId ≠ rehome.body.destination.resolverId &&
      m.body.destination.resolverKey ≠ rehome.body.destination.resolverKey

/-- The scan for a refused rehome. An entry without the member is not one whose rehome is
null: its absent rehome is digested, which throws. -/
def refusedAmong (refusals : List (Signed RehomeRefusal)) : List IdentityLogEntry → Checked Bool
  | [] => .ok false
  | e :: later =>
    match e.rehome with
    | none => .error "identity data required"
    | some none => refusedAmong refusals later
    | some (some move) =>
      if refusals.any (refuses move) && !escaped move later then .ok true
      else refusedAmong refusals later

/-- Whether the log contains a rehome the party holds a refusal for and does not escape it. -/
def refusedMove (log : IdentityLog) (refusals : List (Signed RehomeRefusal)) : Checked Bool := do
  demand "held refusals must be a bounded list" (refusals.length ≤ maxLogEntries)
  if refusals = [] then pure false else refusedAmong refusals log.entries

def checkPin (pin : ResolverPin) : Checked Unit :=
  demand "invalid resolver pin"
    ((pin.resolverEpoch : ℤ) ≤ maxSafeInteger ∧ (pin.minimumSequence : ℤ) ≤ maxSafeInteger)

/-- The history a party holds for its pin, checked to end exactly at the pinned head. -/
def pinnedHistory (pin : ResolverPin) (log : IdentityLog) : Checked VerifiedIdentityLog := do
  let p ← verifyIdentityLog log false
  demand "pinned history does not end at the pinned head"
    (p.identityId = pin.identityId ∧ p.resolver.id = pin.resolverId ∧
      p.resolver.keyId = pin.resolverKey ∧ p.resolver.epoch = pin.resolverEpoch ∧
      p.head.sequence = pin.minimumSequence ∧ some p.headDigest = pin.minimumDigest)
  pure p

/-- The history behind a pin, where the party holds it. -/
def heldHistory (pin : ResolverPin) : Option IdentityLog → Checked (Option VerifiedIdentityLog)
  | none => pure none
  | some log => some <$> pinnedHistory pin log

/-- A move past an epoch whose destination did not attest the head it created. -/
def unadopted (epoch : ℕ) (heads : List VerifiedHead) : Bool :=
  (heads.zip heads.tail).any fun h =>
    h.2.epoch ≠ h.1.epoch && epoch < h.2.epoch && !h.2.attested

/-- How the log stands to the history a party holds. -/
def ranking (v : VerifiedIdentityLog) : Option VerifiedIdentityLog → Checked (Option Precedence)
  | none => pure none
  | some p => some <$> precedence v p

def VerifiedIdentityLog.pin (v : VerifiedIdentityLog) : ResolverPin :=
  ⟨v.identityId, v.resolver.id, v.resolver.keyId, v.resolver.epoch, v.head.sequence,
    some v.headDigest⟩

/-- The last question: whether the log agrees with the pinned checkpoint. A conflict counts
only at a higher epoch, for a party that holds the history behind its pin. -/
def judgeCheckpoint (pin : ResolverPin) (v : VerifiedIdentityLog) (held : Bool) :
    IdentityLogJudgement :=
  let outcome : Admitted :=
    if v.head.sequence = pin.minimumSequence ∧ v.resolver.epoch = pin.resolverEpoch
    then .unchanged else .advanced
  match pin.minimumDigest with
  | none => .admission ⟨outcome, v.pin, none⟩
  | some digest =>
    if compareCheckpoint v pin.minimumSequence digest ≠ .conflict then
      .admission ⟨outcome, v.pin, none⟩
    else if v.resolver.epoch ≤ pin.resolverEpoch ∨ held = false then .refused .conflict
    else .admission ⟨.superseded, v.pin, some (pin.minimumSequence, digest)⟩

/-- Whether the log continues the lineage of the pin, and every move past it was adopted. -/
def judgeLineage (pin : ResolverPin) (v : VerifiedIdentityLog) (held : Bool) :
    IdentityLogJudgement :=
  match v.resolvers.find? fun r => r.epoch = pin.resolverEpoch with
  | none => .refused .foreignLineage
  | some known =>
    if known.id ≠ pin.resolverId ∨ known.keyId ≠ pin.resolverKey then .refused .foreignLineage
    else if v.head.sequence < pin.minimumSequence then .refused .behind
    else if unadopted pin.resolverEpoch v.heads then .refused .unadoptedMove
    else judgeCheckpoint pin v held

/-- The relying-party procedure over an already verified log. -/
def judgeVerified (pin : ResolverPin) (v : VerifiedIdentityLog)
    (pinned : Option VerifiedIdentityLog) (refused : Bool) : Checked IdentityLogJudgement :=
  if v.identityId ≠ pin.identityId then .ok (.refused .anotherIdentity)
  else if refused then .ok (.refused .refusedMove)
  else do
    let ranked ← ranking v pinned
    pure (if ranked = some .conflict then .refused .conflict
      else judgeLineage pin v pinned.isSome)

/-- The judgement of a log against a pin. An invalid pin, or a pinned history that does not
end at the pin, is the caller's error and throws. -/
def judgeIdentityLog (pin : ResolverPin) (log : IdentityLog) (requireAttestation : Bool)
    (pinned : Option IdentityLog) (refusals : List (Signed RehomeRefusal)) :
    Checked IdentityLogJudgement := do
  checkPin pin
  let held ← heldHistory pin pinned
  match verifyIdentityLog log requireAttestation with
  | .error _ => pure (.refused .invalidLog)
  | .ok v => do
    let refused ← refusedMove log refusals
    judgeVerified pin v held refused

def IdentityLogEntry.json (e : IdentityLogEntry) : Json :=
  let transition := optionJson (Signed.json Transition.json) e.transition
  let attestation := optionJson (Signed.json HeadAttestation.json) e.attestation
  .obj ([("effective_at", .num e.effectiveAt), ("transition", transition)] ++
    e.rehome.toList.map (fun m => ("rehome", optionJson (Signed.json Rehome.json) m)) ++
    [("attestation", attestation)])

def LogFormat.text : LogFormat → String
  | .legacy => "dtp-identity-log-1"
  | .moves => "dtp-identity-log-2"

def IdentityLog.json (log : IdentityLog) : Json :=
  .obj [("format", .str log.format.text), ("genesis", log.genesis.json Genesis.json),
    ("enrollment", log.enrollment.json ResolverEnrollment.json),
    ("entries", .arr (log.entries.map IdentityLogEntry.json))]

/-- The message of a push: the log, and nothing else. -/
def pushJson (log : IdentityLog) : Json :=
  .obj [("format", .str "dtp-identity-log-push-1"), ("log", log.json)]

/-- The relying party's answer to a pushed log; `lookup` returns what it holds. -/
def receiveIdentityLogPush (log : IdentityLog) (lookup : Uuid → Option PinnedHistory)
    (requireAttestation : Bool) : Checked IdentityLogJudgement := do
  let read : Checked VerifiedIdentityLog := do
    copyIdentityData (pushJson log)
    verifyIdentityLog log requireAttestation
  match read with
  | .error _ => pure (.refused .invalidLog)
  | .ok v =>
    match lookup v.identityId with
    | none => pure (.refused .unknownIdentity)
    | some held => do
      checkPin held.pin
      let pinned ← heldHistory held.pin held.log
      let refused ← refusedMove log held.refusals
      judgeVerified held.pin v pinned refused

end
end DirectTrade.Foundation
