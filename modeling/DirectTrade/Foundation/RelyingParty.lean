import DirectTrade.Foundation.Admission

/-!
A relying party: one durable pin for an identity, the log it may hold for that pin, and the
rehome refusals it has taken in. Logs and pushes are judged against the pin; a person
operation advances it to the head that the pinned resolver vouches for.
-/

namespace DirectTrade.Foundation

open Library Outcome

/-- The log a party holds from an admission on. -/
inductive Keep where
  | offered
  | held
  | neither

/-- A person operation: the owner signs the intent together with the resolution. -/
structure PersonOperation where
  resolution : Signed Resolution
  intent : Digest
  signatures : List Signature

inductive PartyEvent where
  | offer (log : IdentityLog) (requireAttestation : Bool) (keep : Keep)
  | push (log : IdentityLog) (requireAttestation : Bool) (keep : Keep)
  | operate (operation : PersonOperation) (audience : String) (challenge : Digest) (now : ℤ)
      (keep : Bool)
  | refuse (refusal : Signed RehomeRefusal) (log : IdentityLog)

def personMaxRehomeRefusals : ℕ := 64

namespace PinnedHistory

variable (held : PinnedHistory)

/-- The pin of an admission takes the place of the party's pin. -/
def store (log : IdentityLog) (keep : Keep) (a : IdentityLogAdmission) : PinnedHistory :=
  { held with
    pin := a.pin
    log := match keep with
      | .offered => some log
      | .held => held.log
      | .neither => none }

def settle (log : IdentityLog) (keep : Keep) :
    IdentityLogJudgement → PinnedHistory × Option (IdentityLog × IdentityLogAdmission)
  | .refused _ => (held, none)
  | .admission a => (held.store log keep a, some (log, a))

def lookup (id : Uuid) : Option PinnedHistory :=
  if id = held.pin.identityId then some held else none

def expected (audience : String) (challenge : Digest) : Expected :=
  { identityId := held.pin.identityId, audience, challenge, resolverId := held.pin.resolverId
    resolverKey := held.pin.resolverKey, resolverEpoch := held.pin.resolverEpoch
    minimumSequence := held.pin.minimumSequence, minimumDigest := held.pin.minimumDigest }

/-- The checkpoint moves to the head that a resolution carries. -/
def advanceTo (b : Resolution) (keep : Bool) : PinnedHistory :=
  { held with
    pin := { held.pin with
      minimumSequence := b.head.sequence, minimumDigest := some b.headDigest }
    log := if keep then held.log else none }

end PinnedHistory

section
variable [Crypto]

/-- The first rehome of the entries that a refusal names. -/
def namedRehome (named : Digest) : List IdentityLogEntry → Checked (Signed Rehome)
  | [] => .error "refusal names no rehome of this person's verified log"
  | e :: later =>
    match e.rehome with
    | none => .error "identity data required"
    | some none => namedRehome named later
    | some (some move) =>
      if rehomeDigest move = named then .ok move else namedRehome named later

/-- Takes in a destination's refusal of a rehome that the person's own quorum signed. -/
def recordRehomeRefusal (held : PinnedHistory) (log : IdentityLog)
    (refusal : Signed RehomeRefusal) : Checked PinnedHistory := do
  let v ← verifyIdentityLog log false
  demand "log is for another identity" (v.identityId = held.pin.identityId)
  let rehome ← namedRehome refusal.body.rehomeDigest log.entries
  let body ← verifyRehomeRefusal refusal rehome
  demand "refusal is for another identity" (body.identityId = held.pin.identityId)
  if held.refusals.any fun r => r.body.rehomeDigest = body.rehomeDigest then pure held
  else do
    demand "rehome refusal limit reached for this person"
      (held.refusals.length < personMaxRehomeRefusals)
    pure { held with refusals := held.refusals ++ [refusal] }

/-- The operational keys that signed an operation over the resolution it carries. -/
def operationSigners (control : Control) (operation : PersonOperation) :
    List KeyId → List Signature → Checked (List KeyId)
  | signers, [] => .ok signers
  | signers, s :: rest => do
    demand "invalid or duplicate operational signature" (s.keyId ∉ signers)
    demand "signature is not a current operational key" (s.keyId ∈ control.operational.keys)
    demand "invalid person operation signature"
      (Crypto.verifyBytes s.keyId (.operation operation.intent operation.resolution)
        s.signature = true)
    operationSigners control operation (signers ++ [s.keyId]) rest

def authenticateOperation (held : PinnedHistory) (operation : PersonOperation)
    (audience : String) (challenge : Digest) (now : ℤ) (keep : Bool) : Checked PinnedHistory := do
  let control ← verifyResolution operation.resolution (held.expected audience challenge) now
  let signers ← operationSigners control operation [] operation.signatures
  demand "operational quorum required" (control.operational.threshold ≤ signers.length)
  pure (held.advanceTo operation.resolution.body keep)

/-- The party after an event, with the log it admitted, if it admitted one. An event that
throws leaves the party as it was. -/
def PinnedHistory.next (held : PinnedHistory) :
    PartyEvent → Checked (PinnedHistory × Option (IdentityLog × IdentityLogAdmission))
  | .offer log require keep =>
    held.settle log keep <$> judgeIdentityLog held.pin log require held.log held.refusals
  | .push log require keep =>
    held.settle log keep <$> receiveIdentityLogPush log held.lookup require
  | .operate operation audience challenge now keep =>
    (fun after => (after, none)) <$>
      authenticateOperation held operation audience challenge now keep
  | .refuse refusal log => (fun after => (after, none)) <$> recordRehomeRefusal held log refusal

/-- The judgement that an admission came from. -/
structure Judged (held : PinnedHistory) (log : IdentityLog) (require : Bool)
    (v : VerifiedIdentityLog) (pinned : Option VerifiedIdentityLog)
    (a : IdentityLogAdmission) : Prop where
  pin : checkPin held.pin = .ok ()
  verified : verifyIdentityLog log require = .ok v
  history : heldHistory held.pin held.log = .ok pinned
  unrefused : refusedMove log held.refusals = .ok false
  admits : Admits held.pin v pinned a

theorem judged_of_judge {held : PinnedHistory} {log : IdentityLog} {require : Bool}
    {a : IdentityLogAdmission}
    (h : judgeIdentityLog held.pin log require held.log held.refusals = .ok (.admission a)) :
    ∃ v pinned, Judged held log require v pinned a := by
  simp only [judgeIdentityLog, bind_eq_ok] at h
  obtain ⟨_, hpin, pinned, hhistory, h⟩ := h
  cases hv : verifyIdentityLog log require with
  | error e =>
    rw [hv] at h
    cases (pure_eq_ok _ _).mp h
  | ok v =>
    rw [hv] at h
    simp only [bind_eq_ok] at h
    obtain ⟨refused, hrefused, h⟩ := h
    obtain ⟨rfl, hadmits⟩ := judgeVerified_eq_admission h
    exact ⟨v, pinned, hpin, hv, hhistory, hrefused, hadmits⟩

theorem judged_of_push {held : PinnedHistory} {log : IdentityLog} {require : Bool}
    {a : IdentityLogAdmission}
    (h : receiveIdentityLogPush log held.lookup require = .ok (.admission a)) :
    copyIdentityData (pushJson log) = .ok () ∧ ∃ v pinned, Judged held log require v pinned a := by
  unfold receiveIdentityLogPush at h
  cases hcopy : copyIdentityData (pushJson log) with
  | error e =>
    simp only [hcopy] at h
    cases (pure_eq_ok _ _).mp h
  | ok u =>
    simp only [hcopy, ok_bind] at h
    cases hv : verifyIdentityLog log require with
    | error e =>
      simp only [hv] at h
      cases (pure_eq_ok _ _).mp h
    | ok v =>
      simp only [hv, PinnedHistory.lookup] at h
      by_cases hid : v.identityId = held.pin.identityId
      · simp only [hid, if_true, bind_eq_ok] at h
        obtain ⟨_, hpin, pinned, hhistory, refused, hrefused, h⟩ := h
        obtain ⟨rfl, hadmits⟩ := judgeVerified_eq_admission h
        exact ⟨rfl, v, pinned, hpin, hv, hhistory, hrefused, hadmits⟩
      · simp only [hid, if_false] at h
        cases (pure_eq_ok _ _).mp h

/-- What an event does to a party. -/
inductive Step (held : PinnedHistory) :
    PartyEvent → PinnedHistory → Option (IdentityLog × IdentityLogAdmission) → Prop where
  | offered {log : IdentityLog} {require : Bool} {keep : Keep} {v : VerifiedIdentityLog}
      {pinned : Option VerifiedIdentityLog} {a : IdentityLogAdmission}
      (judged : Judged held log require v pinned a) :
      Step held (.offer log require keep) (held.store log keep a) (some (log, a))
  | pushed {log : IdentityLog} {require : Bool} {keep : Keep} {v : VerifiedIdentityLog}
      {pinned : Option VerifiedIdentityLog} {a : IdentityLogAdmission}
      (copied : copyIdentityData (pushJson log) = .ok ())
      (judged : Judged held log require v pinned a) :
      Step held (.push log require keep) (held.store log keep a) (some (log, a))
  | operated {operation : PersonOperation} {audience : String} {challenge : Digest} {now : ℤ}
      {keep : Bool} (reaches : held.pin.minimumSequence ≤ operation.resolution.body.head.sequence) :
      Step held (.operate operation audience challenge now keep)
        (held.advanceTo operation.resolution.body keep) none
  | unmoved {e : PartyEvent} {refusals : List (Signed RehomeRefusal)} :
      Step held e { held with refusals } none

theorem resolution_reaches {proof : Signed Resolution} {expected : Expected} {now : ℤ}
    {control : Control} (h : verifyResolution proof expected now = .ok control) :
    expected.minimumSequence ≤ proof.body.head.sequence := by
  simp only [verifyResolution, bind_eq_ok, demand_eq_ok] at h
  obtain ⟨_, -, _, -, _, -, _, -, _, -, _, -, _, -, _, -, _, -, _, -, _, -, _, -, _, -, _, -,
    _, ⟨-, hreaches⟩, -⟩ := h
  exact hreaches

theorem PinnedHistory.step_of_next {held after : PinnedHistory} {e : PartyEvent}
    {admitted : Option (IdentityLog × IdentityLogAdmission)}
    (h : held.next e = .ok (after, admitted)) : Step held e after admitted := by
  cases e with
  | offer log require keep =>
    obtain ⟨j, hj, hsettle⟩ := (map_eq_ok _ _ _).mp h
    cases j with
    | refused reason =>
      obtain ⟨rfl, rfl⟩ := Prod.mk.inj hsettle
      exact .unmoved
    | admission a =>
      obtain ⟨rfl, rfl⟩ := Prod.mk.inj hsettle
      obtain ⟨v, pinned, hjudged⟩ := judged_of_judge hj
      exact .offered hjudged
  | push log require keep =>
    obtain ⟨j, hj, hsettle⟩ := (map_eq_ok _ _ _).mp h
    cases j with
    | refused reason =>
      obtain ⟨rfl, rfl⟩ := Prod.mk.inj hsettle
      exact .unmoved
    | admission a =>
      obtain ⟨rfl, rfl⟩ := Prod.mk.inj hsettle
      obtain ⟨hcopied, v, pinned, hjudged⟩ := judged_of_push hj
      exact .pushed hcopied hjudged
  | operate operation audience challenge now keep =>
    obtain ⟨x, hx, hpair⟩ := (map_eq_ok _ _ _).mp h
    obtain ⟨rfl, rfl⟩ := Prod.mk.inj hpair
    simp only [authenticateOperation, bind_eq_ok, demand_eq_ok, pure_eq_ok] at hx
    obtain ⟨control, hresolution, signers, -, _, -, rfl⟩ := hx
    exact .operated (resolution_reaches hresolution)
  | refuse refusal log =>
    obtain ⟨x, hx, hpair⟩ := (map_eq_ok _ _ _).mp h
    obtain ⟨rfl, rfl⟩ := Prod.mk.inj hpair
    simp only [recordRehomeRefusal, bind_eq_ok, demand_eq_ok] at hx
    obtain ⟨_, -, _, -, _, -, _, -, _, -, hx⟩ := hx
    split at hx
    · obtain rfl := (pure_eq_ok _ _).mp hx
      exact .unmoved
    · simp only [bind_eq_ok, demand_eq_ok, pure_eq_ok] at hx
      obtain ⟨_, -, rfl⟩ := hx
      exact .unmoved

end
end DirectTrade.Foundation
