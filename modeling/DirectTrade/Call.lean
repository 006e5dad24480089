import DirectTrade.Migration

/-!
One command under execution: the state it runs on, the keys that signed it, the
receipt it replays and the company it names. Handlers return the next state, the
response, and whether the command joins the company's history.
-/

namespace DirectTrade

open Library

structure Call where
  s : State
  c : Command
  ctx : Context
  signed : List KeyId
  previous : Option Receipt
  org : Option Organization

structure Reply where
  state : State
  result : Option Result
  history : Bool

/-- A change outside the company's history, with its response. -/
def Reply.write (state : State) (result : Result) : Reply := ⟨state, some result, false⟩

namespace Payload

/-- The actions whose receipts keep no result. -/
def isRead : Payload → Bool
  | .organizationsList | .workspaceView _ | .recordsList _ | .recordsExport _ | .recordGet _ _
  | .profileGet _ | .policyGet _ | .evidenceInspect _ _ | .migrationChunk _ _
  | .migrationReceipt _ | .migrationStatus _ | .inventoryLedger _ _ | .flowBook _ _ => true
  | _ => false

/-- The actions that change none of a host's tables but its receipts. -/
def observes : Payload → Bool
  | .inventoryGet _ _ | .authorityExport | .evidenceIssue _ _ _ _ => true
  | p => p.isRead

/-- The actions an installation may sign. -/
def forInstallation : Payload → Bool
  | .mutation (.recordAppend _) | .recordGet _ _ | .recordsList _ | .recordsExport _
  | .profileGet _ | .inventoryGet _ _ | .inventoryLedger _ _ | .flowBook _ _
  | .evidenceInspect _ _ => true
  | _ => false

def isRegister : Payload → Bool
  | .mutation (.personRegister _) => true
  | _ => false

def isAccept : Payload → Bool
  | .mutation (.membershipAccept _) => true
  | _ => false

end Payload

/-- The mutations that open stock; a replay of one still makes sure that the company's entry
exists. -/
def Mutation.opens : Mutation → Bool
  | .inventoryCreate _ _ _ _ | .inventoryOpen _ _ | .flowOpen _ _ | .flowLedgerOpen _ => true
  | _ => false

/-- The mutation that answers a replay from the migration it made, not from its receipt. -/
def Mutation.prepares : Mutation → Bool
  | .migrationPrepare _ => true
  | _ => false

def ids (values : List Uuid) (min max : ℕ) : Attempt Unit :=
  demand (min ≤ values.length ∧ values.length ≤ max ∧ values.Nodup)
    "invalid" "invalid distinct IDs" 400

@[simp] theorem ids_eq_ok (values : List Uuid) (min max : ℕ) (u : Unit) :
    ids values min max = .ok u ↔
      min ≤ values.length ∧ values.length ≤ max ∧ values.Nodup := by
  simp [ids]

def text (value : String) (max : ℕ) : Attempt Unit :=
  demand (0 < value.length ∧ utf16Length value ≤ max) "invalid" "invalid text" 400

def future (value : Instant) (ctx : Context) : Attempt Unit :=
  demand (value > ctx.now ∧ value ≤ ctx.now + yearMillis)
    "invalid" "expiry must be within one year" 400

@[simp] theorem future_eq_ok (value : Instant) (ctx : Context) (u : Unit) :
    future value ctx = .ok u ↔ value > ctx.now ∧ value ≤ ctx.now + yearMillis := by
  simp [future]

/-- Whether a person or an installation of the host holds a key. -/
def keyBound (s : State) (key : KeyId) : Bool :=
  (s.persons.values.any fun p => key ∈ p.keys ++ p.retiredKeys) ||
    s.organizations.values.any fun o => o.installations.values.any (·.keyId = key)

section

variable [Primitives]

def keyFree (s : State) (key : KeyId) : Attempt Unit := do
  demand (Primitives.validKey key = true) "invalid" "invalid public key" 400
  demand (Primitives.registrableKey key = true)
    "invalid" "public key is not of prime order" 400
  demand (migrationKeyReserved s key = false)
    "migration_reserved" "key reserved for validated migration" 409
  demand (keyBound s key = false) "conflict" "key already bound" 409

/-- A key that no identity of the host and no ready stage holds. -/
structure FreeKey (s : State) (key : KeyId) : Prop where
  valid : Primitives.validKey key = true
  registrable : Primitives.registrableKey key = true
  unreserved : migrationKeyReserved s key = false
  unbound : keyBound s key = false

@[simp] theorem keyFree_eq_ok (s : State) (key : KeyId) (u : Unit) :
    keyFree s key = .ok u ↔ FreeKey s key := by
  simp only [keyFree, Outcome.bind_eq_ok, demand_eq_ok, exists_const]
  constructor
  · rintro ⟨h1, h2, h3, h4⟩
    exact ⟨h1, h2, h3, h4⟩
  · rintro ⟨h1, h2, h3, h4⟩
    exact ⟨h1, h2, h3, h4⟩

/-- New keys must be free, and each must sign the command that binds it. -/
def provenKeys (s : State) (signed keys : List KeyId) (message : String) : Attempt Unit :=
  Outcome.each (fun key => do
    keyFree s key
    demand (key ∈ signed) "approval_required" message 403) keys

@[simp] theorem provenKeys_eq_ok (s : State) (signed keys : List KeyId) (message : String)
    (u : Unit) :
    provenKeys s signed keys message = .ok u ↔ ∀ key ∈ keys, FreeKey s key ∧ key ∈ signed := by
  simp [provenKeys]

/-- The release's live approval of its exact artifact. -/
def approvedArtifact (assessment : Signed AssessmentBody) (artifactDigest : Digest)
    (ctx : Context) (message : String) : Attempt Unit := do
  let a ← verifyAssessment assessment ctx
  demand (a.artifactDigest = artifactDigest ∧ a.approved = true) "invalid_assessment" message 403

/-- Whether the actor may act at all: a person under a current key, or an installation
whose module is assessed and whose human is present. -/
def admitActor (s : State) (c : Command) (ctx : Context) (signed : List KeyId)
    (org : Option Organization) : Attempt Unit :=
  if c.payload.isRegister then pure ()
  else match c.actor.kind with
    | .person =>
      demand ((s.persons.get? c.actor.id).any (fun p => c.actor.keyId ∈ p.keys) ∧
          c.requestedBy = some c.actor.id)
        "forbidden" "inactive personal authority" 403
    | .installation => do
      let o ← require org "forbidden" "inactive or disallowed installation" 403
      let inst ← require (o.installations[c.actor.id]?.filter fun inst => inst.active &&
          inst.keyId = c.actor.keyId && inst.expiresAt > ctx.now && c.payload.forInstallation)
        "forbidden" "inactive or disallowed installation" 403
      let release ← require (s.releases.get? inst.releaseDigest)
        "assessment_required" "module has no live approved artifact assessment" 403
      let assessment ← require release.assessment
        "assessment_required" "module has no live approved artifact assessment" 403
      approvedArtifact assessment release.artifactDigest ctx
        "assessment does not bind approved artifact"
      match c.requestedBy with
      | none =>
        demand (inst.mode = .automation ∧ activeMember s o inst.sponsorId ctx.now)
          "forbidden" "automation sponsor unavailable" 403
      | some person =>
        demand (activeMember s o person ctx.now ∧ personSigned s signed person)
          "approval_required" "current requesting human signature required" 403

end

namespace Call

def stored (k : Call) (m : Mutation) : StoredCommand := k.c.keep m

/-- The response of a replay, or of a read: the state stays. -/
def answer (k : Call) (result : Option Result) : Reply := ⟨k.s, result, false⟩

def needOrg (k : Call) : Attempt Organization :=
  require k.org "not_found" "company unavailable" 404

@[simp] theorem needOrg_eq_ok (k : Call) (o : Organization) :
    k.needOrg = .ok o ↔ k.org = some o := by
  simp [needOrg]

def currentOrg (k : Call) : Attempt Organization := do
  let o ← k.needOrg
  demand (k.c.payload.isAccept ∨ (humanOf o k.c).any (activeMember k.s o · k.ctx.now))
    "not_found" "company unavailable" 404
  demand (o.status = .active) "migrated" "company authority has moved" 409
  pure o

/-- The company a command runs in: named, visible to the caller, and active here. -/
structure Inside (k : Call) (o : Organization) : Prop where
  org : k.org = some o
  member : k.c.payload.isAccept = true ∨
    (humanOf o k.c).any (activeMember k.s o · k.ctx.now) = true
  active : o.status = .active

@[simp] theorem currentOrg_eq_ok (k : Call) (o : Organization) :
    k.currentOrg = .ok o ↔ k.Inside o := by
  simp only [currentOrg, Outcome.bind_eq_ok, needOrg_eq_ok, demand_eq_ok,
    Outcome.pure_eq_ok, exists_const]
  constructor
  · rintro ⟨o, horg, hmember, hactive, rfl⟩
    exact ⟨horg, hmember, hactive⟩
  · intro h
    exact ⟨o, h.org, h.member, h.active, rfl⟩

theorem Inside.unique {k : Call} {o o' : Organization} (h : k.Inside o) (h' : k.Inside o') :
    o = o' := by
  simpa [h.org] using h'.org

def asController (k : Call) (o : Organization) : Attempt Organization := do
  controller k.s o k.c k.signed
  pure o

@[simp] theorem asController_eq_ok (k : Call) (o o' : Organization) :
    k.asController o = .ok o' ↔ o = o' ∧ Controls k.s o k.c k.signed := by
  simp only [asController, controller, Outcome.bind_eq_ok, demand_eq_ok, quorum_eq_ok,
    Outcome.pure_eq_ok, exists_const]
  constructor
  · rintro ⟨⟨⟨h1, h2⟩, h3⟩, h4⟩
    exact ⟨h4, h1, h2, h3⟩
  · rintro ⟨h4, h1, h2, h3⟩
    exact ⟨⟨⟨h1, h2⟩, h3⟩, h4⟩

def policy (k : Call) (policyId : Uuid) : Attempt Policy := do
  let o ← k.currentOrg
  require ((k.s.policies.get? policyId).filter (·.organizationId = o.id))
    "not_found" "policy unavailable" 404

/-- A policy of the company that the command runs in. -/
theorem policy_eq_ok (k : Call) (policyId : Uuid) (pol : Policy) :
    k.policy policyId = .ok pol ↔ ∃ o, k.Inside o ∧ k.s.policies.get? policyId = some pol ∧
      pol.organizationId = o.id := by
  simp only [policy, Outcome.bind_eq_ok, currentOrg_eq_ok, require_eq_ok,
    Option.filter_eq_some_iff, decide_eq_true_eq]

def can (k : Call) (policyId resource : Uuid) (action : DataAction) : Attempt Bool := do
  let o ← k.currentOrg
  let pol ← k.policy policyId
  pure (dataAllowed k.s o pol resource action k.c k.ctx)

theorem can_eq_ok (k : Call) (policyId resource : Uuid) (action : DataAction) (b : Bool) :
    k.can policyId resource action = .ok b ↔ ∃ o, k.Inside o ∧
      ∃ pol, k.s.policies.get? policyId = some pol ∧ pol.organizationId = o.id ∧
        dataAllowed k.s o pol resource action k.c k.ctx = b := by
  simp only [can, Outcome.bind_eq_ok, currentOrg_eq_ok, policy_eq_ok, Outcome.pure_eq_ok]
  constructor
  · rintro ⟨o, ho, pol, ⟨o', ho', hpol, horg⟩, hb⟩
    obtain rfl := ho.unique ho'
    exact ⟨o, ho, pol, hpol, horg, hb⟩
  · rintro ⟨o, ho, pol, hpol, horg, hb⟩
    exact ⟨o, ho, pol, ⟨o, ho, hpol, horg⟩, hb⟩

/-- A compartment the caller cannot read answers as an absent policy does. -/
def visible (k : Call) (policyId resource : Uuid) : Attempt Unit := do
  let allowed ← k.can policyId resource .read
  demand (allowed = true) "not_found" "policy unavailable" 404

def writable (k : Call) (policyId resource : Uuid) (message : String) : Attempt Unit := do
  let allowed ← k.can policyId resource .write
  if allowed then pure ()
  else
    k.visible policyId resource
    demand False "forbidden" message 403

theorem writable_eq_ok (k : Call) (policyId resource : Uuid) (message : String) (u : Unit) :
    k.writable policyId resource message = .ok u ↔ k.can policyId resource .write = .ok true := by
  simp only [writable, Outcome.bind_eq_ok]
  constructor
  · rintro ⟨allowed, hcan, h⟩
    cases allowed with
    | true => exact hcan
    | false => simp at h
  · intro h
    exact ⟨true, h, rfl⟩

/-- The profiles that the acting module declares. -/
def moduleProfiles (k : Call) (o : Organization) : Attempt (List Digest) := do
  let inst ← access o.installations[k.c.actor.id]?
  let release ← access (k.s.releases.get? inst.releaseDigest)
  pure release.profiles

def understands (k : Call) (profileDigest : Digest) : Attempt Bool :=
  match k.c.actor.kind with
  | .person => pure true
  | .installation => do
    let o ← k.currentOrg
    let profiles ← k.moduleProfiles o
    pure (profileDigest ∈ profiles)

/-- The state with the company the command names rewritten. -/
def setOrg (k : Call) (o : Organization) : State :=
  match k.c.organizationId with
  | none => k.s
  | some id => { k.s with organizations := k.s.organizations.set id o }

def assertAllStewards (k : Call) (o : Organization) : Attempt Unit :=
  Outcome.each (fun (pol : Policy) =>
    quorum k.s (pol.stewards.filter (activeMember k.s o · k.ctx.now)) pol.threshold k.signed)
    (k.s.policies.values.filter (·.organizationId = o.id))

end Call
end DirectTrade
