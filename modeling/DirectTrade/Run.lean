import DirectTrade.Handlers

/-!
Runs of one host. An accepted command satisfies the checks of admission and has one of
the listed effects; the reachable states are those of any sequence of accepted commands.
-/

namespace DirectTrade

open Library

variable [Primitives] [Reducers]

/-- The state after an accepted handler, before its receipt. -/
def Reply.next (reply : Reply) (c : Command) : State :=
  if reply.history then pushHistory reply.state c else reply.state

omit [Primitives] [Reducers] in
/-- A change of a company with its history entry touches no other table. -/
theorem pushHistory_setOrg (k : Call) (o : Organization) (c : Command) :
    ∃ organizations, pushHistory (k.setOrg o) c =
      { k.s with organizations := organizations } := by
  unfold pushHistory Call.setOrg
  cases k.c.organizationId <;> split <;> exact ⟨_, rfl⟩

/-- A command that passed admission, with what it does. -/
structure Accepted (s : State) (c : Command) (ctx : Context) (signed : List KeyId)
    (reply : Reply) : Prop where
  valid : validateCommand c ctx.audience ctx.now = .ok ()
  verified : verifyCommand c = .ok signed
  admitted : admitActor s c ctx signed (c.organizationId.bind s.organizations.get?) = .ok ()
  matching : ∀ r, s.receipts.get? c.requestId = some r → r.hash = Primitives.digestCommand c
  effect : (callOf s c ctx signed).Effect reply

theorem execute_eq_ok {s s' : State} {c : Command} {ctx : Context} {result : Option Result}
    (h : execute s c ctx = .ok (s', result)) :
    ∃ signed reply, Accepted s c ctx signed reply ∧
      s' = recordReceipt (reply.next c) c ctx.now reply.result ∧ result = reply.result := by
  simp only [execute, Outcome.bind_eq_ok, demand_eq_ok, Outcome.pure_eq_ok, Prod.mk.injEq] at h
  obtain ⟨_, valid, signed, verified, _, admitted, _, matching, reply, dispatched, rfl, rfl⟩ := h
  refine ⟨signed, reply, ⟨valid, verified, admitted, ?_, Call.dispatch_effect dispatched⟩,
    rfl, rfl⟩
  intro r hr
  have hprevious : (callOf s c ctx signed).previous = some r := hr
  simpa [hprevious] using matching

/-- The states of any run of accepted commands, imports included, under any contexts. -/
inductive Reachable : State → Prop
  | empty : Reachable emptyState
  | step {s s' : State} {c : Command} {ctx : Context} {result : Option Result}
      (before : Reachable s) (accepted : execute s c ctx = .ok (s', result)) : Reachable s'

/-- Executes commands in order; the first refusal ends the run. -/
def run (s : State) (commands : List (Command × Context)) : Attempt State :=
  commands.foldlM (fun s entry => do
    let changed ← execute s entry.1 entry.2
    pure changed.1) s

theorem Reachable.run {s s' : State} {commands : List (Command × Context)} (hs : Reachable s)
    (h : run s commands = .ok s') : Reachable s' := by
  refine Outcome.foldlM_invariant Reachable _ commands ?_ hs h
  intro entry _ t t' ht hstep
  simp only [Outcome.bind_eq_ok, Outcome.pure_eq_ok] at hstep
  obtain ⟨⟨_, result⟩, hstep, rfl⟩ := hstep
  exact ht.step hstep

/-- An invariant of the tables that no receipt can break holds in every reachable state. -/
theorem Reachable.invariant {P : State → Prop} (hempty : P emptyState)
    (hreceipt : ∀ s receipts, P s → P { s with receipts := receipts })
    (hstep : ∀ s c ctx signed reply, P s → Accepted s c ctx signed reply → P (reply.next c))
    {s : State} (h : Reachable s) : P s := by
  induction h with
  | empty => exact hempty
  | step _ accepted ih =>
    obtain ⟨signed, reply, haccepted, rfl, -⟩ := execute_eq_ok accepted
    exact hreceipt _ _ (hstep _ _ _ _ _ ih haccepted)

/-- An accepted command of a run, with the state it found. -/
structure Turn where
  state : State
  command : Command
  ctx : Context

/-- A run of accepted commands from the empty state, with the states that it passes. -/
inductive Path : List Turn → State → Prop
  | nil : Path [] emptyState
  | snoc {l : List Turn} {s s' : State} {c : Command} {ctx : Context} {result : Option Result}
      (before : Path l s) (accepted : execute s c ctx = .ok (s', result)) :
      Path (l ++ [⟨s, c, ctx⟩]) s'

theorem Path.reachable {l : List Turn} {s : State} (h : Path l s) : Reachable s := by
  induction h with
  | nil => exact .empty
  | snoc _ accepted ih => exact ih.step accepted

/-- Executes commands in order and keeps the states they find. -/
def runPath (commands : List (Command × Context)) : Attempt (List Turn × State) :=
  commands.foldlM (fun acc entry => do
    let changed ← execute acc.2 entry.1 entry.2
    pure (acc.1 ++ [⟨acc.2, entry.1, entry.2⟩], changed.1)) ([], emptyState)

theorem Path.of_run {commands : List (Command × Context)} {l : List Turn} {s : State}
    (h : runPath commands = .ok (l, s)) : Path l s := by
  refine Outcome.foldlM_invariant (fun acc : List Turn × State => Path acc.1 acc.2) _ commands
    ?_ Path.nil h
  rintro entry - ⟨l, s⟩ t hpath hstep
  simp only [Outcome.bind_eq_ok, Outcome.pure_eq_ok] at hstep
  obtain ⟨⟨s', result⟩, hexecute, rfl⟩ := hstep
  exact hpath.snoc hexecute

/-- The turns of a run, when every command of it is accepted, and its last state. -/
def pathOf (commands : List (Command × Context)) : List Turn × State :=
  Outcome.value ([], emptyState) (runPath commands)

theorem Path.of_pathOf {commands : List (Command × Context)}
    (h : (runPath commands).toBool = true) : Path (pathOf commands).1 (pathOf commands).2 :=
  Path.of_run (Outcome.eq_value ([], emptyState) h)

/-- Primitives on which runs can be evaluated. Every key signs, and a digest names the
identifier that tells the values of a run apart. -/
@[reducible] def samplePrimitives (carried : Option Snapshot) : Primitives where
  verifyCommand _ _ _ _ := true
  verifyToken key _ signature := key = signature
  sign key _ := key
  validKey _ := true
  registrableKey _ := true
  keyText key := digestText key
  nulFree _ := true
  personId key := key
  organizationId actor nonce := 1000 * actor + nonce
  digestCommand c := c.requestId
  digestToken t := t.body.stamp.issuedAt.toNat
  digestBody b := b.stamp.issuedAt.toNat
  digestManifest m := m.migrationId
  digestHost h := h.keyId
  digestSnapshot snap := snap.records.length
  digestContract p := 700 + p.name.length
  digestRelease _ p := p.artifactDigest
  digestJson j := j.items.length
  inventoryKey keys := keys.length
  evidenceBytes _ := 1
  sha256 bytes := bytes.length
  snapshotBytes _ := [1]
  parseSnapshot _ := carried
  snapshotDepth _ := 1
  snapshotNulFree _ := true

def sampleRule : Attempt (List Issue) := .ok []

@[reducible] def sampleReducers : Reducers where
  validateInvoice _ _ := ⟨true, true, []⟩
  validateProduct _ := sampleRule
  checkProductContinuity _ _ := sampleRule
  validateOrder _ := sampleRule
  checkOrderContinuity _ _ := sampleRule
  checkOrderGenesis _ := sampleRule
  validateForecast _ := sampleRule
  checkForecastContinuity _ _ := sampleRule
  validateObject _ := sampleRule
  checkObjectOwner _ _ := sampleRule
  checkObjectContinuity _ _ := sampleRule
  checkObjectGenesis _ := sampleRule
  validateParty _ := sampleRule
  checkPartyContinuity _ _ := sampleRule
  applyInventoryEvent state _ := .ok false state
  unpublishedPackaging _ _ := .ok false
  applyInventoryFact state _ := .ok false state
  checkFlowOwner _ _ := sampleRule
  flowUnpublishedPackaging _ _ := .ok false
  applyFlowFact state _ := .ok false state

/-- Two hosts `a` and `b` under keys 100 and 200, each pinned by the other. -/
def sampleContext (audience : String) (now : Instant) : Context where
  audience := audience
  storeKey := if audience = "a" then 100 else 200
  pins host := if host = "a" then some 100 else if host = "b" then some 200 else none
  now := now
  assessmentPins _ := none
  revokedAssessments := []
  referenceProfiles _ := []
  kinds := []
  protocolProfiles _ := none

/-- A command of the person 1 under key 1, signed at `at_` for four minutes. -/
def sampleCommand (audience : String) (at_ : Instant) (requestId : Uuid) (org : Option Uuid)
    (payload : Payload) : Command where
  audience := audience
  requestId := requestId
  issuedAt := at_
  expiresAt := at_ + 240000
  organizationId := org
  actor := ⟨.person, 1, 1⟩
  requestedBy := some 1
  payload := payload
  signatures := [⟨1, 0⟩]

def sampleSchema : Json :=
  .obj [("type", .str "object"), ("properties", .obj []), ("required", .arr []),
    ("additionalProperties", .bool false)]

def sampleRecord (id root : Uuid) (supersedes : Option Uuid) : RecordPayload :=
  ⟨id, root, supersedes, 1005, 21, 41, 704, [], .obj []⟩

/-- A person founds a company, publishes a profile and writes a record with a revision. -/
def sampleMutations : List (Option Uuid × Mutation) :=
  [(none, .personRegister [1]),
    (some 1005, .organizationCreate "acme" 5 [1] 1),
    (some 1005, .policyCreate
      ⟨21, 0, .business, [1], 1, [⟨1, [.read, .write], .all, 31536000000⟩]⟩),
    (some 1005, .profilePublish
      ⟨"note", "1.0.0", sampleSchema, .structural, [], .privateOnly, [], 704⟩),
    (some 1005, .recordAppend (sampleRecord 31 31 none)),
    (some 1005, .recordAppend (sampleRecord 32 31 (some 31)))]

def sampleCommands : List (Command × Context) :=
  sampleMutations.mapIdx fun i m =>
    (sampleCommand "a" 0 (i + 1) m.1 (.mutation m.2), sampleContext "a" 0)

/-- The state a run ends in, when every command of it is accepted. -/
def finalState (outcome : Attempt State) : State :=
  match outcome with
  | .ok s => s
  | .error _ => emptyState

theorem Reachable.finalState {commands : List (Command × Context)}
    (h : (DirectTrade.run emptyState commands).toBool = true) :
    Reachable (finalState (DirectTrade.run emptyState commands)) := by
  cases hrun : DirectTrade.run emptyState commands with
  | ok s => exact Reachable.empty.run hrun
  | error e => simp [hrun, Except.toBool] at h

/-- What one command leaves behind, when it is accepted. -/
def after (s : State) (entry : Command × Context) : State × Option Result :=
  Outcome.value (s, none) (execute s entry.1 entry.2)

theorem execute_after (s : State) (entry : Command × Context)
    (h : (execute s entry.1 entry.2).toBool = true) :
    execute s entry.1 entry.2 = .ok ((after s entry).1, (after s entry).2) :=
  Outcome.eq_value (s, none) h

end DirectTrade
