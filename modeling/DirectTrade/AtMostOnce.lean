import DirectTrade.Keeps

/-!
A signed command takes effect at most once. While it is within its window its receipt is
kept, so that a repeated acceptance replays; what the first acceptance left behind makes
the replay leave every table as it is.
-/

namespace DirectTrade

open Library

variable [Primitives] [Reducers]

/-- One accepted command of a run. -/
structure Entry where
  command : Command
  ctx : Context
  result : Option Result

/-- A run of accepted commands from the empty state, under a clock that never runs back. -/
inductive Trace : List Entry → State → Prop
  | nil : Trace [] emptyState
  | snoc {l : List Entry} {s s' : State} {c : Command} {ctx : Context}
      {result : Option Result} (before : Trace l s) (clock : ∀ e ∈ l, e.ctx.now ≤ ctx.now)
      (accepted : execute s c ctx = .ok (s', result)) : Trace (l ++ [⟨c, ctx, result⟩]) s'

theorem Trace.reachable {l : List Entry} {s : State} (h : Trace l s) : Reachable s := by
  induction h with
  | nil => exact .empty
  | snoc _ _ accepted ih => exact ih.step accepted

/-- Executes commands in order and keeps what each replied. -/
def runTrace (commands : List (Command × Context)) : Attempt (List Entry × State) :=
  commands.foldlM (fun acc entry => do
    let changed ← execute acc.2 entry.1 entry.2
    pure (acc.1 ++ [⟨entry.1, entry.2, changed.2⟩], changed.1)) ([], emptyState)

theorem Trace.of_run {commands : List (Command × Context)} {l : List Entry} {s : State}
    {now : Instant} (hnow : ∀ e ∈ commands, e.2.now = now)
    (h : runTrace commands = .ok (l, s)) : Trace l s ∧ ∀ e ∈ l, e.ctx.now = now := by
  refine Outcome.foldlM_invariant (fun acc => Trace acc.1 acc.2 ∧ ∀ e ∈ acc.1, e.ctx.now = now)
    _ commands ?_ ⟨.nil, by simp⟩ h
  rintro entry hentry ⟨l, s⟩ t ⟨htrace, hl⟩ hstep
  simp only [Outcome.bind_eq_ok, Outcome.pure_eq_ok] at hstep
  obtain ⟨⟨s', result⟩, hexecute, rfl⟩ := hstep
  have hentry := hnow entry hentry
  constructor
  · exact htrace.snoc (fun e he => by rw [hl e he, hentry]) hexecute
  · intro e he
    rcases List.mem_append.mp he with he | he
    · exact hl e he
    · rw [List.mem_singleton.mp he, hentry]

/-- The commands of a run, and the next one, have digests of their own. -/
def CollisionFree (c : Command) (l : List Entry) : Prop :=
  ∀ a ∈ c :: l.map Entry.command, ∀ b ∈ c :: l.map Entry.command,
    Primitives.digestCommand a = Primitives.digestCommand b → a = b

/-- The mutations that answer a replay from their receipt. -/
def Payload.recorded : Payload → Bool
  | .mutation m => !m.prepares
  | _ => false

theorem Accepted.receipts {s : State} {c : Command} {ctx : Context} {signed : List KeyId}
    {reply : Reply} (keyed : Keyed s) (h : Accepted s c ctx signed reply) :
    (reply.next c).receipts = s.receipts := by
  have hpush : ∀ t : State, (pushHistory t c).receipts = t.receipts := by
    intro t
    unfold pushHistory
    split <;> rfl
  have hset : ∀ o, ((callOf s c ctx signed).setOrg o).receipts = s.receipts := by
    intro o
    unfold Call.setOrg
    split <;> rfl
  cases h.effect with
  | found => exact (hpush _).trans (hset _)
  | company => exact (hpush _).trans (hset _)
  | append o p profile before t company validation payload appends assessed =>
    obtain rfl : s = t := (counterparties_eq keyed.remoteAuthorities appends.attested).symm
    cases company <;> rfl
  | duplicate o p profile before t company recordId recorded payload appends assessed known =>
    obtain rfl : s = t := (counterparties_eq keyed.remoteAuthorities appends.attested).symm
    rfl
  | _ => rfl

/-- A mutation that has a receipt answers from it; the replay of a stock opening makes sure
that the company's entry exists. -/
theorem Call.Effect.replays {k : Call} {reply : Reply} (h : k.Effect reply)
    (hrecorded : k.c.payload.recorded = true) {r : Receipt} (hprevious : k.previous = some r) :
    reply.result = r.result ∧ reply.history = false ∧ (reply.state = k.s ∨
      ∃ o m, k.c.payload = .mutation m ∧ m.opens = true ∧ k.Inside o ∧
        reply.state = k.s.setInventory o.id (stockBase k.s o.id m)) := by
  cases h with
  | replay m receipt payload recorded previous =>
    obtain rfl := Option.some.inj (hprevious.symm.trans previous)
    exact ⟨rfl, rfl, .inl rfl⟩
  | replayStock o m receipt payload opens inside previous =>
    obtain rfl := Option.some.inj (hprevious.symm.trans previous)
    exact ⟨rfl, rfl, .inr ⟨o, m, payload, opens, inside, rfl⟩⟩
  | read result reads =>
    have hobserves := reads.action
    generalize k.c.payload = payload at hobserves hrecorded
    cases payload <;>
      simp [Payload.recorded, Payload.observes, Payload.isRead] at hobserves hrecorded
  -- a first acceptance has no receipt to replay
  | register keys payload enrolls => simp [enrolls.fresh] at hprevious
  | rotate add revoke person payload rotates => simp [rotates.fresh] at hprevious
  | found orgId name nonce controllers threshold payload founds =>
    simp [founds.fresh] at hprevious
  | company o o' m result payload fresh inside change => simp [fresh] at hprevious
  | revise o create p payload revises => simp [revises.fresh] at hprevious
  | publish o p payload publishes => simp [publishes.fresh] at hprevious
  | admitContract o digest contract payload admits absent => simp [admits.fresh] at hprevious
  | contractAdmitted o digest contract profile payload admits known =>
    simp [admits.fresh] at hprevious
  | release o p payload releases => simp [releases.fresh] at hprevious
  | append o p profile before t company validation payload appends assessed =>
    simp [appends.fresh] at hprevious
  | duplicate o p profile before t company recordId recorded payload appends assessed known =>
    simp [appends.fresh] at hprevious
  | stock o m company result payload fresh inside change => simp [fresh] at hprevious
  | attest token hop b payload attests =>
    rcases payload with payload | ⟨commit, payload⟩ <;>
      simp [payload, Payload.recorded] at hrecorded
  | prepareAgain o destination snapshot org prior payload prepares known same =>
    simp [payload, Payload.recorded, Mutation.prepares] at hrecorded
  | prepare o destination snapshot org payload prepares absent =>
    simp [payload, Payload.recorded, Mutation.prepares] at hrecorded
  | commitAgain migrationId ready out o token payload owns known =>
    simp [payload, Payload.recorded] at hrecorded
  | commit o migrationId ready snapshot out org body payload commits =>
    simp [payload, Payload.recorded] at hrecorded
  | cancelAgain migrationId out o token payload owns known =>
    simp [payload, Payload.recorded] at hrecorded
  | cancel migrationId out o payload owns uncommitted uncancelled =>
    simp [payload, Payload.recorded] at hrecorded
  | stageAgain token body old payload manifests known live =>
    simp [payload, Payload.recorded] at hrecorded
  | stage token body payload manifests absent company unreserved =>
    simp [payload, Payload.recorded] at hrecorded
  | upload migrationId index data stage payload stages pending known =>
    simp [payload, Payload.recorded] at hrecorded
  | readyAgain migrationId stage token payload stages pending known =>
    simp [payload, Payload.recorded] at hrecorded
  | ready migrationId stage snapshot payload stages pending unready lifetime assembled absent
      valid =>
    simp [payload, Payload.recorded] at hrecorded
  | finalizeAgain migrationId token stage ready body payload stages binds activated =>
    simp [payload, Payload.recorded] at hrecorded
  | finalize migrationId token stage ready body snapshot payload stages binds inactive held
      absent digest valid activates =>
    simp [payload, Payload.recorded] at hrecorded
  | abort migrationId token stage body payload stages inactive verified source matching =>
    simp [payload, Payload.recorded] at hrecorded

/-- What a run remembers of a command that is still within its window. -/
def Remembers (l : List Entry) (s : State) : Prop :=
  ∀ e ∈ l, (∀ f ∈ l, f.ctx.now < e.command.expiresAt) →
    ∃ r, s.receipts.get? e.command.requestId = some r ∧
      r.hash = Primitives.digestCommand e.command ∧ r.expiresAt = e.command.expiresAt ∧
      (e.command.payload.recorded = true → r.result = e.result)

omit [Primitives] [Reducers] in
theorem not_read_of_recorded {p : Payload} (h : p.recorded = true) : p.isRead = false := by
  cases p <;> simp_all [Payload.recorded, Payload.isRead]

theorem Remembers.snoc {l : List Entry} {s : State} {c : Command} {ctx : Context}
    {signed : List KeyId} {reply : Reply} (h : Remembers l s) (keyed : Keyed s)
    (free : CollisionFree c l)
    (accepted : Accepted s c ctx signed reply) :
    Remembers (l ++ [⟨c, ctx, reply.result⟩])
      (recordReceipt (reply.next c) c ctx.now reply.result) := by
  have hself : ∃ r, (recordReceipt (reply.next c) c ctx.now reply.result).receipts.get?
      c.requestId = some r ∧ r.hash = Primitives.digestCommand c ∧ r.expiresAt = c.expiresAt ∧
      (c.payload.recorded = true → r.result = reply.result) := by
    refine ⟨_, Dict.get?_set_self _ _ _, rfl, rfl, fun hrecorded => ?_⟩
    simp [not_read_of_recorded hrecorded]
  intro e he hwindow
  rcases List.mem_append.mp he with he | he
  · obtain ⟨r, hr, hhash, hexpires, hresult⟩ :=
      h e he fun f hf => hwindow f (List.mem_append_left _ hf)
    have hnow : ctx.now < e.command.expiresAt :=
      hwindow ⟨c, ctx, reply.result⟩ (by simp)
    by_cases hid : e.command.requestId = c.requestId
    · have hsame : e.command = c := by
        refine (free c (by simp) e.command ?_ ?_).symm
        · exact List.mem_cons_of_mem _ (List.mem_map_of_mem he)
        · rw [← hhash, accepted.matching r (hid ▸ hr)]
      obtain ⟨r', hr', hhash', hexpires', hresult'⟩ := hself
      refine ⟨r', hsame ▸ hr', hsame ▸ hhash', hsame ▸ hexpires', fun hrecorded => ?_⟩
      rw [hresult' (hsame ▸ hrecorded), ← hresult hrecorded]
      have hprevious : (callOf s c ctx signed).previous = some r := by
        rw [hid] at hr
        exact hr
      exact (accepted.effect.replays (hsame ▸ hrecorded) hprevious).1
    · refine ⟨r, ?_, hhash, hexpires, hresult⟩
      simp only [recordReceipt, Dict.get?_set, if_neg hid, Dict.get?_filter,
        accepted.receipts keyed, hr]
      simpa [Option.filter, hexpires] using hnow
  · obtain rfl := List.mem_singleton.mp he
    exact hself

omit [Reducers] in
theorem CollisionFree.of_append {c d : Command} {l r : List Entry}
    (h : CollisionFree c (l ++ r)) (hd : d ∈ r.map Entry.command) : CollisionFree d l := by
  intro a ha b hb
  have hsub : ∀ x ∈ d :: l.map Entry.command, x ∈ c :: (l ++ r).map Entry.command := by
    intro x hx
    rw [List.map_append]
    rcases List.mem_cons.mp hx with rfl | hx
    · exact List.mem_cons_of_mem _ (List.mem_append_right _ hd)
    · exact List.mem_cons_of_mem _ (List.mem_append_left _ hx)
  exact h a (hsub a ha) b (hsub b hb)

theorem Trace.remembers {l : List Entry} {s : State} (h : Trace l s) {c : Command}
    (free : CollisionFree c l) : Remembers l s := by
  induction h generalizing c with
  | nil => simp [Remembers]
  | snoc before clock accepted ih =>
    obtain ⟨signed, reply, haccepted, rfl, rfl⟩ := execute_eq_ok accepted
    have hfree := free.of_append (d := _) (List.mem_singleton.mpr rfl)
    exact (ih hfree).snoc before.reachable.keyed hfree haccepted

/-- The stock entry of a company has the members that a stock action starts from. -/
def Mutation.ready (m : Mutation) (company : Inventory) : Prop :=
  match m with
  | .inventoryCreate _ _ _ _ => True
  | .inventoryOpen _ _ => company.index.isSome = true
  | _ => company.flow.isSome = true

omit [Primitives] [Reducers] in
theorem Mutation.ready.later {m : Mutation} {a b : Inventory} (h : m.ready a)
    (hab : a.Continues b) : m.ready b := by
  unfold Mutation.ready at h ⊢
  split at h
  · trivial
  · exact hab.index h
  · exact hab.flow h

omit [Primitives] [Reducers] in
theorem Inventory.withLedgers_of_index {a : Inventory} (h : a.index.isSome = true) :
    a.withLedgers = a := by
  obtain ⟨index, hindex⟩ := Option.isSome_iff_exists.mp h
  cases a
  simp only at hindex
  simp [Inventory.withLedgers, Inventory.setIndex, Inventory.ledgerIndex, hindex]

omit [Primitives] [Reducers] in
theorem Inventory.withBooks_of_flow {a : Inventory} (h : a.flow.isSome = true) :
    a.withBooks = a := by
  obtain ⟨flow, hflow⟩ := Option.isSome_iff_exists.mp h
  obtain ⟨index, hindex, hbooks⟩ := Option.bind_eq_some_iff.mp hflow
  cases a
  cases index
  simp only at hindex hbooks
  simp [Inventory.withBooks, Inventory.setFlow, Inventory.setIndex, Inventory.ledgerIndex,
    Inventory.flowIndex, Inventory.flow, hindex, hbooks]

omit [Primitives] [Reducers] in
theorem stockBase_of_ready {s : State} {org : Uuid} {m : Mutation} {a : Inventory}
    (ha : s.inventory.get? org = some a) (h : m.ready a) : Call.stockBase s org m = a := by
  have hcompany : companyInventory s org = a := by simp [companyInventory, ha]
  cases m with
  | inventoryCreate _ _ _ _ => exact hcompany
  | inventoryOpen _ _ =>
    show inventoryState s org = a
    rw [inventoryState, hcompany, Inventory.withLedgers_of_index h]
  | _ =>
    show flowState s org = a
    rw [flowState, hcompany, Inventory.withBooks_of_flow h]

omit [Primitives] [Reducers] in
theorem ready_stockBase (s : State) (org : Uuid) (m : Mutation) :
    m.ready (Call.stockBase s org m) := by
  cases m with
  | inventoryCreate _ _ _ _ => trivial
  | inventoryOpen _ _ => rfl
  | _ => rfl

/-- What stays after an acceptance and makes every later one a replay. -/
def Settled (s : State) (c : Command) (result : Option Result) : Prop :=
  match c.payload with
  | .mutation m =>
    (m.prepares = true → ∃ out, s.outgoing.get? c.requestId = some out ∧
      result = some (.token (out.manifestToken.map .manifest))) ∧
    (m.opens = true → ∀ org, c.organizationId = some org →
      (s.organizations.get? org).isSome = true ∧
        ∃ a, s.inventory.get? org = some a ∧ m.ready a)
  | .migrationCommit id _ => ∃ out token, s.outgoing.get? id = some out ∧
      out.commitToken = some token ∧ result = some (.token (token.map .commit))
  | .migrationCancel id => ∃ out token, s.outgoing.get? id = some out ∧
      out.cancelToken = some token ∧ result = some (.token (token.map .cancel))
  | .migrationStage token => ∀ body, token.body.manifest? = some body →
      ∃ stage, s.incoming.get? body.manifest.migrationId = some stage
  | .migrationUpload id index data => ∃ stage, s.incoming.get? id = some stage ∧
      (stage.pending = true → stage.chunks[index]? = some data)
  | .migrationReady id => ∃ stage, s.incoming.get? id = some stage ∧
      (stage.pending = true → ∃ token, stage.readyToken = some token ∧
        result = some (.token (token.map .ready)))
  | .migrationFinalize id _ => ∃ stage, s.incoming.get? id = some stage ∧
      stage.activated = true ∧ result = some (.finalized stage.manifest.organizationId
        (stage.manifest.generation + 1))
  | .migrationAbort id _ => ∃ stage, s.incoming.get? id = some stage ∧
      stage.stopped = stage ∧ result = some (.aborted id)
  | .authorityImport token | .authorityRelocate token _ => ∃ b stored,
      token.body.authority? = some b ∧ s.remoteAuthorities.get? b.organizationId = some stored ∧
      RemoteAuthority.Continues ⟨⟨b, token.keyId, token.signature⟩⟩ stored ∧
      result = some (.authority b.organizationId b.generation b.host b.expiresAt)
  | _ => True

omit [Reducers] in
theorem Settled.later {s t : State} {c : Command} {result : Option Result}
    (h : Settled s c result) (keeps : Keeps s t) : Settled t c result := by
  unfold Settled at h ⊢
  split at h
  case h_1 m _ =>
    refine ⟨fun hm => ?_, fun hm org hc => ?_⟩
    · obtain ⟨out, hout, hresult⟩ := h.1 hm
      obtain ⟨out', hout', hcont⟩ := keeps.outgoing _ out hout
      exact ⟨out', hout', by rw [hcont.manifestToken, hresult]⟩
    · obtain ⟨horg, a, ha, hready⟩ := h.2 hm org hc
      obtain ⟨b, hb, hab⟩ := keeps.inventory org a horg ha
      obtain ⟨o, ho⟩ := Option.isSome_iff_exists.mp horg
      obtain ⟨o', ho', -⟩ := keeps.organizations org o ho
      exact ⟨by simp [ho'], b, hb, hready.later hab⟩
  case h_2 =>
    obtain ⟨out, token, hout, htoken, hresult⟩ := h
    obtain ⟨out', hout', hcont⟩ := keeps.outgoing _ out hout
    exact ⟨out', token, hout', hcont.commit token htoken, hresult⟩
  case h_3 =>
    obtain ⟨out, token, hout, htoken, hresult⟩ := h
    obtain ⟨out', hout', hcont⟩ := keeps.outgoing _ out hout
    exact ⟨out', token, hout', hcont.cancel token htoken, hresult⟩
  case h_4 =>
    intro body hbody
    obtain ⟨stage, hstage⟩ := h body hbody
    obtain ⟨stage', hstage', -⟩ := keeps.incoming _ stage hstage
    exact ⟨stage', hstage'⟩
  case h_5 =>
    obtain ⟨stage, hstage, hchunk⟩ := h
    obtain ⟨stage', hstage', hcont⟩ := keeps.incoming _ stage hstage
    exact ⟨stage', hstage', fun hp => hcont.chunks hp _ _ (hchunk (hcont.pending hp))⟩
  case h_6 =>
    obtain ⟨stage, hstage, hready⟩ := h
    obtain ⟨stage', hstage', hcont⟩ := keeps.incoming _ stage hstage
    refine ⟨stage', hstage', fun hp => ?_⟩
    obtain ⟨token, htoken, hresult⟩ := hready (hcont.pending hp)
    exact ⟨token, (hcont.ready hp token htoken).1, hresult⟩
  case h_7 =>
    obtain ⟨stage, hstage, hactivated, hresult⟩ := h
    obtain ⟨stage', hstage', hcont⟩ := keeps.incoming _ stage hstage
    obtain rfl := hcont.activated hactivated
    exact ⟨stage', hstage', hactivated, hresult⟩
  case h_8 =>
    obtain ⟨stage, hstage, hstopped, hresult⟩ := h
    obtain ⟨stage', hstage', hcont⟩ := keeps.incoming _ stage hstage
    obtain rfl := hcont.aborted hstopped
    exact ⟨stage', hstage', hstopped, hresult⟩
  case h_9 | h_10 =>
    obtain ⟨b, stored, hb, hstored, hcont, hresult⟩ := h
    obtain ⟨stored', hstored', hlater⟩ := keeps.remoteAuthorities _ stored hstored
    exact ⟨b, stored', hb, hstored', hcont.trans hlater, hresult⟩
  case h_11 => trivial

omit [Reducers] in
theorem settled_plain {s : State} {c : Command} {m : Mutation} {result : Option Result}
    (payload : c.payload = .mutation m) (hm : m.opens = false ∧ m.prepares = false) :
    Settled s c result := by
  simp [Settled, payload, hm]

theorem Accepted.settled {s : State} {c : Command} {ctx : Context} {signed : List KeyId}
    {reply : Reply} (keyed : Keyed s) (h : Accepted s c ctx signed reply) :
    Settled (reply.next c) c reply.result := by
  -- the company of a stock action is present, under the name that the command gives
  have hcompany : ∀ {o : Organization} {org : Uuid}, (callOf s c ctx signed).Inside o →
      c.organizationId = some org → o.id = org ∧ (s.organizations.get? org).isSome = true := by
    intro o org inside horg
    have hget : c.organizationId.bind s.organizations.get? = some o := inside.org
    rw [horg] at hget
    exact ⟨keyed.organizations org o hget, Option.isSome_iff_exists.mpr ⟨o, hget⟩⟩
  cases h.effect with
  | replay m receipt payload recorded previous =>
    exact settled_plain payload recorded
  | read result reads =>
    have hobserves : c.payload.observes = true := reads.action
    unfold Settled
    split <;> simp_all [Payload.observes, Payload.isRead]
  | register keys payload enrolls => exact settled_plain payload ⟨rfl, rfl⟩
  | rotate add revoke person payload rotates => exact settled_plain payload ⟨rfl, rfl⟩
  | found orgId name nonce controllers threshold payload founds =>
    exact settled_plain payload ⟨rfl, rfl⟩
  | company o o' m result payload fresh inside change =>
    exact settled_plain payload (by cases change <;> exact ⟨rfl, rfl⟩)
  | revise o create p payload revises =>
    exact settled_plain payload (by cases create <;> exact ⟨rfl, rfl⟩)
  | publish o p payload publishes => exact settled_plain payload ⟨rfl, rfl⟩
  | admitContract o digest contract payload admits absent => exact settled_plain payload ⟨rfl, rfl⟩
  | contractAdmitted o digest contract profile payload admits known =>
    exact settled_plain payload ⟨rfl, rfl⟩
  | release o p payload releases => exact settled_plain payload ⟨rfl, rfl⟩
  | append o p profile before t company validation payload appends assessed =>
    exact settled_plain payload ⟨rfl, rfl⟩
  | duplicate o p profile before t company recordId recorded payload appends assessed known =>
    exact settled_plain payload ⟨rfl, rfl⟩
  | replayStock o m receipt payload opens inside previous =>
    have hpayload : c.payload = .mutation m := payload
    simp only [Settled, hpayload]
    refine ⟨fun hm => ?_, fun _ org horg => ?_⟩
    · cases m <;> simp_all [Mutation.opens, Mutation.prepares]
    · obtain ⟨rfl, hsome⟩ := hcompany inside horg
      exact ⟨hsome, _, Dict.get?_set_self _ _ _, ready_stockBase _ _ _⟩
  | stock o m company result payload fresh inside change =>
    have hpayload : c.payload = .mutation m := payload
    simp only [Settled, hpayload]
    refine ⟨fun hm => ?_, fun _ org horg => ?_⟩
    · cases change <;> simp [Mutation.prepares] at hm
    · obtain ⟨rfl, hsome⟩ := hcompany inside horg
      refine ⟨hsome, company, Dict.get?_set_self _ _ _, ?_⟩
      cases change <;> trivial
  | attest token hop b payload attests =>
    have hb := verifyToken_select attests.verified
    have hstored := Dict.get?_set_self s.remoteAuthorities b.organizationId
      ⟨⟨b, token.keyId, token.signature⟩⟩
    rcases payload with payload | ⟨commit, payload⟩
    · have hpayload : c.payload = .authorityImport token := payload
      simp only [Settled, hpayload]
      exact ⟨b, _, hb, hstored, .refl _, rfl⟩
    · have hpayload : c.payload = .authorityRelocate token commit := payload
      simp only [Settled, hpayload]
      exact ⟨b, _, hb, hstored, .refl _, rfl⟩
  | prepareAgain o destination snapshot org prior payload prepares known same =>
    have hpayload : c.payload = .mutation (.migrationPrepare destination) := payload
    simp only [Settled, hpayload]
    exact ⟨fun _ => ⟨prior, known, rfl⟩, by simp [Mutation.opens]⟩
  | prepare o destination snapshot org payload prepares absent =>
    have hpayload : c.payload = .mutation (.migrationPrepare destination) := payload
    simp only [Settled, hpayload]
    exact ⟨fun _ => ⟨_, Dict.get?_set_self _ _ _, rfl⟩, by simp [Mutation.opens]⟩
  | commitAgain migrationId ready out o token payload owns known =>
    have hpayload : c.payload = .migrationCommit migrationId ready := payload
    simp only [Settled, hpayload]
    exact ⟨out, token, owns.found, known, rfl⟩
  | commit o migrationId ready snapshot out org body payload commits =>
    have hpayload : c.payload = .migrationCommit migrationId ready := payload
    simp only [Settled, hpayload]
    exact ⟨_, _, Dict.get?_set_self _ _ _, rfl, rfl⟩
  | cancelAgain migrationId out o token payload owns known =>
    have hpayload : c.payload = .migrationCancel migrationId := payload
    simp only [Settled, hpayload]
    exact ⟨out, token, owns.found, known, rfl⟩
  | cancel migrationId out o payload owns uncommitted uncancelled =>
    have hpayload : c.payload = .migrationCancel migrationId := payload
    simp only [Settled, hpayload]
    exact ⟨_, _, Dict.get?_set_self _ _ _, rfl, rfl⟩
  | stageAgain token body old payload manifests known live =>
    have hpayload : c.payload = .migrationStage token := payload
    simp only [Settled, hpayload]
    intro b hb
    obtain rfl := Option.some.inj ((verifyToken_select manifests.verified).symm.trans hb)
    exact ⟨old, known⟩
  | stage token body payload manifests absent company unreserved =>
    have hpayload : c.payload = .migrationStage token := payload
    simp only [Settled, hpayload]
    intro b hb
    obtain rfl := Option.some.inj ((verifyToken_select manifests.verified).symm.trans hb)
    exact ⟨_, Dict.get?_set_self _ _ _⟩
  | upload migrationId index data stage payload stages pending known =>
    have hpayload : c.payload = .migrationUpload migrationId index data := payload
    simp only [Settled, hpayload]
    exact ⟨_, Dict.get?_set_self _ _ _, fun _ => by simp⟩
  | readyAgain migrationId stage token payload stages pending known =>
    have hpayload : c.payload = .migrationReady migrationId := payload
    simp only [Settled, hpayload]
    exact ⟨stage, stages.found, fun _ => ⟨token, known, rfl⟩⟩
  | ready migrationId stage snapshot payload stages pending unready lifetime assembled absent
      valid =>
    have hpayload : c.payload = .migrationReady migrationId := payload
    simp only [Settled, hpayload]
    exact ⟨_, Dict.get?_set_self _ _ _, fun _ => ⟨_, rfl, rfl⟩⟩
  | finalizeAgain migrationId token stage ready body payload stages binds activated =>
    have hpayload : c.payload = .migrationFinalize migrationId token := payload
    simp only [Settled, hpayload]
    exact ⟨stage, stages.found, activated, rfl⟩
  | finalize migrationId token stage ready body snapshot payload stages binds inactive held
      absent digest valid activates =>
    have hpayload : c.payload = .migrationFinalize migrationId token := payload
    simp only [Settled, hpayload]
    exact ⟨_, Dict.get?_set_self _ _ _, rfl, rfl⟩
  | abort migrationId token stage body payload stages inactive verified source matching =>
    have hpayload : c.payload = .migrationAbort migrationId token := payload
    simp only [Settled, hpayload]
    exact ⟨_, Dict.get?_set_self _ _ _, rfl, rfl⟩

theorem Trace.settled {l : List Entry} {s : State} (h : Trace l s) :
    ∀ e ∈ l, Settled s e.command e.result := by
  induction h with
  | nil => simp
  | snoc before clock accepted ih =>
    obtain ⟨signed, reply, haccepted, rfl, rfl⟩ := execute_eq_ok accepted
    have hkeyed := before.reachable.keyed
    intro e he
    rcases List.mem_append.mp he with he | he
    · exact ((ih e he).later (haccepted.keeps hkeyed)).later (Keeps.recordReceipt _ _ _ _)
    · obtain rfl := List.mem_singleton.mp he
      exact (haccepted.settled hkeyed).later (Keeps.recordReceipt _ _ _ _)

/-- Every table stays, receipts apart. A repeated import of an attestation may put its
signature in place of another one for the same attestation. -/
inductive Repeats (c : Command) (s t : State) : Prop
  | same (tables : t = { s with receipts := t.receipts })
  | rewrites (token : SignedToken) (id : Uuid) (old new : RemoteAuthority)
      (payload : c.payload = .authorityImport token ∨
        ∃ commit, c.payload = .authorityRelocate token commit)
      (known : s.remoteAuthorities.get? id = some old)
      (same : SameAttestation old.token new.token)
      (tables : t = { s with
        receipts := t.receipts, remoteAuthorities := s.remoteAuthorities.set id new })

/-- The response of a later acceptance: the first one again, but for the progress of a
stage, which is the current one. -/
def Answers (s : State) (c : Command) (first again : Option Result) : Prop :=
  match c.payload with
  | .migrationStage token => ∃ body stage, token.body.manifest? = some body ∧
      s.incoming.get? body.manifest.migrationId = some stage ∧
      again = some (.staged body.manifest.migrationId stage.chunks.size stage.activated)
  | .migrationUpload id index _ => ∃ stage, s.incoming.get? id = some stage ∧
      again = some (.uploaded id index stage.chunks.size)
  | p => p.observes = false → again = first

omit [Primitives] [Reducers] in
theorem answers_plain {s : State} {c : Command} {first again : Option Result}
    (hstage : ∀ token, c.payload ≠ .migrationStage token)
    (hupload : ∀ id index data, c.payload ≠ .migrationUpload id index data)
    (h : c.payload.observes = false → again = first) : Answers s c first again := by
  unfold Answers
  split
  · rename_i token hpayload
    exact absurd hpayload (hstage token)
  · rename_i id index data hpayload
    exact absurd hpayload (hupload id index data)
  · exact h

omit [Reducers] in
/-- A company's stock entry that is settled is what a replayed opening writes. -/
theorem Settled.stock {s : State} {c : Command} {ctx : Context} {signed : List KeyId}
    {result : Option Result} {o : Organization} {m : Mutation} (keyed : Keyed s)
    (settled : Settled s c result) (payload : c.payload = .mutation m) (opens : m.opens = true)
    (inside : (callOf s c ctx signed).Inside o) :
    s.setInventory o.id (Call.stockBase s o.id m) = s := by
  obtain ⟨org, horg, hget⟩ := Option.bind_eq_some_iff.mp inside.org
  obtain rfl := keyed.organizations org o hget
  simp only [Settled, payload] at settled
  obtain ⟨-, a, ha, hready⟩ := settled.2 opens _ horg
  rw [stockBase_of_ready ha hready, State.setInventory, Dict.set_eq_self ha]

omit [Reducers] in
theorem RemoteAuthority.Continues.antisymm {a b : RemoteAuthority} (h : a.Continues b)
    (h' : b.Continues a) : SameAttestation a.token b.token := by
  cases h with
  | same h => exact h
  | generation hab =>
    cases h' with
    | generation hba => omega
    | observed generation issuer keyId issuedAt => omega
    | same h' => have := h'.generation; omega
  | observed generation issuer keyId issuedAt =>
    cases h' with
    | generation hba => omega
    | observed generation' issuer' keyId' issuedAt' => exact absurd issuedAt' issuedAt.asymm
    | same h' => exact absurd h'.issuedAt issuedAt.ne

omit [Primitives] [Reducers] in
theorem chunks_insert_self {chunks : Table ℕ String} {index : ℕ} {data : String}
    (h : chunks[index]? = some data) : chunks.insert index data = chunks := by
  refine Std.ExtTreeMap.ext_getElem? fun i => ?_
  rw [Std.ExtTreeMap.getElem?_insert]
  split
  · rename_i heq
    obtain rfl := Nat.compare_eq_eq.mp heq
    exact h.symm
  · rfl

/-- A settled command that answers from the tables, not from its receipt, finds there what
it left. -/
theorem Accepted.revisits {s : State} {c : Command} {ctx : Context} {signed : List KeyId}
    {reply : Reply} {first : Option Result} (h : Accepted s c ctx signed reply)
    (settled : Settled s c first) (unrecorded : c.payload.recorded = false) :
    Repeats c s (reply.next c) ∧ Answers s c first reply.result := by
  have hmutation : ∀ m, c.payload = .mutation m → m.prepares = true := by
    intro m hm
    simpa [hm, Payload.recorded] using unrecorded
  cases h.effect with
  | replay m receipt payload recorded previous =>
    have := hmutation m payload
    simp [recorded.2] at this
  | read result reads =>
    have hobserves : c.payload.observes = true := reads.action
    refine ⟨.same rfl, answers_plain ?_ ?_ fun h => by simp [hobserves] at h⟩
    · rintro token heq
      simp [heq, Payload.observes, Payload.isRead] at hobserves
    · rintro id index data heq
      simp [heq, Payload.observes, Payload.isRead] at hobserves
  | register keys payload enrolls => exact nomatch hmutation _ payload
  | rotate add revoke person payload rotates => exact nomatch hmutation _ payload
  | found orgId name nonce controllers threshold payload founds =>
    exact nomatch hmutation _ payload
  | company o o' m result payload fresh inside change =>
    have := hmutation _ payload
    cases change <;> simp [Mutation.prepares] at this
  | revise o create p payload revises =>
    have := hmutation _ payload
    cases create <;> simp [Mutation.prepares] at this
  | publish o p payload publishes => exact nomatch hmutation _ payload
  | admitContract o digest contract payload admits absent => exact nomatch hmutation _ payload
  | contractAdmitted o digest contract profile payload admits known =>
    exact nomatch hmutation _ payload
  | release o p payload releases => exact nomatch hmutation _ payload
  | append o p profile before t company validation payload appends assessed =>
    exact nomatch hmutation _ payload
  | duplicate o p profile before t company recordId recorded payload appends assessed known =>
    exact nomatch hmutation _ payload
  | replayStock o m receipt payload opens inside previous =>
    have := hmutation _ payload
    cases m <;> simp_all [Mutation.opens, Mutation.prepares]
  | stock o m company result payload fresh inside change =>
    have := hmutation _ payload
    cases change <;> simp [Mutation.prepares] at this
  | attest token hop b payload attests =>
    have hsettled : ∃ b' stored, token.body.authority? = some b' ∧
        s.remoteAuthorities.get? b'.organizationId = some stored ∧
        RemoteAuthority.Continues ⟨⟨b', token.keyId, token.signature⟩⟩ stored ∧
        first = some (.authority b'.organizationId b'.generation b'.host b'.expiresAt) := by
      rcases payload with payload | ⟨commit, payload⟩
      · have hpayload : c.payload = .authorityImport token := payload
        simpa only [Settled, hpayload] using settled
      · have hpayload : c.payload = .authorityRelocate token commit := payload
        simpa only [Settled, hpayload] using settled
    obtain ⟨b', stored, hb, hstored, hcontinues, rfl⟩ := hsettled
    obtain rfl := Option.some.inj ((verifyToken_select attests.verified).symm.trans hb)
    refine ⟨.rewrites token b.organizationId stored _ payload hstored
      ((attests.advances stored hstored).antisymm hcontinues) rfl, ?_⟩
    refine answers_plain ?_ ?_ fun _ => rfl
    all_goals
      rcases payload with payload | ⟨commit, payload⟩ <;>
      · have hpayload : c.payload = _ := payload
        simp [hpayload]
  | prepareAgain o destination snapshot org prior payload prepares known same =>
    have hpayload : c.payload = .mutation (.migrationPrepare destination) := payload
    simp only [Settled, hpayload] at settled
    obtain ⟨out, hout, hfirst⟩ := settled.1 rfl
    obtain rfl := Option.some.inj (hout.symm.trans known)
    exact ⟨.same rfl, answers_plain (by simp [hpayload]) (by simp [hpayload]) fun _ =>
      hfirst.symm⟩
  | prepare o destination snapshot org payload prepares absent =>
    have hpayload : c.payload = .mutation (.migrationPrepare destination) := payload
    simp only [Settled, hpayload] at settled
    obtain ⟨out, hout, -⟩ := settled.1 rfl
    exact absurd (hout.symm.trans absent) (by simp)
  | commitAgain migrationId ready out o token payload owns known =>
    have hpayload : c.payload = .migrationCommit migrationId ready := payload
    simp only [Settled, hpayload] at settled
    obtain ⟨out', token', hout, htoken, hfirst⟩ := settled
    obtain rfl := Option.some.inj (hout.symm.trans owns.found)
    obtain rfl := Option.some.inj (htoken.symm.trans known)
    exact ⟨.same rfl, answers_plain (by simp [hpayload]) (by simp [hpayload]) fun _ =>
      hfirst.symm⟩
  | commit o migrationId ready snapshot out org body payload commits =>
    have hpayload : c.payload = .migrationCommit migrationId ready := payload
    simp only [Settled, hpayload] at settled
    obtain ⟨out', token', hout, htoken, -⟩ := settled
    obtain rfl := Option.some.inj (hout.symm.trans commits.found)
    exact absurd (htoken.symm.trans commits.uncommitted) (by simp)
  | cancelAgain migrationId out o token payload owns known =>
    have hpayload : c.payload = .migrationCancel migrationId := payload
    simp only [Settled, hpayload] at settled
    obtain ⟨out', token', hout, htoken, hfirst⟩ := settled
    obtain rfl := Option.some.inj (hout.symm.trans owns.found)
    obtain rfl := Option.some.inj (htoken.symm.trans known)
    exact ⟨.same rfl, answers_plain (by simp [hpayload]) (by simp [hpayload]) fun _ =>
      hfirst.symm⟩
  | cancel migrationId out o payload owns uncommitted uncancelled =>
    have hpayload : c.payload = .migrationCancel migrationId := payload
    simp only [Settled, hpayload] at settled
    obtain ⟨out', token', hout, htoken, -⟩ := settled
    obtain rfl := Option.some.inj (hout.symm.trans owns.found)
    exact absurd (htoken.symm.trans uncancelled) (by simp)
  | stageAgain token body old payload manifests known live =>
    have hpayload : c.payload = .migrationStage token := payload
    refine ⟨.same rfl, ?_⟩
    simp only [Answers, hpayload]
    exact ⟨body, old, verifyToken_select manifests.verified, known, rfl⟩
  | stage token body payload manifests absent company unreserved =>
    have hpayload : c.payload = .migrationStage token := payload
    simp only [Settled, hpayload] at settled
    obtain ⟨stage, hstage⟩ := settled body (verifyToken_select manifests.verified)
    exact absurd (hstage.symm.trans absent) (by simp)
  | upload migrationId index data stage payload stages pending known =>
    have hpayload : c.payload = .migrationUpload migrationId index data := payload
    simp only [Settled, hpayload] at settled
    obtain ⟨stage', hstage, hchunk⟩ := settled
    obtain rfl := Option.some.inj (hstage.symm.trans stages.found)
    have hchunks := chunks_insert_self (hchunk pending)
    refine ⟨.same ?_, ?_⟩
    · simp only [Reply.next, Reply.write, hchunks]
      exact congrArg (fun table => { s with incoming := table }) (Dict.set_eq_self hstage)
    · simp only [Answers, hpayload]
      exact ⟨stage', hstage, by simp only [Reply.write, hchunks]⟩
  | readyAgain migrationId stage token payload stages pending known =>
    have hpayload : c.payload = .migrationReady migrationId := payload
    simp only [Settled, hpayload] at settled
    obtain ⟨stage', hstage, hready⟩ := settled
    obtain rfl := Option.some.inj (hstage.symm.trans stages.found)
    obtain ⟨token', htoken, hfirst⟩ := hready pending
    obtain rfl := Option.some.inj (htoken.symm.trans known)
    exact ⟨.same rfl, answers_plain (by simp [hpayload]) (by simp [hpayload]) fun _ =>
      hfirst.symm⟩
  | ready migrationId stage snapshot payload stages pending unready lifetime assembled absent
      valid =>
    have hpayload : c.payload = .migrationReady migrationId := payload
    simp only [Settled, hpayload] at settled
    obtain ⟨stage', hstage, hready⟩ := settled
    obtain rfl := Option.some.inj (hstage.symm.trans stages.found)
    obtain ⟨token', htoken, -⟩ := hready pending
    exact absurd (htoken.symm.trans unready) (by simp)
  | finalizeAgain migrationId token stage ready body payload stages binds activated =>
    have hpayload : c.payload = .migrationFinalize migrationId token := payload
    simp only [Settled, hpayload] at settled
    obtain ⟨stage', hstage, -, hfirst⟩ := settled
    obtain rfl := Option.some.inj (hstage.symm.trans stages.found)
    exact ⟨.same rfl, answers_plain (by simp [hpayload]) (by simp [hpayload]) fun _ =>
      hfirst.symm⟩
  | finalize migrationId token stage ready body snapshot payload stages binds inactive held
      absent digest valid activates =>
    have hpayload : c.payload = .migrationFinalize migrationId token := payload
    simp only [Settled, hpayload] at settled
    obtain ⟨stage', hstage, hactivated, -⟩ := settled
    obtain rfl := Option.some.inj (hstage.symm.trans stages.found)
    exact absurd (hactivated.symm.trans inactive) (by simp)
  | abort migrationId token stage body payload stages inactive verified source matching =>
    have hpayload : c.payload = .migrationAbort migrationId token := payload
    simp only [Settled, hpayload] at settled
    obtain ⟨stage', hstage, hstopped, hfirst⟩ := settled
    obtain rfl := Option.some.inj (hstage.symm.trans stages.found)
    refine ⟨.same ?_, answers_plain (by simp [hpayload]) (by simp [hpayload]) fun _ =>
      hfirst.symm⟩
    refine congrArg (fun table => { s with incoming := table }) ?_
    exact Dict.set_eq_self (hstage.trans (congrArg some hstopped.symm))

theorem Accepted.again {s : State} {c : Command} {ctx : Context} {signed : List KeyId}
    {reply : Reply} {first : Option Result} (keyed : Keyed s)
    (h : Accepted s c ctx signed reply) (settled : Settled s c first)
    (recorded : c.payload.recorded = true →
      ∃ r, s.receipts.get? c.requestId = some r ∧ r.result = first) :
    Repeats c s (reply.next c) ∧ Answers s c first reply.result := by
  by_cases hrecorded : c.payload.recorded = true
  · obtain ⟨r, hr, rfl⟩ := recorded hrecorded
    obtain ⟨hresult, hhistory, hstate⟩ := h.effect.replays hrecorded hr
    refine ⟨.same ?_, answers_plain ?_ ?_ fun _ => hresult⟩
    · simp only [Reply.next, hhistory]
      rcases hstate with hstate | ⟨o, m, payload, opens, inside, hstate⟩
      · rw [hstate]
        rfl
      · have := settled.stock keyed payload opens inside
        rw [hstate]
        exact this
    · rintro token heq
      simp [heq, Payload.recorded] at hrecorded
    · rintro id index data heq
      simp [heq, Payload.recorded] at hrecorded
  · exact h.revisits settled (by simpa using hrecorded)

omit [Reducers] in
theorem Repeats.recordReceipt {c : Command} {s t : State} (h : Repeats c s t) (now : Instant)
    (result : Option Result) : Repeats c s (recordReceipt t c now result) := by
  cases h with
  | same tables => exact .same (by rw [tables]; rfl)
  | rewrites token id old new payload known same tables =>
    exact .rewrites token id old new payload known same (by rw [tables]; rfl)

/-- A command takes effect at most once: while it is within its window no other command
takes its request identifier, and where it is accepted again its receipt is still there,
the tables stay and the response is the first one. -/
theorem takes_effect_once {l : List Entry} {s s' : State} {c : Command} {ctx : Context}
    {result : Option Result} (before : Trace l s) (clock : ∀ e ∈ l, e.ctx.now ≤ ctx.now)
    (free : CollisionFree c l) (accepted : execute s c ctx = .ok (s', result)) :
    ∀ e ∈ l,
      (e.command.requestId = c.requestId → ctx.now < e.command.expiresAt → e.command = c) ∧
      (e.command = c →
        (∃ r, s.receipts.get? c.requestId = some r ∧ r.hash = Primitives.digestCommand c) ∧
        Repeats c s s' ∧ Answers s c e.result result) := by
  obtain ⟨signed, reply, haccepted, rfl, rfl⟩ := execute_eq_ok accepted
  have hremembers := before.remembers free
  intro e he
  -- within the window of `e` its receipt is there, under the digest of `e`
  have hwindow : ctx.now < e.command.expiresAt → ∃ r,
      s.receipts.get? e.command.requestId = some r ∧
      r.hash = Primitives.digestCommand e.command ∧
      (e.command.payload.recorded = true → r.result = e.result) := by
    intro hnow
    obtain ⟨r, hr, hhash, -, hresult⟩ :=
      hremembers e he fun f hf => (clock f hf).trans_lt hnow
    exact ⟨r, hr, hhash, hresult⟩
  refine ⟨fun hid hnow => ?_, fun heq => ?_⟩
  · obtain ⟨r, hr, hhash, -⟩ := hwindow hnow
    refine free e.command (List.mem_cons_of_mem _ (List.mem_map_of_mem he)) c (by simp) ?_
    rw [← hhash, haccepted.matching r (hid ▸ hr)]
  · subst heq
    have hlive : ctx.now < e.command.expiresAt := by
      have := haccepted.valid
      simp only [validateCommand, Outcome.bind_eq_ok, demand_eq_ok, exists_const] at this
      exact this.2.2.2.1.2.1
    obtain ⟨r, hr, hhash, hresult⟩ := hwindow hlive
    obtain ⟨hrepeats, hanswers⟩ := haccepted.again before.reachable.keyed
      (before.settled e he) fun hrecorded => ⟨r, hr, hresult hrecorded⟩
    exact ⟨⟨r, hr, hhash⟩, hrepeats.recordReceipt _ _, hanswers⟩

def sampleStep (requestId : Uuid) (org : Option Uuid) (payload : Payload) : Command × Context :=
  (sampleCommand "b" 0 requestId org payload, sampleContext "b" 0)

/-- The run that a list of commands makes, and the state it ends in. -/
def lastRun (commands : List (Command × Context)) : List Entry × State :=
  Outcome.value ([], emptyState) (runTrace commands)

/-- What one more command does after a run. -/
def lastStep (commands : List (Command × Context)) (next : Command × Context) :
    State × Option Result :=
  Outcome.value (emptyState, none) (execute (lastRun commands).2 next.1 next.2)

/-- A run at one instant and one more accepted command, by evaluation. -/
theorem Trace.lastRun (commands : List (Command × Context)) (next : Command × Context)
    (hnow : ∀ e ∈ commands, e.2.now = next.2.now) (hrun : (runTrace commands).toBool = true)
    (hstep : (execute (lastRun commands).2 next.1 next.2).toBool = true) :
    Trace (DirectTrade.lastRun commands).1 (DirectTrade.lastRun commands).2 ∧
      (∀ e ∈ (DirectTrade.lastRun commands).1, e.ctx.now ≤ next.2.now) ∧
      execute (DirectTrade.lastRun commands).2 next.1 next.2 =
        .ok ((lastStep commands next).1, (lastStep commands next).2) := by
  obtain ⟨htrace, hl⟩ := Trace.of_run hnow (Outcome.eq_value ([], emptyState) hrun)
  exact ⟨htrace, fun e he => (hl e he).le, Outcome.eq_value (emptyState, none) hstep⟩

def sampleManifest : SignedToken :=
  let manifest : MigrationManifest := ⟨9, 77, 1, ⟨"a", 100⟩, ⟨"b", 200⟩, 0, 1, [1], 3600000⟩
  ⟨.manifest ⟨⟨"a", 0, 3600000⟩, 1, manifest⟩, 100, 100⟩

/-- An attestation of host `a`, under one of its signatures. -/
def sampleAttestation (signature : Signature) : SignedToken :=
  ⟨.authority ⟨⟨"a", 0, 60000⟩, 77, 1, ⟨"a", 100⟩⟩, 100, signature⟩

def stageSteps : List (Command × Context) :=
  [sampleStep 1 none (.mutation (.personRegister [1])),
    sampleStep 2 none (.migrationStage sampleManifest),
    sampleStep 3 none (.migrationUpload 9 0 "AQ==")]

def importSteps : List (Command × Context) :=
  [sampleStep 1 none (.mutation (.personRegister [1])),
    sampleStep 2 (some 1005) (.mutation (.organizationCreate "acme" 5 [1] 1)),
    sampleStep 3 (some 1005) (.authorityImport (sampleAttestation 100)),
    sampleStep 4 (some 1005) (.authorityImport (sampleAttestation 101))]

omit [Primitives] [Reducers] in
/-- A company's attestation imported, imported again under another signature, and the first
command again; the commands of a run and the last one have digests of their own. -/
theorem takes_effect_once_sample :
    letI : Primitives := { samplePrimitives none with
      verifyToken := fun key _ signature => signature = key || signature = key + 1 }
    letI := sampleReducers
    let c := sampleStep 3 (some 1005) (.authorityImport (sampleAttestation 100))
    Repeats c.1 (lastRun importSteps).2 (lastStep importSteps c).1 ∧
      ∀ e ∈ (lastRun importSteps).1, e.command = c.1 →
        Answers (lastRun importSteps).2 c.1 e.result (lastStep importSteps c).2 := by
  let : Primitives := { samplePrimitives none with
    verifyToken := fun key _ signature => signature = key || signature = key + 1 }
  let := sampleReducers
  intro c
  obtain ⟨htrace, hclock, hstep⟩ : _ ∧ _ ∧ _ := Trace.lastRun importSteps c
    (by decide) (by decide) (by decide)
  have hfree : CollisionFree c.1 (lastRun importSteps).1 := by
    unfold CollisionFree
    decide
  have honce := takes_effect_once htrace hclock hfree hstep
  have hknown : ∃ e ∈ (lastRun importSteps).1, e.command = c.1 := by decide
  obtain ⟨e, he, heq⟩ := hknown
  exact ⟨((honce e he).2 heq).2.1, fun e he heq => ((honce e he).2 heq).2.2⟩

omit [Primitives] [Reducers] in
/-- A repeated acceptance can change a table, by a signature, and its response can differ,
by the progress of a stage. -/
theorem repeated_import_and_stage_differ :
    letI : Primitives := { samplePrimitives none with
      verifyToken := fun key _ signature => signature = key || signature = key + 1 }
    letI := sampleReducers
    ¬ (∀ l s s' c ctx result, Trace l s → (∀ e ∈ l, e.ctx.now ≤ ctx.now) →
      CollisionFree c l → execute s c ctx = .ok (s', result) → c.payload.observes = false →
      ∀ e ∈ l, e.command = c → s' = { s with receipts := s'.receipts }) ∧
    ¬ (∀ l s s' c ctx result, Trace l s → (∀ e ∈ l, e.ctx.now ≤ ctx.now) →
      CollisionFree c l → execute s c ctx = .ok (s', result) → c.payload.observes = false →
      ∀ e ∈ l, e.command = c → result = e.result) := by
  let : Primitives := { samplePrimitives none with
    verifyToken := fun key _ signature => signature = key || signature = key + 1 }
  let := sampleReducers
  constructor
  · intro h
    obtain ⟨htrace, hclock, hstep⟩ : _ ∧ _ ∧ _ := Trace.lastRun importSteps
      (sampleStep 3 (some 1005) (.authorityImport (sampleAttestation 100)))
      (by decide) (by decide) (by decide)
    have hsame := h _ _ _ _ _ _ htrace hclock (by unfold CollisionFree; decide) hstep rfl
    exact absurd hsame (by decide)
  · intro h
    obtain ⟨htrace, hclock, hstep⟩ : _ ∧ _ ∧ _ := Trace.lastRun stageSteps
      (sampleStep 2 none (.migrationStage sampleManifest))
      (by decide) (by decide) (by decide)
    have hsame := h _ _ _ _ _ _ htrace hclock (by unfold CollisionFree; decide) hstep rfl
    exact absurd hsame (by decide)

end DirectTrade
