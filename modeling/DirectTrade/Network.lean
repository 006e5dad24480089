import DirectTrade.AtMostOnce
import DirectTrade.Custodians
import Mathlib.Logic.Equiv.List

/-!
A network of hosts that hand companies over. Each host runs commands in its own time; tokens
are copied, kept back and presented anywhere and at any time. The hosts that had a company
form a line from the host that founded it, and only the last of them can still run it.
-/

namespace DirectTrade

open Library

/-- The host tokens that a command presents. -/
def Payload.presented : Payload → List SignedToken
  | .authorityImport token | .evidenceInspect token _ | .migrationStage token
  | .migrationCommit _ token | .migrationFinalize _ token | .migrationAbort _ token => [token]
  | .authorityRelocate token proof => [token, proof]
  | _ => []

def Payload.founds : Payload → Bool
  | .mutation (.organizationCreate _ _ _ _) => true
  | _ => false

/-- A commit or cancel token that the migrations of its host record. -/
def Filed (s : State) (token : SignedToken) : Prop :=
  match token.body with
  | .commit b => ∃ out, Committed s b.migrationId out ⟨b, token.keyId, token.signature⟩
  | .cancel b => ∃ out, s.outgoing.get? b.migrationId = some out ∧
      out.cancelToken = some ⟨b, token.keyId, token.signature⟩
  | _ => True

theorem Filed.later {s t : State} {token : SignedToken} (h : Filed s token)
    (outgoing : Later OutboundMigration.Continues s.outgoing t.outgoing) : Filed t token := by
  unfold Filed at h ⊢
  split
  next b heq =>
    rw [heq] at h
    obtain ⟨out, hc⟩ := h
    obtain ⟨out', hout', hcontinues⟩ := outgoing _ out hc.found
    exact ⟨out', hout', hcontinues.commit _ hc.token⟩
  next b heq =>
    rw [heq] at h
    obtain ⟨out, hfound, htoken⟩ := h
    obtain ⟨out', hout', hcontinues⟩ := outgoing _ out hfound
    exact ⟨out', hout', hcontinues.cancel _ htoken⟩
  next => trivial

section

variable {hosts : Set HostRef} {host : HostRef} {s : State}

theorem Handover.filed_commit (h : Handover hosts host s) {id : Uuid} {out : OutboundMigration}
    {t : Signed CommitBody} (hc : Committed s id out t) : Filed s (t.map .commit) := by
  have hof := h.commit id out t hc
  have hmigration := hof.migration
  subst hmigration
  exact ⟨out, hc⟩

theorem Handover.filed_cancel (h : Handover hosts host s) {id : Uuid} {out : OutboundMigration}
    {t : Signed CancelBody} (found : s.outgoing.get? id = some out)
    (token : out.cancelToken = some t) : Filed s (t.map .cancel) := by
  have hof := h.cancel id out t found token
  have hmigration := hof.migration
  subst hmigration
  exact ⟨out, found, token⟩

end

variable [Primitives] [Reducers]

/-- A token in a reply was in a reply before, or it is recorded if it commits or cancels. -/
theorem Accepted.filed {hosts : Set HostRef} {host : HostRef} {s : State} {c : Command}
    {ctx : Context} {signed : List KeyId} {reply : Reply} (h : Accepted s c ctx signed reply)
    (hs : Handover hosts host s) (ht : Handover hosts host (reply.next c)) {token : SignedToken}
    (hresult : reply.result = some (.token token)) :
    (∃ r, s.receipts.get? c.requestId = some r ∧ r.result = some (.token token)) ∨
      Filed (reply.next c) token := by
  cases h.effect with
  | replay m receipt payload recorded previous => exact .inl ⟨receipt, previous, hresult⟩
  | replayStock o m receipt payload opens inside previous =>
    exact .inl ⟨receipt, previous, hresult⟩
  | read result reads =>
    right
    rcases reads.token token hresult with ⟨b, hb⟩ | ⟨b, hb⟩ | ⟨id, out, commit, hout, htok, rfl⟩
    · simp only [Filed, hb]
    · simp only [Filed, hb]
    · exact hs.filed_commit ⟨hout, htok⟩
  | prepareAgain o destination snapshot org prior payload prepares known same =>
    cases hresult
    exact .inr trivial
  | prepare o destination snapshot org payload prepares absent =>
    cases hresult
    exact .inr trivial
  | commitAgain migrationId ready out o t payload owns known =>
    cases hresult
    exact .inr (hs.filed_commit ⟨owns.found, known⟩)
  | commit o migrationId ready snapshot out org body payload commits =>
    cases hresult
    exact .inr (ht.filed_commit ⟨Dict.get?_set_self .., rfl⟩)
  | cancelAgain migrationId out o t payload owns known =>
    cases hresult
    exact .inr (hs.filed_cancel owns.found known)
  | cancel migrationId out o payload owns uncommitted uncancelled =>
    cases hresult
    exact .inr (ht.filed_cancel (Dict.get?_set_self ..) rfl)
  | readyAgain migrationId stage t payload stages pending known =>
    cases hresult
    exact .inr trivial
  | ready migrationId stage snapshot payload stages pending unready lifetime assembled absent
      valid =>
    cases hresult
    exact .inr trivial
  | company o o' m result payload fresh inside change =>
    cases change <;> cases hresult
  | stock o m company result payload fresh inside change =>
    cases change <;> cases hresult
  | _ => cases hresult

/-- How a command leaves a stage of its host: open, as it was, taken over by a commit, or
stopped by a cancellation. -/
inductive StageEnd (k : Call) (id : Uuid) (stage : InboundMigration) : Prop
  | pending (activated : stage.activated = false) (aborted : stage.aborted = false)
  | kept (old : InboundMigration) (found : k.s.incoming.get? id = some old)
      (manifest : old.manifest = stage.manifest) (activated : old.activated = stage.activated)
      (aborted : old.aborted = stage.aborted)
  | activated (token : SignedToken) (old : InboundMigration) (ready : Signed ReadyBody)
      (body : CommitBody) (payload : k.c.payload = .migrationFinalize id token)
      (stages : k.Stages id old) (binds : k.Binds id token old ready body)
      (manifest : old.manifest = stage.manifest) (live : stage.aborted = false)
  | aborted (token : SignedToken) (old : InboundMigration) (body : CancelBody)
      (payload : k.c.payload = .migrationAbort id token)
      (verified : durable TokenBody.cancel? token k.ctx = .ok body)
      (source : body.issuer = old.manifest.source.audience ∧
        token.keyId = old.manifest.source.keyId)
      (migration : body.migrationId = id) (manifest : old.manifest = stage.manifest)
      (inactive : stage.activated = false)

omit [Primitives] [Reducers] in
theorem pushHistory_incoming (s : State) (c : Command) :
    (pushHistory s c).incoming = s.incoming := by
  unfold pushHistory
  split <;> rfl

omit [Primitives] [Reducers] in
theorem setOrg_incoming (k : Call) (o : Organization) : (k.setOrg o).incoming = k.s.incoming := by
  unfold Call.setOrg
  split <;> rfl

theorem Accepted.stageEnd {s : State} {c : Command} {ctx : Context} {signed : List KeyId}
    {reply : Reply} (h : Accepted s c ctx signed reply) (keyed : Keyed s) {id : Uuid}
    {stage : InboundMigration} (found : (reply.next c).incoming.get? id = some stage) :
    StageEnd (callOf s c ctx signed) id stage := by
  have hsame : (reply.next c).incoming = s.incoming →
      StageEnd (callOf s c ctx signed) id stage := by
    intro heq
    rw [heq] at found
    exact .kept stage found rfl rfl rfl
  -- a stage that is written, beside those that stay
  have hset : ∀ m new, (reply.next c).incoming = s.incoming.set m new →
      (id = m → stage = new → StageEnd (callOf s c ctx signed) id stage) →
      StageEnd (callOf s c ctx signed) id stage := by
    intro m new heq hnew
    rw [heq, Dict.get?_set] at found
    split at found
    next hid => exact hnew hid (Option.some.inj found).symm
    next => exact .kept stage found rfl rfl rfl
  cases h.effect with
  | found orgId name nonce controllers threshold payload founds =>
    exact hsame ((pushHistory_incoming _ c).trans (setOrg_incoming _ _))
  | company o o' m result payload fresh inside change =>
    exact hsame ((pushHistory_incoming _ c).trans (setOrg_incoming _ _))
  | append o p profile before t company validation payload appends assessed =>
    obtain rfl : s = t := (counterparties_eq keyed.remoteAuthorities appends.attested).symm
    cases company <;> exact hsame rfl
  | duplicate o p profile before t company recordId recorded payload appends assessed known =>
    obtain rfl : s = t := (counterparties_eq keyed.remoteAuthorities appends.attested).symm
    exact hsame rfl
  | stage token body payload manifests absent company unreserved =>
    apply hset _ _ rfl
    intro _ hstage
    subst hstage
    exact .pending rfl rfl
  | upload migrationId index data old payload stages pending known =>
    apply hset _ _ rfl
    intro hid hstage
    subst hid hstage
    exact .kept old stages.found rfl rfl rfl
  | ready migrationId old snapshot payload stages pending unready lifetime assembled absent
      valid =>
    apply hset _ _ rfl
    intro hid hstage
    subst hid hstage
    exact .kept old stages.found rfl rfl rfl
  | finalize migrationId token old ready body snapshot payload stages binds inactive held absent
      digest valid activates =>
    apply hset _ _ rfl
    intro hid hstage
    subst hid hstage
    exact .activated token old ready body payload stages binds rfl binds.live
  | abort migrationId token old body payload stages inactive verified source matching =>
    apply hset _ _ rfl
    intro hid hstage
    subst hid hstage
    exact .aborted token old body payload verified source matching.1 rfl inactive
  | _ => exact hsame rfl

/-- The states of the hosts, and the tokens that each has handed out. -/
structure Network where
  state : HostRef → State
  handed : List (HostRef × SignedToken)

def Network.start : Network := ⟨fun _ => emptyState, []⟩

def handedOut (h : HostRef) : Option Result → List (HostRef × SignedToken)
  | some (.token token) => [(h, token)]
  | _ => []

/-- The network after a host accepted a command. -/
def Network.after (w : Network) (h : HostRef) (s : State) (result : Option Result) : Network :=
  ⟨Function.update w.state h s, handedOut h result ++ w.handed⟩

omit [Reducers] in
/-- A signature that verifies under the key of a host is one that this host made. -/
def Unforged (hosts : Set HostRef) (w : Network) (token : SignedToken) : Prop :=
  ∀ h ∈ hosts, token.keyId = h.keyId → token.body.stamp.issuer = h.audience →
    Primitives.verifyToken token.keyId token.body token.signature = true →
    ∃ u, (h, u) ∈ w.handed ∧ u.keyId = token.keyId ∧ u.body = token.body

/-- A command at a host that trusts the true keys of the others, with tokens that nobody
forged. A company is founded at its home only. -/
structure Honest (hosts : Set HostRef) (home : Uuid → HostRef) (w : Network) (h : HostRef)
    (c : Command) (ctx : Context) : Prop where
  member : h ∈ hosts
  self : ctx.host = h
  pinned : ∀ a k, ctx.pins a = some k → ⟨a, k⟩ ∈ hosts
  unforged : ∀ token ∈ c.payload.presented, Unforged hosts w token
  home : c.payload.founds = true → ∀ o, c.organizationId = some o → home o = h

/-- The networks that any order of accepted commands makes of empty hosts. -/
inductive Network.Reached (hosts : Set HostRef) (home : Uuid → HostRef) : Network → Prop
  | start : Network.Reached hosts home .start
  | turn {w : Network} {h : HostRef} {c : Command} {ctx : Context} {s : State}
      {result : Option Result} (before : Network.Reached hosts home w)
      (honest : Honest hosts home w h c ctx)
      (accepted : execute (w.state h) c ctx = .ok (s, result)) :
      Network.Reached hosts home (w.after h s result)

variable {hosts : Set HostRef} {home : Uuid → HostRef} {w : Network} {h : HostRef} {c : Command}
  {ctx : Context}

theorem Network.Reached.reachable (hw : Network.Reached hosts home w) (a : HostRef) :
    Reachable (w.state a) := by
  induction hw with
  | start => exact .empty
  | @turn w h c ctx s result _ _ accepted ih =>
    show Reachable (Function.update w.state h s a)
    by_cases ha : a = h
    · subst ha
      rw [Function.update_self]
      exact ih.step accepted
    · rw [Function.update_of_ne ha]
      exact ih

omit [Reducers] in
theorem Honest.issuer (honest : Honest hosts home w h c ctx) {β : Type}
    {select : TokenBody → Option β}
    {token : SignedToken} {body : β} (presented : token ∈ c.payload.presented) {now : Instant}
    (verified : verifyToken select token { ctx with now := now } = .ok body) :
    (⟨token.body.stamp.issuer, token.keyId⟩ : HostRef) ∈ hosts ∧
      ∃ u, ((⟨token.body.stamp.issuer, token.keyId⟩ : HostRef), u) ∈ w.handed ∧
        u.keyId = token.keyId ∧ u.body = token.body := by
  simp only [verifyToken, Outcome.bind_eq_ok, demand_eq_ok, exists_const] at verified
  obtain ⟨_, -, hpinned, hsignature, -, -⟩ := verified
  have hmember : (⟨token.body.stamp.issuer, token.keyId⟩ : HostRef) ∈ hosts := by
    by_cases hself : token.body.stamp.issuer = ctx.audience
    · rw [if_pos hself] at hpinned
      have hhost : (⟨token.body.stamp.issuer, token.keyId⟩ : HostRef) = h := by
        rw [hself, ← Option.some.inj hpinned]
        exact honest.self
      rw [hhost]
      exact honest.member
    · rw [if_neg hself] at hpinned
      exact honest.pinned _ _ hpinned
  exact ⟨hmember, honest.unforged token presented _ hmember rfl rfl hsignature⟩

omit [Reducers] in
/-- The host that a commit receipt binding a stage names has committed the migration. -/
theorem Honest.committed (honest : Honest hosts home w h c ctx) {s : State} {signed : List KeyId}
    {migrationId : Uuid} {token : SignedToken} {stage : InboundMigration}
    {ready : Signed ReadyBody} {body : CommitBody}
    (payload : c.payload = .migrationFinalize migrationId token)
    (binds : (callOf s c ctx signed).Binds migrationId token stage ready body)
    (filed : ∀ e ∈ w.handed, Filed (w.state e.1) e.2) :
    stage.manifest.source ∈ hosts ∧
      ∃ out tok, Committed (w.state stage.manifest.source) migrationId out tok ∧
        tok.body = body := by
  have hverified := binds.verified
  simp only [durable, Outcome.bind_eq_ok] at hverified
  obtain ⟨_, -, _, -, hverified⟩ := hverified
  have hmatching := binds.matching
  simp only [commitMatches, demand_eq_ok] at hmatching
  obtain ⟨hissuer, hkey, -, hmigration, -⟩ := hmatching
  have hbody : token.body = .commit body := by
    have hselect := verifyToken_select hverified
    unfold TokenBody.commit? at hselect
    split at hselect
    next b hb =>
      rw [hb, Option.some.inj hselect]
    next => cases hselect
  have hpresented : token ∈ c.payload.presented := by
    rw [payload]
    exact List.mem_singleton_self _
  have hsource : (⟨token.body.stamp.issuer, token.keyId⟩ : HostRef) = stage.manifest.source := by
    rw [hbody, hkey]
    show (⟨body.issuer, _⟩ : HostRef) = _
    rw [hissuer]
  obtain ⟨hmember, u, hu, -, hsame⟩ := honest.issuer hpresented hverified
  rw [hsource] at hmember hu
  have hfiled := filed _ hu
  unfold Filed at hfiled
  simp only [hsame, hbody] at hfiled
  obtain ⟨out, hcommitted⟩ := hfiled
  rw [hmigration] at hcommitted
  exact ⟨hmember, out, _, hcommitted, rfl⟩

omit [Reducers] in
/-- The host that an accepted cancellation names has cancelled the migration. -/
theorem Honest.cancelled (honest : Honest hosts home w h c ctx) {migrationId : Uuid}
    {token : SignedToken} {source : HostRef} {body : CancelBody}
    (payload : c.payload = .migrationAbort migrationId token)
    (verified : durable TokenBody.cancel? token ctx = .ok body)
    (named : body.issuer = source.audience ∧ token.keyId = source.keyId)
    (filed : ∀ e ∈ w.handed, Filed (w.state e.1) e.2) :
    ∃ out tok, (w.state source).outgoing.get? body.migrationId = some out ∧
      out.cancelToken = some tok := by
  simp only [durable, Outcome.bind_eq_ok] at verified
  obtain ⟨_, -, _, -, hverified⟩ := verified
  have hbody : token.body = .cancel body := by
    have hselect := verifyToken_select hverified
    unfold TokenBody.cancel? at hselect
    split at hselect
    next b hb =>
      rw [hb, Option.some.inj hselect]
    next => cases hselect
  have hpresented : token ∈ c.payload.presented := by
    rw [payload]
    exact List.mem_singleton_self _
  have hsource : (⟨token.body.stamp.issuer, token.keyId⟩ : HostRef) = source := by
    rw [hbody, named.2]
    show (⟨body.issuer, _⟩ : HostRef) = _
    rw [named.1]
  obtain ⟨-, u, hu, -, hsame⟩ := honest.issuer hpresented hverified
  rw [hsource] at hu
  have hfiled := filed _ hu
  unfold Filed at hfiled
  simp only [hsame, hbody] at hfiled
  obtain ⟨out, hfound, htoken⟩ := hfiled
  exact ⟨out, _, hfound, htoken⟩

/-- A stage that ended did so by a decision of its source: it is active by a commit to its
own host, or stopped by a cancellation. -/
structure Decided (w : Network) (a : HostRef) (id : Uuid) (stage : InboundMigration) : Prop where
  activated : stage.activated = true → ∃ out tok,
    Committed (w.state stage.manifest.source) id out tok ∧
    out.manifest.organizationId = stage.manifest.organizationId ∧
    out.manifest.generation = stage.manifest.generation ∧ out.manifest.destination = a
  aborted : stage.aborted = true → ∃ out tok,
    (w.state stage.manifest.source).outgoing.get? id = some out ∧ out.cancelToken = some tok

omit [Primitives] [Reducers] in
theorem Committed.later {s t : State} {id : Uuid} {out : OutboundMigration}
    {tok : Signed CommitBody} (hc : Committed s id out tok)
    (outgoing : Later OutboundMigration.Continues s.outgoing t.outgoing) :
    ∃ out', Committed t id out' tok ∧ out'.manifest = out.manifest := by
  obtain ⟨out', hfound, hcontinues⟩ := outgoing id out hc.found
  exact ⟨out', ⟨hfound, hcontinues.commit tok hc.token⟩, hcontinues.manifest⟩

omit [Primitives] [Reducers] in
theorem Decided.later {v : Network} {a : HostRef} {id : Uuid} {old stage : InboundMigration}
    (hold : Decided w a id old)
    (outgoing : ∀ a, Later OutboundMigration.Continues (w.state a).outgoing (v.state a).outgoing)
    (manifest : old.manifest = stage.manifest)
    (activated : stage.activated = true → old.activated = true)
    (aborted : stage.aborted = true → old.aborted = true) : Decided v a id stage where
  activated htrue := by
    obtain ⟨out, tok, hc, hcompany, hgeneration, hdestination⟩ := hold.activated (activated htrue)
    obtain ⟨out', hc', hmanifest⟩ := hc.later (outgoing _)
    rw [manifest] at hc' hcompany hgeneration
    rw [← hmanifest] at hcompany hgeneration hdestination
    exact ⟨out', tok, hc', hcompany, hgeneration, hdestination⟩
  aborted htrue := by
    obtain ⟨out, tok, hfound, htoken⟩ := hold.aborted (aborted htrue)
    obtain ⟨out', hfound', hcontinues⟩ := outgoing _ id out hfound
    rw [manifest] at hfound'
    exact ⟨out', tok, hfound', hcontinues.cancel tok htoken⟩

structure Network.Sound (hosts : Set HostRef) (home : Uuid → HostRef) (w : Network) : Prop where
  handover : ∀ a, Handover hosts a (w.state a)
  filed : ∀ e ∈ w.handed, Filed (w.state e.1) e.2
  receipts : ∀ a id r token, (w.state a).receipts.get? id = some r →
    r.result = some (.token token) → (a, token) ∈ w.handed
  decided : ∀ a id stage, (w.state a).incoming.get? id = some stage → Decided w a id stage
  custody : ∀ o, Relation.ReflTransGen (Custody.Step (home o)) (fun _ => .absent)
    fun a => post (w.state a) o

omit [Primitives] [Reducers] in
theorem Network.Sound.start : Network.start.Sound hosts home where
  handover a := handover_empty hosts a
  filed _ he := absurd he List.not_mem_nil
  receipts a id r token hr := by
    have hnone : (emptyState.receipts.get? id) = none := by simp [emptyState]
    exact absurd (hnone.symm.trans hr) (by simp)
  decided a id stage hstage := by
    have hnone : (emptyState.incoming.get? id) = none := by simp [emptyState]
    exact absurd (hnone.symm.trans hstage) (by simp)
  custody o := by
    have habsent : (fun a => post (Network.start.state a) o) = fun _ => .absent := by
      funext a
      exact post_eq_absent.mpr (by simp [Network.start, emptyState])
    rw [habsent]

omit [Primitives] [Reducers] in
theorem mem_handedOut {a : HostRef} {result : Option Result} {e : HostRef × SignedToken} :
    e ∈ handedOut a result ↔ e.1 = a ∧ result = some (.token e.2) := by
  unfold handedOut
  split
  next token =>
    rw [List.mem_singleton]
    constructor
    · intro he
      subst he
      exact ⟨rfl, rfl⟩
    · intro he
      obtain ⟨ha, htoken⟩ := he
      cases htoken
      exact Prod.ext ha rfl
  next hnone =>
    constructor
    · intro he
      cases he
    · intro he
      exact absurd he.2 (hnone e.2)

omit [Reducers] in
/-- A receipt kept after a command is of this command or was there before. -/
theorem recordReceipt_cases {s : State} {c : Command} {now : Instant} {result : Option Result}
    {id : Uuid} {r : Receipt} (h : (recordReceipt s c now result).receipts.get? id = some r) :
    (∀ x, r.result = some x → result = some x) ∨ s.receipts.get? id = some r := by
  simp only [recordReceipt, Dict.get?_set] at h
  split at h
  · left
    intro x hx
    obtain rfl := Option.some.inj h
    simp only at hx
    split at hx
    · cases hx
    · exact hx
  · right
    rw [Dict.get?_filter, Option.filter_eq_some_iff] at h
    exact h.1

omit [Primitives] [Reducers] in
/-- Custody when one host changes. -/
theorem Network.post_after (w : Network) (h : HostRef) (s : State) (result : Option Result)
    (o : Uuid) : (fun a => post ((w.after h s result).state a) o) =
      Function.update (fun a => post (w.state a) o) h (post s o) := by
  funext a
  show post (Function.update w.state h s a) o = _
  by_cases ha : a = h
  · subst ha
    rw [Function.update_self, Function.update_self]
  · rw [Function.update_of_ne ha, Function.update_of_ne ha]

omit [Reducers] in
theorem Handover.recordReceipt {host : HostRef} {s : State} (h : Handover hosts host s)
    (c : Command) (now : Instant) (result : Option Result) :
    Handover hosts host (recordReceipt s c now result) :=
  h.same (Later.refl .refl _) rfl (.of_eq rfl)

omit [Reducers] in
/-- What the source of a stage committed is what a commit receipt binding the stage says. -/
theorem Network.Sound.source_committed (sound : w.Sound hosts home)
    (hosted : Function.Injective Primitives.digestHost) (honest : Honest hosts home w h c ctx)
    {signed : List KeyId} {migrationId : Uuid} {token : SignedToken} {stage : InboundMigration}
    {ready : Signed ReadyBody} {body : CommitBody}
    (payload : c.payload = .migrationFinalize migrationId token)
    (stages : (callOf (w.state h) c ctx signed).Stages migrationId stage)
    (binds : (callOf (w.state h) c ctx signed).Binds migrationId token stage ready body) :
    ∃ out tok, Committed (w.state stage.manifest.source) migrationId out tok ∧
      out.manifest.organizationId = stage.manifest.organizationId ∧
      out.manifest.generation = stage.manifest.generation ∧ out.manifest.destination = h ∧
      out.manifest.snapshotHash = stage.manifest.snapshotHash := by
  obtain ⟨-, out, tok, hc, hbody⟩ := honest.committed payload binds sound.filed
  have hof := (sound.handover _).commit migrationId out tok hc
  have hmatching := binds.matching
  simp only [commitMatches, demand_eq_ok] at hmatching
  obtain ⟨-, -, -, -, horganization, hgeneration, hsnapshot, -, hdestination, -⟩ := hmatching
  refine ⟨out, tok, hc, ?_, ?_, ?_, ?_⟩
  · rw [← hof.organization, hbody, horganization]
  · rw [← hof.generation, hbody, hgeneration]
  · rw [← hof.destination, hbody, hosted hdestination, stages.destination]
    exact honest.self
  · rw [← hof.snapshot, hbody, hsnapshot]

/-- Commands are custody steps: the home of a company founds it, a host that commits it lets
it go, and one that finalizes takes what its source let go. -/
theorem Network.Sound.custody_after (sound : w.Sound hosts home)
    (hosted : Function.Injective Primitives.digestHost) (keyed : Keyed (w.state h))
    (honest : Honest hosts home w h c ctx) {signed : List KeyId} {reply : Reply}
    (accepted : Accepted (w.state h) c ctx signed reply)
    (ht : Handover hosts h (reply.next c)) (o : Uuid) :
    Relation.ReflTransGen (Custody.Step (home o)) (fun _ => .absent)
      (Function.update (fun a => post (w.state a) o) h (post (reply.next c) o)) := by
  have hbefore := sound.custody o
  rcases accepted.custody keyed (sound.handover h) ht o with
    hsame | ⟨g, d, hheld, hreleased⟩ | ⟨habsent, org, harrives, hholds⟩
  · rw [hsame, Function.update_eq_self_iff.mpr rfl]
    exact hbefore
  · rw [hreleased]
    exact hbefore.tail (.release h d g hheld)
  · have hfree : post (w.state h) o = .absent := post_eq_absent.mpr habsent
    rw [hholds]
    cases harrives with
    | founded name nonce controllers threshold payload named active generation =>
      have hpayload : c.payload =
          .mutation (.organizationCreate name nonce controllers threshold) := payload
      have hhome := honest.home (by rw [hpayload]; rfl) o named
      rw [generation, ← hhome]
      apply hbefore.tail
      apply Custody.Step.create
      rw [hhome]
      exact hfree
    | taken migrationId token stage ready body payload stages binds company active generation
        snapshot inactive held named digest =>
      obtain ⟨out, tok, hc, hcompany, hgen, hdest, -⟩ :=
        sound.source_committed hosted honest payload stages binds
      have hpost := (sound.handover _).post_committed hc
      rw [hcompany, company, hgen, hdest] at hpost
      rw [generation]
      exact hbefore.tail (.accept stage.manifest.source h _ hpost hfree)

theorem Network.Sound.after (sound : w.Sound hosts home)
    (hosted : Function.Injective Primitives.digestHost) (keyed : Keyed (w.state h))
    (honest : Honest hosts home w h c ctx) {s : State} {result : Option Result}
    (accepted : execute (w.state h) c ctx = .ok (s, result)) :
    (w.after h s result).Sound hosts home := by
  obtain ⟨signed, reply, haccepted, rfl, rfl⟩ := execute_eq_ok accepted
  have hnext := (sound.handover h).next keyed haccepted honest.self honest.pinned
  have hkeeps := Keeps.execute keyed accepted
  have hafter : ∀ a, (w.after h (recordReceipt (reply.next c) c ctx.now reply.result)
      reply.result).state a = Function.update w.state h
        (recordReceipt (reply.next c) c ctx.now reply.result) a := fun _ => rfl
  have houtgoing : ∀ a, Later OutboundMigration.Continues (w.state a).outgoing
      (Function.update w.state h (recordReceipt (reply.next c) c ctx.now reply.result)
        a).outgoing := by
    intro a
    by_cases heq : a = h
    · subst heq
      rw [Function.update_self]
      exact hkeeps.outgoing
    · rw [Function.update_of_ne heq]
      exact Later.refl .refl _
  -- what a host had handed out is still recorded, by the host that acted too
  have hfiled : ∀ a token, Filed (w.state a) token → Filed (Function.update w.state h
      (recordReceipt (reply.next c) c ctx.now reply.result) a) token :=
    fun a _ ha => ha.later (houtgoing a)
  refine ⟨?_, ?_, ?_, ?_, ?_⟩
  · intro a
    rw [hafter]
    by_cases heq : a = h
    · subst heq
      rw [Function.update_self]
      exact hnext.recordReceipt c ctx.now reply.result
    · rw [Function.update_of_ne heq]
      exact sound.handover a
  · intro e he
    rw [hafter]
    cases List.mem_append.mp he with
    | inl hnew =>
      obtain ⟨hhost, hresult⟩ := mem_handedOut.mp hnew
      rw [hhost]
      cases haccepted.filed (sound.handover h) hnext hresult with
      | inl hreceipt =>
        obtain ⟨r, hr, htoken⟩ := hreceipt
        exact hfiled h e.2 (sound.filed _ (sound.receipts h _ r e.2 hr htoken))
      | inr hnow =>
        rw [Function.update_self]
        exact hnow.later (Later.refl .refl _)
    | inr hold => exact hfiled e.1 e.2 (sound.filed e hold)
  · intro a id r token hr htoken
    rw [hafter] at hr
    show (a, token) ∈ handedOut h reply.result ++ w.handed
    rw [List.mem_append]
    by_cases heq : a = h
    · subst heq
      rw [Function.update_self] at hr
      cases recordReceipt_cases hr with
      | inl hnew => exact .inl (mem_handedOut.mpr ⟨rfl, hnew _ htoken⟩)
      | inr hold =>
        rw [haccepted.receipts keyed] at hold
        exact .inr (sound.receipts a id r token hold htoken)
    · rw [Function.update_of_ne heq] at hr
      exact .inr (sound.receipts a id r token hr htoken)
  · intro a id stage hstage
    rw [hafter] at hstage
    by_cases heq : a = h
    · subst heq
      rw [Function.update_self] at hstage
      cases haccepted.stageEnd keyed hstage with
      | pending hactivated haborted =>
        refine ⟨fun htrue => ?_, fun htrue => ?_⟩
        · exact absurd (hactivated.symm.trans htrue) (by simp)
        · exact absurd (haborted.symm.trans htrue) (by simp)
      | kept old found manifest hactivated haborted =>
        exact (sound.decided a id old found).later houtgoing manifest
          (fun htrue => hactivated.trans htrue) (fun htrue => haborted.trans htrue)
      | activated token old ready body payload stages binds manifest live =>
        obtain ⟨out, tok, hc, hcompany, hgeneration, hdestination, -⟩ :=
          sound.source_committed hosted honest payload stages binds
        rw [manifest] at hc hcompany hgeneration
        obtain ⟨out', hc', hmanifest⟩ := hc.later (houtgoing _)
        rw [← hmanifest] at hcompany hgeneration hdestination
        refine ⟨fun _ => ⟨out', tok, hc', hcompany, hgeneration, hdestination⟩, fun htrue => ?_⟩
        exact absurd (live.symm.trans htrue) (by simp)
      | aborted token old body payload verified source migration manifest inactive =>
        obtain ⟨out, tok, hfound, htoken⟩ := honest.cancelled payload verified source sound.filed
        rw [manifest, migration] at hfound
        obtain ⟨out', hfound', hcontinues⟩ := houtgoing _ id out hfound
        refine ⟨fun htrue => ?_, fun _ => ⟨out', tok, hfound', hcontinues.cancel _ htoken⟩⟩
        exact absurd (inactive.symm.trans htrue) (by simp)
    · rw [Function.update_of_ne heq] at hstage
      exact (sound.decided a id stage hstage).later houtgoing rfl (fun h => h) (fun h => h)
  · intro o
    rw [w.post_after]
    exact sound.custody_after hosted keyed honest haccepted hnext o

theorem Network.Reached.sound (hosted : Function.Injective Primitives.digestHost)
    (hw : Network.Reached hosts home w) : w.Sound hosts home := by
  induction hw with
  | start => exact .start
  | turn before honest accepted ih =>
    exact ih.after hosted (before.reachable _).keyed honest accepted

theorem Network.Reached.line (hosted : Function.Injective Primitives.digestHost)
    (hw : Network.Reached hosts home w) (o : Uuid) :
    ∃ places, Custody.Line (home o) (fun a => post (w.state a) o) places :=
  Custody.Line.run ((hw.sound hosted).custody o)

omit [Primitives] [Reducers] in
theorem Network.Sound.commit_filed (sound : w.Sound hosts home) {a : HostRef} {t : SignedToken}
    {b : CommitBody} (ht : (a, t) ∈ w.handed) (hb : t.body = .commit b) :
    ∃ out, Committed (w.state a) b.migrationId out ⟨b, t.keyId, t.signature⟩ := by
  have hfiled := sound.filed _ ht
  unfold Filed at hfiled
  simp only [hb] at hfiled
  exact hfiled

omit [Primitives] [Reducers] in
theorem Network.Sound.cancel_filed (sound : w.Sound hosts home) {a : HostRef} {t : SignedToken}
    {b : CancelBody} (ht : (a, t) ∈ w.handed) (hb : t.body = .cancel b) :
    ∃ out, (w.state a).outgoing.get? b.migrationId = some out ∧
      out.cancelToken = some ⟨b, t.keyId, t.signature⟩ := by
  have hfiled := sound.filed _ ht
  unfold Filed at hfiled
  simp only [hb] at hfiled
  exact hfiled

/-- Whatever the hosts run in whatever order, a company is active at one host at most, which
has it in the greatest generation; one commit token exists for a generation of a company; and
no host hands out a commit and a cancellation of one migration. -/
theorem single_active_host (hosted : Function.Injective Primitives.digestHost)
    (hw : Network.Reached hosts home w) :
    (∀ a b o x y, (w.state a).organizations.get? o = some x → x.status = .active →
      (w.state b).organizations.get? o = some y → b ≠ a →
      y.status = .migrated ∧ y.generation < x.generation) ∧
    (∀ a b o x y, (w.state a).organizations.get? o = some x →
      (w.state b).organizations.get? o = some y → x.generation = y.generation → a = b) ∧
    (∀ a b t u c d, (a, t) ∈ w.handed → (b, u) ∈ w.handed → t.body = .commit c →
      u.body = .commit d → c.organizationId = d.organizationId → c.generation = d.generation →
      a = b ∧ t = u) ∧
    ∀ a t u c d, (a, t) ∈ w.handed → (a, u) ∈ w.handed → t.body = .commit c →
      u.body = .cancel d → c.migrationId ≠ d.migrationId := by
  have hsound := hw.sound hosted
  have hgeneration : ∀ {a o x}, (w.state a).organizations.get? o = some x →
      (post (w.state a) o).generation = some x.generation := by
    intro a o x hx
    rw [post_generation, hx, Option.map_some]
  refine ⟨?_, ?_, ?_, ?_⟩
  · intro a b o x y hx hactive hy hne
    obtain ⟨places, hline⟩ := hw.line hosted o
    have hholds := (hsound.handover a).post_active hx hactive
    constructor
    · cases hstatus : y.status with
      | migrated => rfl
      | active =>
        have hother := (hsound.handover b).post_active hy hstatus
        exact absurd (hline.holder_unique hother hholds) hne
    · exact hline.lt_of_holds hholds (hgeneration hy) hne
  · intro a b o x y hx hy hsame
    obtain ⟨places, hline⟩ := hw.line hosted o
    exact hline.unique (hgeneration hx) (hsame ▸ hgeneration hy)
  · intro a b t u c d ht hu hc hd hcompany hgen
    obtain ⟨out, hcommitted⟩ := hsound.commit_filed ht hc
    obtain ⟨out', hcommitted'⟩ := hsound.commit_filed hu hd
    have hof := (hsound.handover a).commit _ _ _ hcommitted
    have hof' := (hsound.handover b).commit _ _ _ hcommitted'
    have horganization : out.manifest.organizationId = out'.manifest.organizationId := by
      rw [← hof.organization, ← hof'.organization]
      exact hcompany
    have hhost : a = b := by
      obtain ⟨places, hline⟩ := hw.line hosted out.manifest.organizationId
      have hpost := (hsound.handover a).post_committed hcommitted
      have hpost' := (hsound.handover b).post_committed hcommitted'
      rw [← horganization] at hpost'
      apply hline.unique (g := out.manifest.generation)
      · rw [hpost]
        rfl
      · rw [hpost', ← hof.generation, ← hof'.generation]
        exact congrArg some hgen.symm
    subst hhost
    have hid := (hsound.handover a).single _ _ _ hcommitted _ _ _ hcommitted' horganization
    have hfound := hcommitted.found
    rw [hid] at hfound
    obtain rfl := Option.some.inj (hfound.symm.trans hcommitted'.found)
    have htoken := Option.some.inj (hcommitted.token.symm.trans hcommitted'.token)
    refine ⟨rfl, ?_⟩
    obtain ⟨body, key, signature⟩ := t
    obtain ⟨body', key', signature'⟩ := u
    simp only [Signed.mk.injEq] at htoken hc hd ⊢
    rw [hc, hd, htoken.1]
    exact ⟨rfl, htoken.2⟩
  · intro a t u c d ht hu hc hd hsame
    obtain ⟨out, hcommitted⟩ := hsound.commit_filed ht hc
    obtain ⟨out', hfound, htoken⟩ := hsound.cancel_filed hu hd
    rw [← hsame] at hfound
    obtain rfl := Option.some.inj (hfound.symm.trans hcommitted.found)
    have hnone := (hsound.handover a).exclusive _ _ _ hcommitted
    rw [htoken] at hnone
    cases hnone

/-- The hosts that have a company got it one after the other, from its home on: each in the
next generation, and all but the last handed it to the one after it by a commit. -/
theorem company_lineage (hosted : Function.Injective Primitives.digestHost)
    (hw : Network.Reached hosts home w) (o : Uuid) :
    ∃ places : List HostRef, places.Nodup ∧ (∀ a, places[0]? = some a → a = home o) ∧
      (∀ a, a ∈ places ↔ ((w.state a).organizations.get? o).isSome = true) ∧
      (∀ (i : ℕ) a org, places[i]? = some a → (w.state a).organizations.get? o = some org →
        org.generation = i + 1 ∧ (org.status = .active → places.length = i + 1)) ∧
      ∀ (i : ℕ) a b, places[i]? = some a → places[i + 1]? = some b →
        ∃ id out tok, Committed (w.state a) id out tok ∧ out.manifest.organizationId = o ∧
          out.manifest.generation = i + 1 ∧ out.manifest.destination = b := by
  have hsound := hw.sound hosted
  obtain ⟨places, hline⟩ := hw.line hosted o
  refine ⟨places, hline.nodup, hline.home, ?_, ?_, ?_⟩
  · intro a
    rw [hline.mem, Ne, post_eq_absent, Option.isSome_iff_ne_none]
  · intro i a org hi horg
    have hgeneration := hline.generation i a hi
    rw [post_generation, horg, Option.map_some] at hgeneration
    have hgeneration := Option.some.inj hgeneration
    refine ⟨hgeneration, fun hactive => ?_⟩
    rw [← hgeneration]
    exact hline.length_of_holds ((hsound.handover a).post_active horg hactive)
  · intro i a b hi hb
    have hlinked := hline.linked i a b hi hb
    cases horg : (w.state a).organizations.get? o with
    | none =>
      rw [post_eq_absent.mpr horg] at hlinked
      cases hlinked
    | some org =>
      have hgeneration := post_generation (w.state a) o
      rw [hlinked, horg] at hgeneration
      have hhanded : handedTo (w.state a) o = some b := by
        simp only [post, horg] at hlinked
        split at hlinked
        · cases hlinked
        next d hd =>
          rw [hd]
          exact congrArg some (Post.released.inj hlinked).2
      obtain ⟨id, out, tok, hc, ho, hd⟩ := (hsound.handover a).handedTo_eq_some.mp hhanded
      have hreleased := (hsound.handover a).post_committed hc
      rw [ho, hlinked] at hreleased
      exact ⟨id, out, tok, hc, ho, (Post.released.inj hreleased).1.symm, hd⟩

/-- A stage ends as its source decided: it becomes active by a commit to its own host, or it
is stopped by a cancellation. The token of the other kind cannot exist, so no stage of a
committed migration is ever stopped, and no generation of a company becomes active twice. -/
theorem stages_decided (hosted : Function.Injective Primitives.digestHost)
    (hw : Network.Reached hosts home w) {a : HostRef} {id : Uuid} {stage : InboundMigration}
    (found : (w.state a).incoming.get? id = some stage) :
    Decided w a id stage ∧
    (∀ t b, (stage.manifest.source, t) ∈ w.handed → t.body = .commit b → b.migrationId = id →
      stage.aborted = false) ∧
    (∀ t b, (stage.manifest.source, t) ∈ w.handed → t.body = .cancel b → b.migrationId = id →
      stage.activated = false) ∧
    ∀ a' id' stage', (w.state a').incoming.get? id' = some stage' →
      stage.activated = true → stage'.activated = true →
      stage.manifest.organizationId = stage'.manifest.organizationId →
      stage.manifest.generation = stage'.manifest.generation → a = a' ∧ id = id' := by
  have hsound := hw.sound hosted
  have hdecided := hsound.decided a id stage found
  refine ⟨hdecided, ?_, ?_, ?_⟩
  · intro t b ht hb hid
    obtain ⟨out, hc⟩ := hsound.commit_filed ht hb
    rw [hid] at hc
    cases haborted : stage.aborted with
    | false => rfl
    | true =>
      obtain ⟨out', tok, hfound, htoken⟩ := hdecided.aborted haborted
      obtain rfl := Option.some.inj (hfound.symm.trans hc.found)
      have hnone := (hsound.handover _).exclusive id out' _ hc
      rw [htoken] at hnone
      cases hnone
  · intro t b ht hb hid
    obtain ⟨out, hfound, htoken⟩ := hsound.cancel_filed ht hb
    rw [hid] at hfound
    cases hactivated : stage.activated with
    | false => rfl
    | true =>
      obtain ⟨out', tok, hc, -⟩ := hdecided.activated hactivated
      obtain rfl := Option.some.inj (hfound.symm.trans hc.found)
      have hnone := (hsound.handover _).exclusive id out _ hc
      rw [htoken] at hnone
      cases hnone
  · intro a' id' stage' found' hactivated hactivated' hcompany hgeneration
    obtain ⟨out, tok, hc, horg, hgen, hdest⟩ := hdecided.activated hactivated
    obtain ⟨out', tok', hc', horg', hgen', hdest'⟩ :=
      (hsound.decided a' id' stage' found').activated hactivated'
    have hpost := (hsound.handover _).post_committed hc
    have hpost' := (hsound.handover _).post_committed hc'
    rw [horg, hgen, hdest] at hpost
    rw [horg', hgen', hdest', ← hcompany, ← hgeneration] at hpost'
    obtain ⟨places, hline⟩ := hw.line hosted stage.manifest.organizationId
    have hsource : stage.manifest.source = stage'.manifest.source := by
      apply hline.unique (g := stage.manifest.generation)
      · rw [hpost]
        rfl
      · rw [hpost']
        rfl
    rw [hsource] at hpost hc
    constructor
    · exact (Post.released.inj (hpost.symm.trans hpost')).2
    · apply (hsound.handover _).single id out tok hc id' out' tok' hc'
      rw [horg, horg', hcompany]

def hostA : HostRef := ⟨"a", 100⟩

def hostB : HostRef := ⟨"b", 200⟩

/-- A company founded at host `a` moves to host `b`. -/
def movedManifest : MigrationManifest :=
  ⟨4, 1005, 1, hostA, hostB, 0, 1, [1], 3600000⟩

def movedReady : Signed ReadyBody :=
  ⟨⟨⟨"b", 0, 3600000⟩, 4, 4, 1005, 1, hostA, hostB, 0⟩, 200, 200⟩

def movedCommit : Signed CommitBody :=
  ⟨⟨⟨"a", 0, 3600000⟩, 4, 4, 1005, 1, hostA, hostB, 0, movedReady⟩, 100, 100⟩

def foundingCommands : List Command :=
  [sampleCommand "a" 0 1 none (.mutation (.personRegister [1])),
    sampleCommand "a" 0 2 (some 1005) (.mutation (.organizationCreate "acme" 5 [1] 1))]

def movingCommands : List Command :=
  [sampleCommand "a" 0 4 (some 1005) (.mutation (.migrationPrepare hostB)),
    sampleCommand "b" 0 1 none (.mutation (.personRegister [1])),
    sampleCommand "b" 0 2 none
      (.migrationStage ⟨.manifest ⟨⟨"a", 0, 3600000⟩, 1, movedManifest⟩, 100, 100⟩),
    sampleCommand "b" 0 3 none (.migrationUpload 4 0 (b64 [1])),
    sampleCommand "b" 0 4 none (.migrationReady 4),
    sampleCommand "a" 0 5 (some 1005) (.migrationCommit 4 (movedReady.map .ready))]

def finalizingCommand : Command :=
  sampleCommand "b" 0 6 none (.migrationFinalize 4 (movedCommit.map .commit))

/-- The company as it is exported. -/
def foundedSnapshot : Snapshot :=
  letI := samplePrimitives none
  letI := sampleReducers
  Outcome.value ⟨"", ⟨0, "", [], 0, 0, .active, ∅, ∅, ∅, []⟩, [], [], [], [], [], [], ∅⟩
    (buildSnapshot (finalState (run emptyState
      (foundingCommands.map fun c => (c, sampleContext "a" 0)))) 1005 (sampleContext "a" 0))

@[reducible] def networkPrimitives : Primitives :=
  { samplePrimitives (some foundedSnapshot) with
    digestHost := fun h => Encodable.encode (h.audience.toList.map Char.toNat, h.keyId)
    digestSnapshot := fun snap => if snap = foundedSnapshot then 0 else 1 }

omit [Primitives] [Reducers] in
theorem networkPrimitives_digestHost : Function.Injective networkPrimitives.digestHost := by
  intro g h heq
  have hpair := Encodable.encode_injective heq
  obtain ⟨audience, key⟩ := g
  obtain ⟨audience', key'⟩ := h
  simp only [Prod.mk.injEq] at hpair
  have hnat : Function.Injective Char.toNat := fun _ _ hab => Char.toNat_inj.mp hab
  have hchars := List.map_injective_iff.mpr hnat hpair.1
  rw [String.toList_injective hchars, hpair.2]

/-- A command at one of the two hosts, with checks that make the hosts honest. -/
def atTwoHosts (w : Network) (c : Command) : Attempt Network := do
  let ctx := sampleContext c.audience 0
  demand (ctx.host = hostA ∨ ctx.host = hostB) "" "" 0
  demand (∀ token ∈ c.payload.presented,
    (⟨token.body.stamp.issuer, token.keyId⟩, token) ∈ w.handed) "" "" 0
  demand (ctx.host = hostA ∨ c.payload.founds = false) "" "" 0
  let next ← execute (w.state ctx.host) c ctx
  pure (w.after ctx.host next.1 next.2)

theorem atTwoHosts_eq_ok {v : Network} (h : atTwoHosts w c = .ok v) :
    Honest {hostA, hostB} (fun _ => hostA) w (sampleContext c.audience 0).host c
        (sampleContext c.audience 0) ∧
      ∃ s result, execute (w.state (sampleContext c.audience 0).host) c
          (sampleContext c.audience 0) = .ok (s, result) ∧
        v = w.after (sampleContext c.audience 0).host s result := by
  simp only [atTwoHosts, Outcome.bind_eq_ok, demand_eq_ok, exists_const,
    Outcome.pure_eq_ok] at h
  obtain ⟨hhost, hpresented, hfounds, ⟨s, result⟩, hexecute, rfl⟩ := h
  refine ⟨⟨hhost, rfl, ?_, ?_, ?_⟩, s, result, hexecute, rfl⟩
  · intro a k hk
    simp only [sampleContext] at hk
    split at hk
    next ha =>
      left
      rw [ha, ← Option.some.inj hk]
      rfl
    · split at hk
      next hb =>
        right
        rw [hb, ← Option.some.inj hk]
        rfl
      · cases hk
  · intro token htoken a _ hkey hissuer _
    have hmem := hpresented token htoken
    rw [hkey, hissuer] at hmem
    exact ⟨token, hmem, rfl, rfl⟩
  · intro hpayload o _
    rcases hfounds with hself | hnone
    · exact hself.symm
    · rw [hpayload] at hnone
      cases hnone

theorem Network.Reached.atTwoHosts {commands : List Command}
    (hw : Network.Reached {hostA, hostB} (fun _ => hostA) w) {v : Network}
    (h : commands.foldlM DirectTrade.atTwoHosts w = .ok v) :
    Network.Reached {hostA, hostB} (fun _ => hostA) v := by
  refine Outcome.foldlM_invariant (Network.Reached {hostA, hostB} fun _ => hostA) _ commands
    ?_ hw h
  intro c _ u v hu hstep
  obtain ⟨honest, s, result, hexecute, rfl⟩ := atTwoHosts_eq_ok hstep
  exact hu.turn honest hexecute

/-- The network that some commands make of the two empty hosts. -/
def twoHosts (commands : List Command) : Network :=
  letI := networkPrimitives
  letI := sampleReducers
  Outcome.value .start (commands.foldlM atTwoHosts .start)

def committedNetwork : Network := twoHosts (foundingCommands ++ movingCommands)

def movedNetwork : Network :=
  twoHosts (foundingCommands ++ movingCommands ++ [finalizingCommand])

omit [Primitives] [Reducers] in
theorem reached_twoHosts {commands : List Command}
    (h : letI := networkPrimitives; letI := sampleReducers
      (commands.foldlM atTwoHosts .start).toBool = true) :
    @Network.Reached networkPrimitives sampleReducers {hostA, hostB} (fun _ => hostA)
      (twoHosts commands) := by
  let := networkPrimitives
  let := sampleReducers
  exact Network.Reached.start.atTwoHosts (Outcome.eq_value .start h)

omit [Primitives] [Reducers] in
theorem reached_movedNetwork :
    @Network.Reached networkPrimitives sampleReducers {hostA, hostB} (fun _ => hostA)
      movedNetwork := by
  exact reached_twoHosts (by decide)

omit [Primitives] [Reducers] in
theorem single_active_host_sample :
    (∃ x, (movedNetwork.state hostB).organizations.get? 1005 = some x ∧ x.generation = 2) ∧
      ∀ y, (movedNetwork.state hostA).organizations.get? 1005 = some y →
        y.status = .migrated ∧ y.generation < 2 := by
  let := networkPrimitives
  let := sampleReducers
  have hactive : ((movedNetwork.state hostB).organizations.get? 1005).any
      (fun x => decide (x.status = .active ∧ x.generation = 2)) = true := by decide
  obtain ⟨x, hx, hboth⟩ := (Option.any_eq_true _ _).mp hactive
  obtain ⟨hstatus, hgeneration⟩ := of_decide_eq_true hboth
  have hsingle := single_active_host networkPrimitives_digestHost reached_movedNetwork
  refine ⟨⟨x, hx, hgeneration⟩, fun y hy => ?_⟩
  rw [← hgeneration]
  exact hsingle.1 hostB hostA 1005 x y hx hstatus hy (by decide)

omit [Primitives] [Reducers] in
theorem company_lineage_sample : ∃ places : List HostRef, places.Nodup ∧ places.length = 2 ∧
    hostA ∈ places ∧ hostB ∈ places := by
  let := networkPrimitives
  let := sampleReducers
  obtain ⟨places, hnodup, -, hmem, hgeneration, -⟩ :=
    company_lineage networkPrimitives_digestHost reached_movedNetwork 1005
  have hactive : ((movedNetwork.state hostB).organizations.get? 1005).any
      (fun x => decide (x.status = .active ∧ x.generation = 2)) = true := by decide
  obtain ⟨x, hx, hboth⟩ := (Option.any_eq_true _ _).mp hactive
  obtain ⟨hstatus, htwo⟩ := of_decide_eq_true hboth
  have hb := (hmem hostB).mpr (by rw [hx]; rfl)
  obtain ⟨i, hi⟩ := List.mem_iff_getElem?.mp hb
  obtain ⟨hindex, hlength⟩ := hgeneration i hostB x hi hx
  refine ⟨places, hnodup, ?_, (hmem hostA).mpr (by decide), hb⟩
  rw [hlength hstatus, ← hindex, htwo]

omit [Primitives] [Reducers] in
theorem stages_decided_sample : ∃ stage, (movedNetwork.state hostB).incoming.get? 4 = some stage ∧
    stage.activated = true ∧ Decided movedNetwork hostB 4 stage := by
  let := networkPrimitives
  let := sampleReducers
  have hactivated : ((movedNetwork.state hostB).incoming.get? 4).any (·.activated) = true := by
    decide
  obtain ⟨stage, hstage, htrue⟩ := (Option.any_eq_true _ _).mp hactivated
  have hdecided := stages_decided networkPrimitives_digestHost reached_movedNetwork hstage
  exact ⟨stage, hstage, htrue, hdecided.1⟩

end DirectTrade
