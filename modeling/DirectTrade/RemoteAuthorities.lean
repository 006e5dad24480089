import DirectTrade.AtMostOnce
import Mathlib.Logic.Relation

/-!
The cached attestations of a host over its calls. A generation never falls back, a host
answers for one generation only, and a new host needs a handoff: one that this host
committed, or one that a relocation proves hop by hop.
-/

namespace DirectTrade

open Library

variable [Primitives]

/-- The host that an attestation speaks for. -/
def Signed.location (a : Signed AuthorityBody) : HostRef := ⟨a.body.issuer, a.keyId⟩

def State.remote? (s : State) (org : Uuid) : Option (Signed AuthorityBody) :=
  (s.remoteAuthorities.get? org).map (·.token)

omit [Primitives] in
@[simp] theorem remote?_eq_some (s : State) (org : Uuid) (a : Signed AuthorityBody) :
    s.remote? org = some a ↔ s.remoteAuthorities.get? org = some ⟨a⟩ := by
  simp only [State.remote?, Option.map_eq_some_iff]
  constructor
  · rintro ⟨⟨_⟩, hstored, heq⟩
    exact heq ▸ hstored
  · intro h
    exact ⟨⟨a⟩, h, rfl⟩

/-- The company is not here, or it left before the attested generation. -/
def Uncontradicted (s : State) (a : Signed AuthorityBody) : Prop :=
  ∀ o, s.organizations.get? a.body.organizationId = some o →
    o.status = .migrated ∧ o.generation < a.body.generation

/-- A commit of this host hands the company over to the attested host. -/
def HandedOver (s : State) (a : Signed AuthorityBody) : Prop :=
  ∃ id out, s.outgoing.get? id = some out ∧ out.commitToken.isSome = true ∧
    out.manifest.organizationId = a.body.organizationId ∧
    out.manifest.generation + 1 = a.body.generation ∧ out.manifest.destination = a.location

/-- The command relocates the company by a commit of the cached host, at the cached
generation, to the attested host. -/
structure Relocates (c : Command) (ctx : Context) (old new : Signed AuthorityBody)
    (proof : SignedToken) (commit : CommitBody) : Prop where
  payload : c.payload = .authorityRelocate (new.map .authority) proof
  verified : historicalToken TokenBody.commit? proof ctx = .ok commit
  issuer : commit.issuer = commit.source.audience ∧ proof.keyId = commit.source.keyId
  company : commit.organizationId = old.body.organizationId
  source : commit.source = old.location
  generation : commit.generation = old.body.generation ∧
    new.body.generation = old.body.generation + 1
  destination : commit.destination = new.location

omit [Primitives] in
theorem localHandoff_eq_true (s : State) (b : AuthorityBody) (key : KeyId)
    (signature : Signature) : localHandoff s b key = true ↔ HandedOver s ⟨b, key, signature⟩ := by
  simp only [localHandoff, List.any_eq_true, Bool.and_eq_true, decide_eq_true_eq,
    Dict.mem_values_iff, HandedOver, Signed.location]
  constructor
  · rintro ⟨out, ⟨id, found⟩, ⟨⟨committed, company⟩, generation⟩, destination⟩
    exact ⟨id, out, found, committed, company, generation, destination⟩
  · rintro ⟨id, out, found, committed, company, generation, destination⟩
    exact ⟨out, ⟨id, found⟩, ⟨⟨committed, company⟩, generation⟩, destination⟩

omit [Primitives] in
/-- The body that a verified token carries. -/
theorem authority?_eq_some {token : SignedToken} {b : AuthorityBody}
    (h : TokenBody.authority? token.body = some b) :
    token = (⟨b, token.keyId, token.signature⟩ : Signed AuthorityBody).map .authority := by
  obtain ⟨body, key, signature⟩ := token
  cases body <;> simp_all [TokenBody.authority?, Signed.map]

theorem Call.Attests.uncontradicted {s : State} {token : SignedToken} {ctx : Context}
    {hop : Option Digest} {b : AuthorityBody} (h : Attests s token ctx hop b) :
    Uncontradicted s ⟨b, token.keyId, token.signature⟩ := by
  intro o ho
  have ho : s.organizations.get? b.organizationId = some o := ho
  have helsewhere := h.elsewhere
  rw [ho] at helsewhere
  simpa using helsewhere

/-- A new location needs a handoff of this host or a verified hop from the cached one. -/
theorem Call.Attests.moves {s : State} {token : SignedToken} {ctx : Context}
    {hop : Option Digest} {b : AuthorityBody} (h : Attests s token ctx hop b)
    {old : Signed AuthorityBody} (hold : s.remote? b.organizationId = some old)
    (moved : old.location ≠ ⟨b.issuer, token.keyId⟩) :
    HandedOver s ⟨b, token.keyId, token.signature⟩ ∨
      hop = some (Primitives.digestToken (old.map .authority)) := by
  have hcontinues := h.continues old hold
  have hchanged : b.issuer ≠ old.body.issuer ∨ token.keyId ≠ old.keyId := by
    by_contra hsame
    push Not at hsame
    exact moved (by rw [Signed.location, hsame.1, hsame.2])
  rw [DirectTrade.continues] at hcontinues
  simp only [Outcome.bind_eq_ok, demand_eq_ok, exists_const, if_pos hchanged,
    Bool.or_eq_true, decide_eq_true_eq] at hcontinues
  exact hcontinues.2.1.imp (localHandoff_eq_true s b token.keyId token.signature).mp id

/-- What a relocation checks before it accepts the new attestation. -/
theorem authorityRelocate_relocates {s s' : State} {token proof : SignedToken} {ctx : Context}
    {result : Result} {c : Command} (payload : c.payload = .authorityRelocate token proof)
    (h : authorityRelocate s token proof ctx = .ok (s', result)) :
    ∃ b old, Call.Attests s token ctx (some (Primitives.digestToken (old.map .authority))) b ∧
      s' = Call.attested s token b ∧ s.remote? b.organizationId = some old ∧
      (Primitives.digestToken (old.map .authority) ≠ Primitives.digestToken token →
        ∃ commit, Relocates c ctx old ⟨b, token.keyId, token.signature⟩ proof commit) := by
  simp only [authorityRelocate, Outcome.bind_eq_ok, demand_eq_ok, require_eq_ok,
    exists_const] at h
  obtain ⟨next, hnext, old, hold, old', hold', commit, hcommit, hchain, hdestination, ready, -,
    -, -, accepted⟩ := h
  obtain ⟨b, attests, rfl, -⟩ := Call.acceptAuthority_attests accepted
  obtain rfl : b = next := Except.ok.inj (attests.verified.symm.trans hnext)
  have hbody := verifyToken_select attests.verified
  have hself : old' = old.body := by
    have hverified := hold'
    simp only [historicalToken, Outcome.bind_eq_ok] at hverified
    obtain ⟨_, -, hverified⟩ := hverified
    simpa [Signed.map, TokenBody.authority?, eq_comm] using verifyToken_select hverified
  subst hself
  refine ⟨b, old, attests, rfl, hold, fun hdiffers => ⟨commit, ?_⟩⟩
  obtain ⟨hcompany, -, hissuer, hkey, hstep⟩ := hchain
  rw [if_neg hdiffers] at hstep
  obtain ⟨hgeneration, hnextGeneration, hsource⟩ := hstep
  refine ⟨?_, hcommit, ⟨hissuer, hkey⟩, hcompany, hsource, ⟨hgeneration, hnextGeneration⟩,
    hdestination.1⟩
  rw [← authority?_eq_some hbody]
  exact payload

variable [Reducers]

/-- A command that brings no attestation leaves the cached ones as they are. -/
theorem Accepted.remoteAuthorities {s : State} {c : Command} {ctx : Context}
    {signed : List KeyId} {reply : Reply} (keyed : Keyed s) (h : Accepted s c ctx signed reply)
    (import_ : ∀ token, c.payload ≠ .authorityImport token)
    (relocate : ∀ token commit, c.payload ≠ .authorityRelocate token commit) :
    (reply.next c).remoteAuthorities = s.remoteAuthorities := by
  have hpush : ∀ t : State, (pushHistory t c).remoteAuthorities = t.remoteAuthorities := by
    intro t
    unfold pushHistory
    split <;> rfl
  have hset : ∀ o, ((callOf s c ctx signed).setOrg o).remoteAuthorities =
      s.remoteAuthorities := by
    intro o
    unfold Call.setOrg
    split <;> rfl
  cases h.effect with
  | found orgId name nonce controllers threshold payload founds =>
    exact (hpush _).trans (hset _)
  | company o o' m result payload fresh inside change => exact (hpush _).trans (hset _)
  | append o p profile before t company validation payload appends assessed =>
    obtain rfl : s = t := (counterparties_eq keyed.remoteAuthorities appends.attested).symm
    cases company <;> rfl
  | duplicate o p profile before t company recordId recorded payload appends assessed known =>
    obtain rfl : s = t := (counterparties_eq keyed.remoteAuthorities appends.attested).symm
    rfl
  | attest token hop b payload attests =>
    rcases payload with payload | ⟨commit, payload⟩
    · exact absurd payload (import_ token)
    · exact absurd payload (relocate token commit)
  | _ => rfl

/-- The handler behind an accepted command. -/
theorem execute_dispatch {s s' : State} {c : Command} {ctx : Context} {result : Option Result}
    (h : execute s c ctx = .ok (s', result)) :
    ∃ signed reply, (callOf s c ctx signed).dispatch = .ok reply ∧ s' = settle c ctx reply := by
  simp only [execute, Outcome.bind_eq_ok, Outcome.pure_eq_ok, Prod.mk.injEq] at h
  obtain ⟨_, -, signed, -, _, -, _, -, reply, dispatched, rfl, -⟩ := h
  exact ⟨signed, reply, dispatched, rfl⟩

/-- What a host checks of an attestation that it accepts. -/
structure Accepts (s : State) (c : Command) (ctx : Context) (new : Signed AuthorityBody) :
    Prop where
  uncontradicted : Uncontradicted s new
  moves : ∀ old, s.remote? new.body.organizationId = some old → old.location ≠ new.location →
    HandedOver s new ∨ ∃ proof commit, Relocates c ctx old new proof commit

/-- A relocation's attestation and the cached ones have digests of their own. -/
def DistinctTokens (s : State) (c : Command) : Prop :=
  ∀ token proof, c.payload = .authorityRelocate token proof →
    ∀ org old, s.remote? org = some old →
      Primitives.digestToken (old.map .authority) = Primitives.digestToken token →
        old.map .authority = token

theorem execute_import {s s' : State} {c : Command} {ctx : Context} {result : Option Result}
    {token : SignedToken} (payload : c.payload = .authorityImport token)
    (h : execute s c ctx = .ok (s', result)) :
    ∃ new : Signed AuthorityBody, token = new.map .authority ∧ Accepts s c ctx new ∧
      s'.remoteAuthorities = s.remoteAuthorities.set new.body.organizationId ⟨new⟩ := by
  obtain ⟨signed, reply, dispatched, rfl⟩ := execute_dispatch h
  have hpayload : (callOf s c ctx signed).c.payload = .authorityImport token := payload
  simp only [Call.dispatch, hpayload, Call.authorityImport, authorityAccept, Outcome.bind_eq_ok,
    Outcome.pure_eq_ok] at dispatched
  obtain ⟨_, -, _, -, ⟨t, answer⟩, accepted, rfl⟩ := dispatched
  obtain ⟨b, attests, rfl, -⟩ := Call.acceptAuthority_attests accepted
  refine ⟨⟨b, token.keyId, token.signature⟩,
    authority?_eq_some (verifyToken_select attests.verified), ⟨attests.uncontradicted, ?_⟩, rfl⟩
  intro old hold hmoved
  exact .inl ((attests.moves hold hmoved).resolve_right (by simp))

theorem execute_relocate {s s' : State} {c : Command} {ctx : Context} {result : Option Result}
    {token proof : SignedToken} (payload : c.payload = .authorityRelocate token proof)
    (distinct : DistinctTokens s c) (h : execute s c ctx = .ok (s', result)) :
    ∃ new : Signed AuthorityBody, token = new.map .authority ∧ Accepts s c ctx new ∧
      s'.remoteAuthorities = s.remoteAuthorities.set new.body.organizationId ⟨new⟩ := by
  obtain ⟨signed, reply, dispatched, rfl⟩ := execute_dispatch h
  have hpayload : (callOf s c ctx signed).c.payload = .authorityRelocate token proof := payload
  simp only [Call.dispatch, hpayload, Call.authorityRelocate, Outcome.bind_eq_ok,
    Outcome.pure_eq_ok] at dispatched
  obtain ⟨_, -, _, -, ⟨t, answer⟩, accepted, rfl⟩ := dispatched
  obtain ⟨b, old, attests, rfl, hold, hrelocates⟩ := authorityRelocate_relocates payload accepted
  have htoken := authority?_eq_some (verifyToken_select attests.verified)
  refine ⟨⟨b, token.keyId, token.signature⟩, htoken, ⟨attests.uncontradicted, ?_⟩, rfl⟩
  intro old' hold' hmoved
  obtain rfl := Option.some.inj (hold.symm.trans hold')
  by_cases hsame : Primitives.digestToken (old.map .authority) = Primitives.digestToken token
  · have hequal := distinct token proof payload _ old hold hsame
    refine absurd ?_ hmoved
    rw [htoken] at hequal
    simp only [Signed.map, Signed.mk.injEq, TokenBody.authority.injEq] at hequal
    simp only [Signed.location, hequal.1, hequal.2.1]
  · obtain ⟨commit, hcommit⟩ := hrelocates hsame
    exact .inr ⟨proof, commit, hcommit⟩

omit [Reducers] in
/-- A counterparty of a new record is active here, or its cached attestation passes again. -/
theorem counterparties_checked {k : Call} {parties : List Uuid} {s : State}
    (named : k.s.remoteAuthorities.Named fun a => a.token.body.organizationId)
    (h : k.counterparties parties = .ok s) {party : Uuid} (hparty : party ∈ parties) :
    (∃ o, k.s.organizations.get? party = some o ∧ o.status = .active) ∨
      ∃ a, k.s.remote? party = some a ∧ Uncontradicted k.s a := by
  obtain ⟨before, rest, rfl⟩ := List.append_of_mem hparty
  obtain ⟨t, u, hbefore, hstep, -⟩ := Outcome.foldlM_split h
  obtain rfl := counterparties_eq named hbefore
  split at hstep
  · rename_i hactive
    obtain ⟨o, ho, hactive⟩ := (Option.any_eq_true _ _).mp hactive
    exact .inl ⟨o, ho, of_decide_eq_true hactive⟩
  · simp only [requireRemoteAuthority, authorityAccept, Outcome.bind_eq_ok, require_eq_ok] at hstep
    obtain ⟨stored, found, ⟨_, _⟩, accepted, -⟩ := hstep
    obtain ⟨b, attests, -, -⟩ := Call.acceptAuthority_attests accepted
    refine .inr ⟨stored.token, (remote?_eq_some _ _ _).mpr found, ?_⟩
    have hbody := verifyToken_select attests.verified
    simp only [Signed.map, TokenBody.authority?, Option.some.injEq] at hbody
    have huncontradicted := attests.uncontradicted
    simp only [Uncontradicted, ← hbody] at huncontradicted ⊢
    exact huncontradicted

theorem execute_append {s s' : State} {c : Command} {ctx : Context} {result : Option Result}
    {p : RecordPayload} (payload : c.payload = .mutation (.recordAppend p))
    (fresh : s.receipts.get? c.requestId = none) (h : execute s c ctx = .ok (s', result)) :
    ∃ signed t, (callOf s c ctx signed).counterparties p.counterpartyIds = .ok t := by
  obtain ⟨signed, reply, dispatched, -⟩ := execute_dispatch h
  have hpayload : (callOf s c ctx signed).c.payload = .mutation (.recordAppend p) := payload
  have hprevious : (callOf s c ctx signed).previous = none := fresh
  simp only [Call.dispatch, hpayload, Call.mutate, Call.recordAppend, hprevious,
    Outcome.bind_eq_ok] at dispatched
  obtain ⟨_, -, _, -, _, -, _, -, _, -, _, -, _, -, _, -, _, -, _, -, t, attested, -⟩ := dispatched
  exact ⟨signed, t, attested⟩

/-- The router's transaction around one command: a refused command, or one whose state
exceeds the store, leaves the stored state. -/
def handle (fits : State → Bool) (s : State) (c : Command) (ctx : Context) : State :=
  match execute s c ctx with
  | .ok (t, _) => if fits t then t else s
  | .error _ => s

/-- Some call was handled, accepted or not. -/
def Handled (fits : State → Bool) (s t : State) : Prop := ∃ c ctx, t = handle fits s c ctx

theorem handle_cases (fits : State → Bool) (s : State) (c : Command) (ctx : Context) :
    handle fits s c ctx = s ∨ ∃ result, execute s c ctx = .ok (handle fits s c ctx, result) := by
  unfold handle
  split
  · rename_i t result hexecute
    split
    · exact .inr ⟨result, hexecute⟩
    · exact .inl rfl
  · exact .inl rfl

theorem Handled.keeps {fits : State → Bool} {s t : State} (reachable : Reachable s)
    (h : Relation.ReflTransGen (Handled fits) s t) : Reachable t ∧ Keeps s t := by
  induction h with
  | refl => exact ⟨reachable, Keeps.refl s⟩
  | tail _ hstep ih =>
    obtain ⟨c, ctx, rfl⟩ := hstep
    rcases handle_cases fits _ c ctx with heq | ⟨result, hexecute⟩
    · rwa [heq]
    · exact ⟨ih.1.step hexecute, ih.2.trans (Keeps.execute ih.1.keyed hexecute)⟩

omit [Reducers] in
theorem RemoteAuthority.Continues.advances {a b : RemoteAuthority} (h : a.Continues b) :
    a.token.body.generation ≤ b.token.body.generation ∧
      (b.token.body.generation = a.token.body.generation →
        b.token.location = a.token.location ∧ a.token.body.issuedAt ≤ b.token.body.issuedAt) := by
  cases h with
  | generation hlt => exact ⟨hlt.le, fun heq => absurd heq.symm hlt.ne⟩
  | observed generation issuer keyId issuedAt =>
    exact ⟨generation.ge, fun _ => ⟨by rw [Signed.location, Signed.location, issuer, keyId],
      issuedAt.le⟩⟩
  | same hsame =>
    exact ⟨hsame.generation.ge, fun _ => ⟨by
      rw [Signed.location, Signed.location, hsame.issuer, hsame.keyId], hsame.issuedAt.ge⟩⟩

/-- Over any calls of a host the cached attestations only move forward, and the next call
changes one only by an import or a relocation that passed every check. -/
theorem remote_authority_moves_forward (fits : State → Bool) {s t : State}
    (reachable : Reachable s) (handled : Relation.ReflTransGen (Handled fits) s t)
    (c : Command) (ctx : Context) (distinct : DistinctTokens t c) :
    (∀ org a, s.remote? org = some a → ∃ b, t.remote? org = some b ∧
      a.body.generation ≤ b.body.generation ∧
      (b.body.generation = a.body.generation →
        b.location = a.location ∧ a.body.issuedAt ≤ b.body.issuedAt)) ∧
    ((execute t c ctx).toBool = false →
      (handle fits t c ctx).remoteAuthorities = t.remoteAuthorities) ∧
    ∀ u result, execute t c ctx = .ok (u, result) →
      (∀ token, (c.payload = .authorityImport token ∨
          ∃ proof, c.payload = .authorityRelocate token proof) →
        ∃ new : Signed AuthorityBody, token = new.map .authority ∧ Accepts t c ctx new ∧
          u.remoteAuthorities = t.remoteAuthorities.set new.body.organizationId ⟨new⟩) ∧
      ((∀ token, c.payload ≠ .authorityImport token) →
        (∀ token proof, c.payload ≠ .authorityRelocate token proof) →
          u.remoteAuthorities = t.remoteAuthorities) ∧
      ∀ p, c.payload = .mutation (.recordAppend p) → t.receipts.get? c.requestId = none →
        ∀ party ∈ p.counterpartyIds,
          (∃ o, t.organizations.get? party = some o ∧ o.status = .active) ∨
            ∃ a, t.remote? party = some a ∧ Uncontradicted t a := by
  obtain ⟨reachable', keeps⟩ := Handled.keeps reachable handled
  refine ⟨?_, ?_, fun u result hexecute => ⟨?_, ?_, ?_⟩⟩
  · intro org a ha
    obtain ⟨b, hb, hcontinues⟩ :=
      keeps.remoteAuthorities org ⟨a⟩ ((remote?_eq_some _ _ _).mp ha)
    exact ⟨b.token, (remote?_eq_some _ _ _).mpr hb, hcontinues.advances⟩
  · intro hrefused
    rcases handle_cases fits t c ctx with heq | ⟨result, hexecute⟩
    · rw [heq]
    · simp [hexecute, Except.toBool] at hrefused
  · rintro token (payload | ⟨proof, payload⟩)
    · exact execute_import payload hexecute
    · exact execute_relocate payload distinct hexecute
  · intro himport hrelocate
    obtain ⟨signed, reply, accepted, rfl, -⟩ := execute_eq_ok hexecute
    exact accepted.remoteAuthorities reachable'.keyed himport hrelocate
  · intro p payload fresh party hparty
    obtain ⟨signed, u, attested⟩ := execute_append payload fresh hexecute
    exact counterparties_checked (k := callOf t c ctx signed)
      reachable'.keyed.remoteAuthorities attested hparty

/-- The attestation of host `a` for the company 77 in a generation. -/
def sampleObservation (generation : ℕ) (at_ : Instant) : SignedToken :=
  ⟨.authority ⟨⟨"a", at_, at_ + 60000⟩, 77, generation, ⟨"a", 100⟩⟩, 100, 100⟩

/-- The attestation of host `b` for the company in the next generation. -/
def sampleRelocated : SignedToken :=
  ⟨.authority ⟨⟨"b", 1, 60001⟩, 77, 3, ⟨"b", 200⟩⟩, 200, 200⟩

/-- The commit by which host `a` hands the company over to host `b`, which is ready. -/
def sampleHandoff : SignedToken :=
  ⟨.commit ⟨⟨"a", 0, 60000⟩, 4, 4, 77, 2, ⟨"a", 100⟩, ⟨"b", 200⟩, 0,
    ⟨⟨⟨"b", 0, 3600000⟩, 4, 4, 77, 2, ⟨"a", 100⟩, ⟨"b", 200⟩, 0⟩, 200, 200⟩⟩, 100, 100⟩

/-- A call of host `c`, which pins the other two. -/
def sampleObserved (requestId : Uuid) (org : Option Uuid) (payload : Payload) :
    Command × Context :=
  (sampleCommand "c" 0 requestId org payload, { sampleContext "c" 0 with storeKey := 300 })

def sampleObservations : List (Command × Context) :=
  [sampleObserved 1 none (.mutation (.personRegister [1])),
    sampleObserved 2 (some 1005) (.mutation (.organizationCreate "acme" 5 [1] 1)),
    sampleObserved 3 (some 1005) (.authorityImport (sampleObservation 2 0))]

omit [Primitives] [Reducers] in
/-- An older generation is refused and leaves the cache, a newer one takes its place, and so
does the attestation of another host with the handoff to it. -/
theorem remote_authority_moves_forward_sample :
    letI := samplePrimitives none
    letI := sampleReducers
    let t := finalState (run emptyState sampleObservations)
    let older := sampleObserved 4 (some 1005) (.authorityImport (sampleObservation 1 0))
    let newer := sampleObserved 5 (some 1005) (.authorityImport (sampleObservation 3 0))
    let moved := sampleObserved 6 (some 1005) (.authorityRelocate sampleRelocated sampleHandoff)
    (handle (fun _ => true) t older.1 older.2).remoteAuthorities = t.remoteAuthorities ∧
      (∃ new : Signed AuthorityBody, sampleObservation 3 0 = new.map .authority ∧
        Accepts t newer.1 newer.2 new ∧ (after t newer).1.remoteAuthorities =
          t.remoteAuthorities.set new.body.organizationId ⟨new⟩) ∧
      ∃ new : Signed AuthorityBody, sampleRelocated = new.map .authority ∧
        Accepts t moved.1 moved.2 new ∧ (after t moved).1.remoteAuthorities =
          t.remoteAuthorities.set new.body.organizationId ⟨new⟩ := by
  let := samplePrimitives none
  let := sampleReducers
  intro t older newer moved
  have ht : Reachable t := Reachable.finalState (by decide)
  have hdistinct : ∀ token : SignedToken, ∀ entry : Command × Context,
      entry.1.payload = .authorityImport token → DistinctTokens t entry.1 := by
    intro token entry payload token' proof payload'
    simp [payload] at payload'
  have hcached : ∀ a ∈ t.remoteAuthorities.values,
      Primitives.digestToken (a.token.map .authority) ≠
        Primitives.digestToken sampleRelocated := by
    decide
  have hmoved : DistinctTokens t moved.1 := by
    intro token proof payload org old hold hdigest
    cases payload
    exact absurd hdigest (hcached _ (Dict.mem_values_of_get? ((remote?_eq_some _ _ _).mp hold)))
  have holder := remote_authority_moves_forward (fun _ => true) ht .refl older.1 older.2
    (hdistinct _ older rfl)
  have hnewer := remote_authority_moves_forward (fun _ => true) ht .refl newer.1 newer.2
    (hdistinct _ newer rfl)
  have hrelocated := remote_authority_moves_forward (fun _ => true) ht .refl moved.1 moved.2 hmoved
  exact ⟨holder.2.1 (by decide),
    (hnewer.2.2 _ _ (execute_after _ _ (by decide))).1 _ (.inl rfl),
    (hrelocated.2.2 _ _ (execute_after _ _ (by decide))).1 _ (.inr ⟨_, rfl⟩)⟩

end DirectTrade
