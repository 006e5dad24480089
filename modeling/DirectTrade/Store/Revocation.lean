import DirectTrade.Store.Identities

/-!
The order of events respects revocation: the key and the grant under which a record is accepted
are in force as it is committed, so that what removes one of them comes later.
-/

namespace DirectTrade.Store

open Library Library.Outcome Library.Serial

/-- An event whose record no longer lists a key as active that the record before it did. -/
def RemovesKey (db : Db) (e : EventRow) (keyId : String) : Prop :=
  ∃ q r p, db.records.get? e.recordId = some r ∧ r.supersedes = some p ∧
    db.records.get? p = some q ∧ isIdentity r.type ∧ listsActive q.body keyId ∧
      ¬ listsActive r.body keyId

/-- An event that comes in the chain of a grant after the revision which a row holds. -/
def RemovesGrant (db : Db) (e : EventRow) (g : GrantRow) : Prop :=
  e.rootId = g.grantRootId ∧ ∃ r seq, db.records.get? g.grantRecordId = some r ∧
    r.seq = some seq ∧ seq < e.seq

/-- A key is active, or comes with the first record of its owner. -/
def InForce (db : Db) (env : Envelope) (keyId : String) : Prop :=
  (∃ row, db.keys.get? keyId = some row ∧ row.status = .active) ∨
    (env.supersedes = none ∧ isIdentity env.type ∧ db.keys.get? keyId = none ∧
      listsActive env.body keyId)

theorem InForce.not_revoked {db : Db} {env : Envelope} {keyId : String}
    (h : InForce db env keyId) : ¬ db.revoked keyId := by
  rintro ⟨row, hrow, hrevoked⟩
  rcases h with ⟨row', hrow', hactive⟩ | ⟨-, -, hnone, -⟩
  · obtain rfl := Option.some.inj (hrow.symm.trans hrow')
    exact nomatch hactive.symm.trans hrevoked
  · exact nomatch hnone.symm.trans hrow

/-- The caller of a company's key that signed is the one that the envelope names. -/
theorem authorizeIssuer_eq_ok {p : Principal} {env : Envelope} {info : TypeInfo}
    (h : authorizeIssuer p env info = .ok ()) : env.issuer.keyId = p.keyId ∧
      (p.kind = .company → env.issuer.moduleId = none) := by
  simp only [authorizeIssuer, bind_eq_ok, demand_eq_ok] at h
  obtain ⟨_, hkey, h⟩ := h
  refine ⟨hkey, ?_⟩
  intro hkind
  simp only [hkind, bind_eq_ok, demand_eq_ok] at h
  obtain ⟨_, hmodule, -⟩ := h
  exact hmodule

section
variable [Platform]

/-- The keys that a request needs: the one that signed the record, and the caller's. -/
inductive UnderKey (db : Db) (req : Request) : String → Prop
  | signing : UnderKey db req req.input.issuer.keyId
  | bearer {token : String} {p : Principal} {row : KeyRow} (htoken : req.token = some token)
      (h : Holds db token p row) : UnderKey db req p.keyId

/-- The grants that let a module write what it requests. -/
def UnderGrant (db : Db) (req : Request) (g : GrantRow) : Prop :=
  ∃ token p row, req.token = some token ∧ Holds db token p row ∧ p.kind = .module ∧
    g ∈ db.grantsOf p ∧ g.grantorCompanyId = req.input.issuer.companyId ∧
      grantCovers g req.input.type "write" req.now = true

theorem inForce_of_activeRoot {kind : PrincipalKind} {owner : String} {ctx : Context}
    {env : Envelope} {info : TypeInfo} {s t : Db} {seq : ℕ}
    (h : Founded kind owner ctx env info s t seq) (hidentity : isIdentity env.type)
    (hsigning : isActiveRoot (keysOf env.body) env.issuer.keyId) :
    InForce s env env.issuer.keyId := by
  obtain ⟨k, hk, -, hactive⟩ := hsigning
  have hmem := List.mem_of_find?_eq_some hk
  have hkey := List.find?_some hk
  rw [beq_iff_eq] at hkey
  refine .inr ⟨h.genesis, hidentity, ?_, k, hmem, hkey, hactive⟩
  rw [← hkey]
  exact (h.inserted k hmem).1

variable {req : Request} {s t : Db} {seq : ℕ}

/-- A caller that was resolved holds an active key. -/
theorem inForce_of_resolve (htidy : Tidy s) {principal : Option Principal}
    (hp : (resolvePrincipal req.token).eval s = .ok principal) {p : Principal}
    (hsome : principal = some p) (env : Envelope) : InForce s env p.keyId := by
  obtain ⟨text, row, -, hholds⟩ := eval_resolvePrincipal htidy hp hsome
  exact .inl ⟨row, hholds.stored, hholds.active⟩

theorem Written.signing_inForce (h : Written req s t seq) (htidy : Tidy s) :
    InForce s req.input req.input.issuer.keyId := by
  cases h with
  | company hp h => exact inForce_of_activeRoot h.toFounded (.inl h.type) h.signing
  | @module _ _ p moduleId hp h =>
    have hsigning := h.signing
    unfold checkModuleIssuer at hsigning
    by_cases hself : req.input.issuer.moduleId = some moduleId
    · rw [if_pos hself, demand_eq_ok] at hsigning
      exact inForce_of_activeRoot h.toFounded (.inr h.type) hsigning
    · rw [if_neg hself] at hsigning
      by_cases hnone : req.input.issuer.moduleId = none
      · rw [if_pos hnone, demand_eq_ok] at hsigning
        rw [← hsigning]
        exact inForce_of_resolve htidy hp h.principal req.input
      · rw [if_neg hnone] at hsigning
        exact nomatch hsigning
  | @record _ _ p _ hp h =>
    rw [(authorizeIssuer_eq_ok h.authorized.issuer).1]
    exact inForce_of_resolve htidy hp h.principal req.input

/-- What a record is accepted under is in force as it is committed. -/
theorem Written.inForce (h : Written req s t seq) (htidy : Tidy s) {keyId : String}
    (hkey : UnderKey s req keyId) : InForce s req.input keyId := by
  cases hkey with
  | signing => exact h.signing_inForce htidy
  | bearer htoken hholds => exact .inl ⟨_, hholds.stored, hholds.active⟩

/-- A module that writes anything but its own first record has a grant for it. -/
theorem Written.underGrant (h : Written req s t seq) (htidy : Tidy s)
    (hmodule : req.input.issuer.moduleId ≠ none) :
    req.input.type = "core.module" ∨ ∃ g, UnderGrant s req g := by
  cases h with
  | company hp h => exact absurd h.issuer.2 hmodule
  | module hp h => exact .inl h.type
  | @record _ _ p _ hp h =>
    right
    obtain ⟨-, hcompany⟩ := authorizeIssuer_eq_ok h.authorized.issuer
    have hkind : p.kind = .module := by
      cases hkind : p.kind with
      | company => exact absurd (hcompany hkind) hmodule
      | module => rfl
    obtain ⟨text, row, htoken, hholds⟩ := eval_resolvePrincipal htidy hp h.principal
    obtain ⟨g, hg, hcovers⟩ := List.any_eq_true.mp (h.authorized.grant hkind)
    rw [Bool.and_eq_true, beq_iff_eq] at hcovers
    exact ⟨g, text, p, row, htoken, hholds, hkind, hg, hcovers.1, hcovers.2⟩

/-- The head of a chain has the greatest number in it. -/
theorem Ledger.seq_le_head {db : Db} {n : ℕ} (h : Ledger db n) {i j : String}
    {r head : RecordRow} (hr : db.records.get? i = some r) (hhead : db.records.get? j = some head)
    (hisHead : head.isHead = true) (hroot : r.rootId = head.rootId) {a b : ℕ}
    (ha : r.seq = some a) (hb : head.seq = some b) : a ≤ b := by
  -- numbers do not exceed the last one that was drawn, so that the way to the head ends
  induction hk : n - a using Nat.strongRecOn generalizing i r a with
  | _ k ih =>
    by_cases hrhead : r.isHead = true
    · have hsame := h.oneHead i r hr j head hhead hrhead hisHead hroot
      rw [hsame] at hr
      obtain rfl := Option.some.inj (hr.symm.trans hhead)
      rw [ha] at hb
      exact Nat.le_of_eq (Option.some.inj hb)
    · rw [h.head i r hr] at hrhead
      push Not at hrhead
      obtain ⟨i', r', hr', hsup⟩ := hrhead
      obtain ⟨q, hq, hlink⟩ := h.linked i' r' hr' i hsup
      obtain rfl := Option.some.inj (hr.symm.trans hq)
      obtain ⟨a', c, ha', hc, hlt⟩ := hlink.later
      obtain rfl := Option.some.inj (ha.symm.trans ha')
      obtain ⟨e, he, -, hseq⟩ := h.event i' r' hr'
      have hbounded := (h.bounded e he).2
      obtain rfl := Option.some.inj (hc.symm.trans hseq)
      have hle := ih (n - e.seq) (by omega) hr' (hlink.root.symm.trans hroot) hc rfl
      omega

/-- An event that is there took its key back before. -/
theorem Standing.revoked_of_removes {n : ℕ} (hs : Standing s n) (h : Extends s n t)
    {e : EventRow} (he : e ∈ s.events) {keyId : String} (hremoves : RemovesKey t e keyId) :
    s.revoked keyId := by
  obtain ⟨q, r, p, hr, hsup, hq, hidentity, hlists, hgone⟩ := hremoves
  obtain ⟨r₀, hr₀, -⟩ := hs.record e he
  obtain ⟨r', hr', henv, -⟩ := h.records _ r₀ hr₀
  obtain rfl := Option.some.inj (hr.symm.trans hr')
  rw [henv] at hsup hidentity hgone
  obtain ⟨q₀, hq₀, -⟩ := hs.linked _ r₀ hr₀ p hsup
  obtain ⟨q', hq', henvq, -⟩ := h.records _ q₀ hq₀
  obtain rfl := Option.some.inj (hq.symm.trans hq')
  rw [henvq] at hlists
  exact hs.withdrawn _ r₀ p q₀ hr₀ hsup hq₀ hidentity keyId hlists hgone

/-- The revision that a row of a grant holds is the last one so far. -/
theorem Standing.not_removesGrant {n : ℕ} (hs : Standing s n) (h : Extends s n t)
    {e : EventRow} (he : e ∈ s.events) {root : String} {g : GrantRow}
    (hg : s.grants.get? root = some g) : ¬ RemovesGrant t e g := by
  rintro ⟨hroot, r, seq', hr, hseq, hlt⟩
  have hname : g.grantRootId = root := hs.grants root g hg
  obtain ⟨head, hhead, hisHead, -, hheadRoot⟩ := hs.grantHead root g hg
  obtain ⟨r', hr', -, hseq'⟩ := h.records _ head hhead
  obtain rfl := Option.some.inj (hr.symm.trans hr')
  rw [hseq] at hseq'
  obtain ⟨r₀, hr₀, hseq₀, heq⟩ := hs.record e he
  have hsame : r₀.rootId = head.rootId := by
    rw [hheadRoot, ← hname, ← hroot, heq]
    rfl
  have hle := hs.toLedger.seq_le_head hr₀ hhead hisHead hsame hseq₀ hseq'.symm
  omega

end

/-- However requests interleave, a new event is of a request whose keys and grants are in force
as it is committed; an event that removes one of them, now or later, has no smaller number. -/
theorem revocation_ordered [Platform] {ι β : Type} [DecidableEq ι]
    {readers : Query Db StoreError β → Prop} {w w' w'' : World ι Db StoreError WriteResult β}
    (h : Reaches Writer readers (World.start Db.empty 0) w) (hstep : Step Writer readers w w')
    (h' : Reaches Writer readers w' w'') {e : EventRow} (he : e ∈ w'.committed.events)
    (hnew : e ∉ w.committed.events) :
    ∃ i route req a, w'.sessions i = .written (atomicWrite route req) a ∧
      (∃ status, e = eventRow req.input status e.seq) ∧
      (∀ keyId, UnderKey w.committed req keyId → InForce w.committed req.input keyId) ∧
      (req.input.issuer.moduleId ≠ none →
        req.input.type = "core.module" ∨ ∃ g, UnderGrant w.committed req g) ∧
      ∀ e' ∈ w''.committed.events,
        (∀ keyId, UnderKey w.committed req keyId → RemovesKey w''.committed e' keyId →
          e.seq ≤ e'.seq) ∧
        ∀ g, UnderGrant w.committed req g → RemovesGrant w''.committed e' g → e.seq ≤ e'.seq := by
  obtain ⟨n, -, hatomic, hstanding, -, hextends⟩ := standing_of_reaches h (.head hstep h')
  rcases hstep.committed hatomic with hsame | ⟨i, p, a, ⟨route, req, rfl⟩, hrun, hwritten⟩
  · rw [hsame] at he
    exact absurd he hnew
  rcases atomicWrite_runs hstanding.toTidy hrun with ⟨-, hsame, -⟩ | ⟨-, hdrawn, -, hreq⟩
  · rw [hsame] at he
    exact absurd he hnew
  rw [hdrawn] at hreq
  obtain ⟨info, prev, eventStatus, -, happended⟩ := hreq.joins
  rw [happended.events, List.mem_append, List.mem_singleton] at he
  obtain rfl := he.resolve_left hnew
  have hinForce : ∀ keyId, UnderKey w.committed req keyId →
      InForce w.committed req.input keyId := fun keyId => hreq.inForce hstanding.toTidy
  refine ⟨i, route, req, a, hwritten, ⟨_, rfl⟩, hinForce, hreq.underGrant hstanding.toTidy, ?_⟩
  intro e' he'
  -- an event with a smaller number was there before
  obtain ⟨more, hmore, hlater⟩ := hextends.events
  rw [hmore, List.mem_append] at he'
  rcases he' with he' | he'
  swap
  · have hle : n + 1 ≤ e'.seq := hlater e' he'
    exact ⟨fun _ _ _ => hle, fun _ _ _ => hle⟩
  constructor
  · intro keyId hkey hremoves
    exact absurd (hstanding.revoked_of_removes hextends he' hremoves)
      (hinForce keyId hkey).not_revoked
  · rintro g ⟨_, p, _, -, -, hkind, hg, -⟩ hremoves
    unfold Db.grantsOf at hg
    rw [hkind, List.mem_filter, Dict.mem_values_iff] at hg
    obtain ⟨⟨root, hget⟩, -⟩ := hg
    exact absurd hremoves (hstanding.not_removesGrant hextends he' hget)

/-- A module wrote the record of the sample that is no grant and no identity. -/
def anchored (db : Db) : Bool :=
  db.events.any (·.recordId == sampleAnchor.recordId) && db.events.all fun e =>
    e.recordId != sampleAnchor.recordId || (e.issuer.moduleId.isSome && e.type != "core.module")

theorem revocation_ordered_sample : letI := samplePlatform
    ∃ (w w' w'' : World ℕ Db StoreError WriteResult Empty) (e : EventRow),
      Reaches Writer (fun _ => False) (World.start Db.empty 0) w ∧
      Step Writer (fun _ => False) w w' ∧ Reaches Writer (fun _ => False) w' w'' ∧
      e ∈ w'.committed.events ∧ e ∉ w.committed.events ∧ ∃ req g,
        UnderGrant w.committed req g ∧ e.recordId = req.input.recordId ∧
          ∀ e' ∈ w''.committed.events, RemovesGrant w''.committed e' g → e.seq ≤ e'.seq := by
  let := samplePlatform
  obtain ⟨w'', hreach, -, hcheck⟩ := sample_reaches (fun _ : Query Db StoreError Empty => False)
    anchored (by decide +kernel)
  rw [anchored, Bool.and_eq_true, List.any_eq_true, List.all_eq_true] at hcheck
  obtain ⟨⟨e₀, he₀, hid₀⟩, hall⟩ := hcheck
  -- there is a step at which the record is committed
  obtain ⟨w, w', hw, hstep, hw', hbefore, hafter⟩ := hreach.stops
    (P := fun v => ∀ e ∈ v.committed.events, e.recordId ≠ sampleAnchor.recordId)
    (fun _ he => nomatch he) fun hnever => hnever e₀ he₀ (beq_iff_eq.mp hid₀)
  push Not at hafter
  obtain ⟨e, he, hid⟩ := hafter
  have hnew : e ∉ w.committed.events := fun hold => hbefore e hold hid
  obtain ⟨_, _, req, _, -, ⟨status, heq⟩, -, hgrant, hlater⟩ :=
    revocation_ordered hw hstep hw' he hnew
  obtain ⟨_, _, -, -, -, hextends⟩ := standing_of_reaches (hw.tail hstep) hw'
  obtain ⟨more, hmore, -⟩ := hextends.events
  have hmodule := hall e (by rw [hmore]; exact List.mem_append_left _ he)
  rw [hid, bne_self_eq_false, Bool.false_or, Bool.and_eq_true, bne_iff_ne, heq] at hmodule
  have hissuer : req.input.issuer.moduleId ≠ none := Option.isSome_iff_ne_none.mp hmodule.1
  obtain ⟨g, hg⟩ := (hgrant hissuer).resolve_left hmodule.2
  refine ⟨w, w', w'', e, hw, hstep, hw', he, hnew, req, g, hg, ?_, ?_⟩
  · rw [heq]
    rfl
  · intro e' he'
    exact (hlater e' he').2 g hg

end DirectTrade.Store
