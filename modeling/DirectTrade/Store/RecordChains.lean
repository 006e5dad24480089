import DirectTrade.Store.Ledger

/-!
Chains of records keep their roles, their status and the facts that are written once, whoever
writes them and in whatever order.
-/

namespace DirectTrade.Store

open Library Library.Outcome Library.Serial

def Stored (db : Db) (r : RecordRow) : Prop := db.records.get? r.recordId = some r

def Supersedes (db : Db) (q r : RecordRow) : Prop :=
  Stored db q ∧ Stored db r ∧ r.supersedes = some q.recordId

/-- One record is reached from another by superseding. -/
abbrev Descends (db : Db) (q r : RecordRow) : Prop :=
  Relation.ReflTransGen (Supersedes db) q r

/-- A change of status, or a revision without one. -/
inductive Moves (info : TypeInfo) (prev next : Json) (roles : List String) : Prop
  | transition {t : Transitions} {tr : Transition} (ht : info.transitions = some t)
      (htr : tr ∈ t.transitions) (hold : statusOf info prev = some tr.old)
      (hnew : statusOf info next = some tr.new) (hroles : allowed roles tr.roles)
  | revision {t : Transitions} (ht : info.transitions = some t) (hfield : t.statusField ≠ none)
      (hsame : statusOf info prev = statusOf info next)
      (hroles : allowed roles (info.revisionBy.getD ["subject"]))
  | subject (hnone : ∀ t, info.transitions = some t → t.statusField = none)
      (hsubject : "subject" ∈ roles)

theorem mem_between {t : Transitions} {prev next : Option String} {tr : Transition} :
    tr ∈ t.between prev next ↔ tr ∈ t.transitions ∧ prev = some tr.old ∧ next = some tr.new := by
  unfold Transitions.between
  rw [List.mem_filter, Bool.and_eq_true, beq_iff_eq, beq_iff_eq]
  constructor
  · rintro ⟨hmem, hold, hnew⟩
    exact ⟨hmem, hold.symm, hnew.symm⟩
  · rintro ⟨hmem, hold, hnew⟩
    exact ⟨hmem, hold.symm, hnew.symm⟩

theorem moves_of_check {info : TypeInfo} {prev next : Json} {roles : List String}
    (h : checkTransition info (some prev) next roles = .ok ()) :
    checkLocks info prev next = .ok () ∧ Moves info prev next roles := by
  simp only [checkTransition, bind_eq_ok] at h
  obtain ⟨_, hlocks, h⟩ := h
  refine ⟨hlocks, ?_⟩
  cases ht : info.transitions with
  | none =>
    simp only [ht, demand_eq_ok] at h
    refine .subject ?_ h
    intro t heq
    cases ht.symm.trans heq
  | some t =>
    simp only [ht] at h
    by_cases hfield : t.statusField = none
    · rw [if_pos hfield, demand_eq_ok] at h
      refine .subject (fun t' heq => ?_) h
      obtain rfl := Option.some.inj (ht.symm.trans heq)
      exact hfield
    rw [if_neg hfield] at h
    unfold checkStatus at h
    by_cases hbetween : t.between (statusOf info prev) (statusOf info next) = []
    · rw [if_neg (not_not.mpr hbetween)] at h
      by_cases hsame : statusOf info prev = statusOf info next
      · rw [if_pos hsame, demand_eq_ok] at h
        exact .revision ht hfield hsame h
      · rw [if_neg hsame] at h
        cases h
    · rw [if_pos hbetween, demand_eq_ok] at h
      obtain ⟨tr, htr, hroles⟩ := h
      obtain ⟨hmem, hold, hnew⟩ := mem_between.mp htr
      exact .transition ht hmem hold hnew hroles

/-- A status that no transition leaves. -/
def Terminal (info : TypeInfo) (status : String) : Prop :=
  ∃ t, info.transitions = some t ∧ t.statusField ≠ none ∧ ∀ tr ∈ t.transitions, tr.old ≠ status

theorem Moves.of_terminal {info : TypeInfo} {prev next : Json} {roles : List String}
    (h : Moves info prev next roles) {status : String} (hprev : statusOf info prev = some status)
    (hterminal : Terminal info status) : statusOf info next = some status ∧
      allowed roles (info.revisionBy.getD ["subject"]) := by
  obtain ⟨t, ht, hfield, hleaves⟩ := hterminal
  cases h with
  | transition ht' htr hold =>
    obtain rfl := Option.some.inj (ht.symm.trans ht')
    exact absurd (Option.some.inj (hold.symm.trans hprev)) (hleaves _ htr)
  | revision _ _ hsame hroles => exact ⟨hsame.symm.trans hprev, hroles⟩
  | subject hnone => exact absurd (hnone t ht) hfield

/-- The statuses that lock a record lead only to statuses that lock it. -/
def lockStays (info : TypeInfo) : Bool :=
  match info.lockAfterStatuses with
  | none => true
  | some statuses =>
    match info.transitions with
    | none => false
    | some t => t.statusField.isSome && t.transitions.all fun tr =>
      !statuses.contains tr.old || statuses.contains tr.new

theorem lockStays_of_typeInfo {type : String} {info : TypeInfo} (h : typeInfo type = some info) :
    lockStays info = true := by
  have hall : types.all lockStays = true := by decide +kernel
  exact List.all_eq_true.mp hall info (mem_of_typeInfo h)

theorem Moves.locked {info : TypeInfo} {prev next : Json} {roles : List String}
    (h : Moves info prev next roles) (hinfo : lockStays info = true)
    (hlocked : locked info prev) : locked info next := by
  intro statuses hstatuses
  have hprev := hlocked statuses hstatuses
  rw [lockStays, hstatuses] at hinfo
  cases h with
  | transition ht htr hold hnew hroles =>
    simp only [ht, Bool.and_eq_true, List.all_eq_true] at hinfo
    have hstays := hinfo.2 _ htr
    rw [hold, Option.getD_some] at hprev
    rw [hnew, Option.getD_some]
    rw [List.contains_iff_mem.mpr hprev] at hstays
    exact List.contains_iff_mem.mp hstays
  | revision ht hfield hsame hroles =>
    rw [← hsame]
    exact hprev
  | subject hnone hsubject =>
    cases ht : info.transitions with
    | none => simp [ht] at hinfo
    | some t => simp [ht, hnone t ht] at hinfo

theorem checkLocks_eq_ok {info : TypeInfo} {prev next : Json}
    (h : checkLocks info prev next = .ok ()) : info.appendOnly = false ∧
      (locked info prev → ∀ field ∈ info.immutableFields, value prev field = value next field) := by
  simp only [checkLocks, bind_eq_ok, demand_eq_ok, exists_const] at h
  obtain ⟨happend, h⟩ := h
  refine ⟨happend, ?_⟩
  intro hlocked
  rw [if_pos hlocked, each_eq_ok] at h
  intro field hfield
  exact (demand_eq_ok ..).mp (h field hfield)

/-- A member that names a role stays, unless it appoints a third party. -/
theorem role_of_check {info : TypeInfo} {prev next : Json} {party : PartyContext}
    (h : checkRoleContinuity info (some prev) next party = .ok ()) {role field : String}
    (hrole : (role, field) ∈ info.roles) (hthird : role ∉ info.thirdPartyRoles) :
    value prev field = value next field := by
  rw [checkRoleContinuity, each_eq_ok] at h
  have hone := h _ hrole
  simp only [checkRole, bind_eq_ok, demand_eq_ok] at hone
  obtain ⟨_, -, hone⟩ := hone
  rcases hone with hsame | ⟨-, hmem⟩
  · exact same_eq hsame
  · exact absurd hmem hthird

theorem member?_of_value {body : Json} {field s : String} (h : value body field = .str s) :
    body.member? field = some (.str s) := by
  unfold value at h
  cases hmember : body.member? field with
  | none => simp [hmember] at h
  | some v =>
    rw [hmember, Option.getD_some] at h
    rw [h]

/-- Whoever a member of the previous body names has the role of that member. -/
theorem mem_rolesOf {info : TypeInfo} {body : Json} {party : PartyContext} {role field : String}
    (hrole : (role, field) ∈ info.roles)
    (h : body.member? field = some (.str party.issuerCompanyId)) :
    role ∈ rolesOf info body party := by
  unfold rolesOf
  refine List.mem_append_right _ (List.mem_map.mpr ⟨(role, field), ?_, rfl⟩)
  rw [List.mem_filter, beq_iff_eq]
  exact ⟨hrole, h⟩

/-- A role that the new body gives its writer was the writer's by the previous body. -/
theorem mem_rolesOf_prev {info : TypeInfo} {prev next : Json} {party : PartyContext}
    (h : checkRoleContinuity info (some prev) next party = .ok ()) {role field : String}
    (hrole : (role, field) ∈ info.roles) (hthird : role ∉ info.thirdPartyRoles)
    (hnext : next.member? field = some (.str party.issuerCompanyId)) :
    role ∈ rolesOf info prev party := by
  have hvalue := role_of_check h hrole hthird
  rw [show value next field = .str party.issuerCompanyId by rw [value, hnext]; rfl] at hvalue
  exact mem_rolesOf hrole (member?_of_value hvalue)

theorem judge_eq_ok {info : TypeInfo} {env : Envelope} {prev : Option Json}
    (h : judge info env prev = .ok ()) :
    checkRoleContinuity info prev env.body (partyOf env) = .ok () ∧
      checkTransition info prev env.body (rolesOf info (prev.getD env.body) (partyOf env)) =
        .ok () ∧ checkIntegrity env prev = .ok () := by
  simp only [judge, bind_eq_ok] at h
  obtain ⟨_, hroles, _, htransition, hintegrity⟩ := h
  exact ⟨hroles, htransition, hintegrity⟩

theorem fulfillment_of_check {env : Envelope} {prev : Option Json}
    (htype : env.type = "trade.fulfillment") (h : checkIntegrity env prev = .ok ()) :
    checkFulfillment env prev = .ok () := by
  have hne : env.type ≠ "finance.invoice" := by
    rw [htype]
    decide
  rw [checkIntegrity, if_neg hne, if_pos htype] at h
  exact h

/-- The buyer's attestation stays once it is there, and is made by the buyer. -/
theorem attestation_of_check {env : Envelope} {prev : Json}
    (h : checkFulfillment env (some prev) = .ok ()) :
    (value prev "buyer_attestation" ≠ .null →
      value prev "buyer_attestation" = value env.body "buyer_attestation") ∧
    (value prev "buyer_attestation" = .null → value env.body "buyer_attestation" ≠ .null →
      env.body.member? "buyer_company_id" = some (.str env.issuer.companyId)) := by
  simp only [checkFulfillment, bind_eq_ok, demand_eq_ok, exists_const] at h
  obtain ⟨hkept, hadded, -⟩ := h
  refine ⟨fun hne => hkept.resolve_left hne, ?_⟩
  intro hnull hnew
  rcases hadded with hne | hsame | ⟨hbuyer, -⟩
  · exact absurd hnull hne
  · rw [value, hsame] at hnew
    exact absurd rfl hnew
  · exact hbuyer

theorem no_attestation_of_check {env : Envelope} (h : checkFulfillment env none = .ok ()) :
    value env.body "buyer_attestation" = .null := by
  simp only [checkFulfillment, bind_eq_ok, demand_eq_ok, exists_const] at h
  rw [value, h.2]
  rfl

/-- An invoice's assignment stays once it is there, and is made by the seller. -/
theorem assignment_of_check {env : Envelope} {prev : Option Json}
    (htype : env.type = "finance.invoice") (h : checkIntegrity env prev = .ok ()) :
    ((prev.map assignedTo).getD .null ≠ .null →
      assignedTo env.body = (prev.map assignedTo).getD .null) ∧
    (assignedTo env.body ≠ (prev.map assignedTo).getD .null →
      env.body.member? "seller_company_id" = some (.str env.issuer.companyId)) := by
  rw [checkIntegrity, if_pos htype] at h
  simp only [checkInvoice, bind_eq_ok, demand_eq_ok] at h
  obtain ⟨_, -, _, hkept, hseller⟩ := h
  refine ⟨fun hne => same_eq (hkept.resolve_left hne), ?_⟩
  intro hne
  rcases hseller with hsame | hseller
  · exact absurd (same_eq hsame) hne
  · exact hseller

/-- The first status of a record, and who may begin with it. -/
def Starts (info : TypeInfo) (body : Json) (roles : List String) : Prop :=
  ∀ t, info.transitions = some t → allowed roles t.initialBy ∧
    (t.statusField = none ∨ t.initialStatus = [] ∨
      ∃ s ∈ t.initialStatus, statusOf info body = some s)

/-- What every committed state keeps of the chains in it. -/
structure ChainsKept (db : Db) : Prop where
  oneHead : ∀ r, Stored db r → ∃! h, Stored db h ∧ h.rootId = r.rootId ∧ h.isHead = true
  immutable : ∀ q r, Descends db q r → Stored db q → ∀ info, typeInfo q.type = some info →
    locked info q.body → ∀ field ∈ info.immutableFields,
      value r.body field = value q.body field
  starts : ∀ r, Stored db r → r.supersedes = none → ∀ info, typeInfo r.type = some info →
    Starts info r.body (rolesOf info r.body (partyOf r.toEnvelope))
  moves : ∀ q r, Supersedes db q r → ∀ info, typeInfo q.type = some info →
    Moves info q.body r.body (rolesOf info q.body (partyOf r.toEnvelope))
  appendOnly : ∀ q r, Supersedes db q r → ∀ info, typeInfo q.type = some info →
    info.appendOnly = false
  terminal : ∀ q r, Descends db q r → Stored db q → ∀ info, typeInfo q.type = some info →
    ∀ status, statusOf info q.body = some status → Terminal info status →
      statusOf info r.body = some status
  unattested : ∀ r, Stored db r → r.type = "trade.fulfillment" → r.supersedes = none →
    value r.body "buyer_attestation" = .null
  attested : ∀ q r, Supersedes db q r → q.type = "trade.fulfillment" →
    value q.body "buyer_attestation" = .null → value r.body "buyer_attestation" ≠ .null →
      "buyer" ∈ rolesOf tradeFulfillment q.body (partyOf r.toEnvelope)
  attestedOnce : ∀ q r, Descends db q r → Stored db q → q.type = "trade.fulfillment" →
    value q.body "buyer_attestation" ≠ .null →
      value r.body "buyer_attestation" = value q.body "buyer_attestation"
  assignedFirst : ∀ r, Stored db r → r.type = "finance.invoice" → r.supersedes = none →
    assignedTo r.body ≠ .null →
      "seller" ∈ rolesOf financeInvoice r.body (partyOf r.toEnvelope)
  assigned : ∀ q r, Supersedes db q r → q.type = "finance.invoice" →
    assignedTo r.body ≠ assignedTo q.body →
      "seller" ∈ rolesOf financeInvoice q.body (partyOf r.toEnvelope)
  assignedOnce : ∀ q r, Descends db q r → Stored db q → q.type = "finance.invoice" →
    assignedTo q.body ≠ .null → assignedTo r.body = assignedTo q.body

theorem typeInfo_fulfillment : typeInfo "trade.fulfillment" = some tradeFulfillment := by
  decide +kernel

theorem typeInfo_invoice : typeInfo "finance.invoice" = some financeInvoice := by
  decide +kernel

section
variable [Platform]

theorem Ledger.stored {db : Db} {n : ℕ} (h : Ledger db n) {id : String} {r : RecordRow}
    (hr : db.records.get? id = some r) : Stored db r := by
  have hid : r.recordId = id := h.records id r hr
  unfold Stored
  rw [hid]
  exact hr

/-- One link with its checks. -/
theorem Ledger.link {db : Db} {n : ℕ} (h : Ledger db n) {q r : RecordRow}
    (hlink : Supersedes db q r) {info : TypeInfo} (hinfo : typeInfo q.type = some info) :
    q.type = r.type ∧ judge info r.toEnvelope (some q.body) = .ok () := by
  obtain ⟨hq, hr, hsup⟩ := hlink
  obtain ⟨q', hq', hlinked⟩ := h.linked _ r hr _ hsup
  obtain rfl := Option.some.inj (hq.symm.trans hq')
  obtain ⟨info', hinfo', hjudged⟩ := hlinked.judged
  rw [← hlinked.type] at hinfo'
  obtain rfl := Option.some.inj (hinfo.symm.trans hinfo')
  exact ⟨hlinked.type, hjudged⟩

/-- What one link keeps, a chain keeps. -/
theorem Ledger.descends {db : Db} {n : ℕ} (h : Ledger db n) {P : RecordRow → Prop} {q r : RecordRow}
    {info : TypeInfo} (hinfo : typeInfo q.type = some info)
    (hstep : ∀ a b, Supersedes db a b → typeInfo a.type = some info →
      judge info b.toEnvelope (some a.body) = .ok () → P a → P b)
    (hchain : Descends db q r) (hq : P q) : P r ∧ r.type = q.type := by
  induction hchain with
  | refl => exact ⟨hq, rfl⟩
  | tail _ hlink ih =>
    obtain ⟨hP, htype⟩ := ih
    rw [← htype] at hinfo
    obtain ⟨hsame, hjudged⟩ := h.link hlink hinfo
    exact ⟨hstep _ _ hlink hinfo hjudged hP, hsame.symm.trans htype⟩

theorem Ledger.oneHeadOf {db : Db} {n : ℕ} (h : Ledger db n) {r : RecordRow}
    (hr : Stored db r) : ∃! q, Stored db q ∧ q.rootId = r.rootId ∧ q.isHead = true := by
  obtain ⟨id, q, hq, hroot, hhead⟩ := h.headed _ r hr
  refine ⟨q, ⟨h.stored hq, hroot, hhead⟩, ?_⟩
  rintro q' ⟨hq', hroot', hhead'⟩
  have hid := h.oneHead _ q' hq' id q hq hhead' hhead (hroot'.trans hroot.symm)
  rw [← hid] at hq
  exact Option.some.inj (hq'.symm.trans hq)

theorem Ledger.chainsKept {db : Db} {n : ℕ} (h : Ledger db n) : ChainsKept db := by
  constructor
  · exact fun r hr => h.oneHeadOf hr
  · intro q r hchain hq info hinfo hlocked field hfield
    have hkept := h.descends (P := fun a => locked info a.body ∧
      value a.body field = value q.body field) hinfo ?_ hchain ⟨hlocked, rfl⟩
    · exact hkept.1.2
    · rintro a b hlink hinfo' hjudged ⟨hlock, hvalue⟩
      obtain ⟨-, htransition, -⟩ := judge_eq_ok hjudged
      obtain ⟨hlocks, hmoves⟩ := moves_of_check htransition
      obtain ⟨-, hsame⟩ := checkLocks_eq_ok hlocks
      exact ⟨hmoves.locked (lockStays_of_typeInfo hinfo') hlock,
        (hsame hlock field hfield).symm.trans hvalue⟩
  · intro r hr hsup info hinfo t ht
    obtain ⟨-, info', hinfo', hgenesis, -⟩ := h.began _ r hr hsup
    obtain rfl := Option.some.inj (hinfo.symm.trans hinfo')
    simp only [checkGenesis, checkTransition, ht, checkInitial, bind_eq_ok, demand_eq_ok,
      exists_const] at hgenesis
    exact hgenesis
  · intro q r hlink info hinfo
    obtain ⟨-, hjudged⟩ := h.link hlink hinfo
    exact (moves_of_check (judge_eq_ok hjudged).2.1).2
  · intro q r hlink info hinfo
    obtain ⟨-, hjudged⟩ := h.link hlink hinfo
    exact (checkLocks_eq_ok (moves_of_check (judge_eq_ok hjudged).2.1).1).1
  · intro q r hchain hq info hinfo status hstatus hterminal
    refine (h.descends (P := fun a => statusOf info a.body = some status) hinfo ?_ hchain
      hstatus).1
    intro a b hlink _ hjudged hprev
    exact ((moves_of_check (judge_eq_ok hjudged).2.1).2.of_terminal hprev hterminal).1
  · intro r hr htype hsup
    obtain ⟨-, info, hinfo, -, hjudged⟩ := h.began _ r hr hsup
    have hother : ¬ isIdentity r.type := by
      rw [htype]
      decide
    exact no_attestation_of_check
      (fulfillment_of_check htype (judge_eq_ok (hjudged hother)).2.2)
  · intro q r hlink htype hnull hnew
    have hinfo : typeInfo q.type = some tradeFulfillment := by
      rw [htype]
      exact typeInfo_fulfillment
    obtain ⟨hsame, hjudged⟩ := h.link hlink hinfo
    obtain ⟨hroles, -, hintegrity⟩ := judge_eq_ok hjudged
    have hcheck := fulfillment_of_check (hsame.symm.trans htype) hintegrity
    exact mem_rolesOf_prev hroles (by decide) (by decide)
      ((attestation_of_check hcheck).2 hnull hnew)
  · intro q r hchain hq htype hne
    have hinfo : typeInfo q.type = some tradeFulfillment := by
      rw [htype]
      exact typeInfo_fulfillment
    refine (h.descends (P := fun a => value a.body "buyer_attestation" =
      value q.body "buyer_attestation" ∧ a.type = "trade.fulfillment") hinfo ?_ hchain
      ⟨rfl, htype⟩).1.1
    rintro a b hlink hinfo' hjudged ⟨hvalue, htype'⟩
    obtain ⟨hsame, -⟩ := h.link hlink hinfo'
    have htypeb := hsame.symm.trans htype'
    have hcheck := fulfillment_of_check htypeb (judge_eq_ok hjudged).2.2
    have hkept := (attestation_of_check hcheck).1 (by rwa [hvalue])
    exact ⟨hkept.symm.trans hvalue, htypeb⟩
  · intro r hr htype hsup hne
    obtain ⟨-, info, hinfo, -, hjudged⟩ := h.began _ r hr hsup
    have hother : ¬ isIdentity r.type := by
      rw [htype]
      decide
    have hseller := (assignment_of_check htype (judge_eq_ok (hjudged hother)).2.2).2 hne
    exact mem_rolesOf (by decide) hseller
  · intro q r hlink htype hne
    have hinfo : typeInfo q.type = some financeInvoice := by
      rw [htype]
      exact typeInfo_invoice
    obtain ⟨hsame, hjudged⟩ := h.link hlink hinfo
    obtain ⟨hroles, -, hintegrity⟩ := judge_eq_ok hjudged
    exact mem_rolesOf_prev hroles (by decide) (by decide)
      ((assignment_of_check (hsame.symm.trans htype) hintegrity).2 hne)
  · intro q r hchain hq htype hne
    have hinfo : typeInfo q.type = some financeInvoice := by
      rw [htype]
      exact typeInfo_invoice
    refine (h.descends (P := fun a => assignedTo a.body = assignedTo q.body ∧
      a.type = "finance.invoice") hinfo ?_ hchain ⟨rfl, htype⟩).1.1
    rintro a b hlink hinfo' hjudged ⟨hvalue, htype'⟩
    obtain ⟨hsame, -⟩ := h.link hlink hinfo'
    have htypeb := hsame.symm.trans htype'
    have hkept := (assignment_of_check htypeb (judge_eq_ok hjudged).2.2).1 (by
      rw [Option.map_some, Option.getD_some, hvalue]
      exact hne)
    exact ⟨hkept.trans hvalue, htypeb⟩

/-- However requests interleave, the chains keep their roles, their status and what is written
once; a status that no transition leaves is left by none. -/
theorem chains_kept {ι β : Type} [DecidableEq ι] {readers : Query Db StoreError β → Prop}
    {w : World ι Db StoreError WriteResult β}
    (h : Reaches Writer readers (World.start Db.empty 0) w) : ChainsKept w.committed := by
  obtain ⟨n, -, hserial, -⟩ := h.atomic (atomic_start Db.empty 0)
  exact (ledger_of_committed hserial).chainsKept

end

/-- The sample's grant after its second revocation. -/
def revisedRevoked (db : Db) : Bool :=
  match db.records.get? "018f6d2e-3b1a-7c4e-9a1f-2f6c1a9d0e25",
      db.records.get? "018f6d2e-3b1a-7c4e-9a1f-2f6c1a9d0e26" with
  | some q, some r => q.recordId == "018f6d2e-3b1a-7c4e-9a1f-2f6c1a9d0e25" &&
      r.recordId == "018f6d2e-3b1a-7c4e-9a1f-2f6c1a9d0e26" && q.type == "core.grant" &&
      statusOf coreGrant q.body == some "revoked" && r.supersedes == some q.recordId
  | _, _ => false

theorem chains_kept_sample : letI := samplePlatform
    ∃ w : World ℕ Db StoreError WriteResult Empty,
      Reaches Writer (fun _ => False) (World.start Db.empty 0) w ∧ ChainsKept w.committed ∧
        revisedRevoked w.committed = true := by
  let := samplePlatform
  obtain ⟨w, hreach, -, hcheck⟩ := sample_reaches (fun _ : Query Db StoreError Empty => False)
    revisedRevoked (by decide +kernel)
  exact ⟨w, hreach, chains_kept hreach, hcheck⟩

/-- No record supersedes one whose status no transition leaves. -/
def SparesTerminal (db : Db) : Prop :=
  ∀ q r, Supersedes db q r → ∀ info, typeInfo q.type = some info →
    ∀ status, statusOf info q.body = some status → ¬ Terminal info status

/-- A revoked grant is superseded by one that is revoked as well. -/
theorem not_sparesTerminal : letI := samplePlatform
    ∃ w : World ℕ Db StoreError WriteResult Empty,
      Reaches Writer (fun _ => False) (World.start Db.empty 0) w ∧
        ¬ SparesTerminal w.committed := by
  let := samplePlatform
  obtain ⟨w, hreach, -, hcheck⟩ := sample_reaches (fun _ : Query Db StoreError Empty => False)
    revisedRevoked (by decide +kernel)
  refine ⟨w, hreach, ?_⟩
  intro hspares
  unfold revisedRevoked at hcheck
  cases hq : w.committed.records.get? "018f6d2e-3b1a-7c4e-9a1f-2f6c1a9d0e25" with
  | none => simp [hq] at hcheck
  | some q =>
    cases hr : w.committed.records.get? "018f6d2e-3b1a-7c4e-9a1f-2f6c1a9d0e26" with
    | none => simp [hq, hr] at hcheck
    | some r =>
      simp only [hq, hr, Bool.and_eq_true, beq_iff_eq] at hcheck
      obtain ⟨⟨⟨⟨hqid, hrid⟩, htype⟩, hstatus⟩, hsup⟩ := hcheck
      have hlink : Supersedes w.committed q r := by
        refine ⟨?_, ?_, hsup⟩
        · unfold Stored
          rw [hqid]
          exact hq
        · unfold Stored
          rw [hrid]
          exact hr
      have hinfo : typeInfo q.type = some coreGrant := by
        rw [htype]
        decide +kernel
      refine hspares q r hlink coreGrant hinfo "revoked" hstatus ⟨_, rfl, by decide, ?_⟩
      decide

end DirectTrade.Store
