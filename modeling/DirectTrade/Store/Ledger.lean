import DirectTrade.Store.Effects

/-!
What holds of the records and events of every committed state: events are numbered in the order
of their commits, records stand in chains of one head each, and every link of a chain passed its
checks.
-/

namespace DirectTrade.Store

open Library Library.Outcome Library.Serial

/-- A link keeps type, subject, root, parties and visibility. -/
structure Keeps (q r : RecordRow) : Prop where
  type : q.type = r.type
  subject : q.subjectCompanyId = r.subjectCompanyId
  root : q.rootId = r.rootId
  counterparties : sameSet q.counterpartyIds r.counterpartyIds
  visibility : q.visibility = r.visibility

/-- A record that supersedes another passed the checks against it. -/
structure Linked (q r : RecordRow) : Prop extends Keeps q r where
  judged : ∃ info, typeInfo r.type = some info ∧ judge info r.toEnvelope (some q.body) = .ok ()
  later : ∃ a b, q.seq = some a ∧ r.seq = some b ∧ a < b

/-- The first record of a chain passed the checks on its own; an identity's only those on its
status. -/
structure Began (r : RecordRow) : Prop where
  root : r.rootId = r.recordId
  judged : ∃ info, typeInfo r.type = some info ∧ checkGenesis info r.toEnvelope = .ok () ∧
    (¬ isIdentity r.type → judge info r.toEnvelope none = .ok ())

/-- Nothing of a record changes but whether it is a head. -/
theorem toEnvelope_ite (c : Prop) [Decidable c] (r : RecordRow) :
    (if c then r.superseded else r).toEnvelope = r.toEnvelope ∧
      (if c then r.superseded else r).seq = r.seq ∧
      (if c then r.superseded else r).status = r.status := by
  by_cases hc : c
  · rw [if_pos hc]
    exact ⟨rfl, rfl, rfl⟩
  · rw [if_neg hc]
    exact ⟨rfl, rfl, rfl⟩

theorem Linked.congr {q r q' r' : RecordRow} (hq : q'.toEnvelope = q.toEnvelope)
    (hqs : q'.seq = q.seq) (hr : r'.toEnvelope = r.toEnvelope) (hrs : r'.seq = r.seq)
    (h : Linked q r) : Linked q' r' := by
  obtain ⟨⟨htype, hsubject, hroot, hparties, hvisibility⟩, hjudged, hlater⟩ := h
  rw [← hq, ← hr] at htype hsubject hroot hparties hvisibility hjudged
  rw [← hqs, ← hrs] at hlater
  exact ⟨⟨htype, hsubject, hroot, hparties, hvisibility⟩, hjudged, hlater⟩

theorem Synced.named {kind : PrincipalKind} {ownerId : String} {keys : List KeyEntry}
    {before after : Dict String KeyRow} (h : Synced kind ownerId keys before after)
    (hbefore : before.Named KeyRow.keyId) : after.Named KeyRow.keyId := by
  intro id row hrow
  by_cases hid : id ∈ keys.map KeyEntry.keyId
  · obtain ⟨k, hk, rfl⟩ := List.mem_map.mp hid
    obtain ⟨row', hrow', hsynced⟩ := h.listed k hk
    obtain rfl := Option.some.inj (hrow'.symm.trans hrow)
    exact hsynced.keyId
  · rw [h.unlisted id hid] at hrow
    obtain ⟨old, hold, rfl⟩ := Option.map_eq_some_iff.mp hrow
    have hkey := hbefore id old hold
    by_cases howned : old.owned kind ownerId
    · rw [if_pos howned]
      exact hkey
    · rw [if_neg howned]
      exact hkey

section
variable [Platform]

/-- Events are numbered in their order, and match the records one to one. -/
structure Numbered (db : Db) (n : ℕ) : Prop where
  increasing : db.events.Pairwise fun a b => a.seq < b.seq
  bounded : ∀ e ∈ db.events, 0 < e.seq ∧ e.seq ≤ n
  event : ∀ id r, db.records.get? id = some r →
    ∃ e ∈ db.events, e.recordId = id ∧ r.seq = some e.seq
  record : ∀ e ∈ db.events, ∃ r, db.records.get? e.recordId = some r ∧ r.seq = some e.seq ∧
    e = eventRow r.toEnvelope e.status e.seq

/-- Records stand in chains. -/
structure Chained (db : Db) : Prop where
  valid : ∀ id r, db.records.get? id = some r → ∃ info, Valid r.toEnvelope info
  began : ∀ id r, db.records.get? id = some r → r.supersedes = none → Began r
  linked : ∀ id r, db.records.get? id = some r → ∀ p, r.supersedes = some p →
    ∃ q, db.records.get? p = some q ∧ Linked q r
  one : ∀ id r, db.records.get? id = some r → ∀ id' r', db.records.get? id' = some r' →
    r.supersedes ≠ none → r.supersedes = r'.supersedes → id = id'
  head : ∀ id r, db.records.get? id = some r →
    (r.isHead = true ↔ ∀ id' r', db.records.get? id' = some r' → r'.supersedes ≠ some id)
  rooted : ∀ id r, db.records.get? id = some r → (db.records.get? r.rootId).isSome = true
  headed : ∀ id r, db.records.get? id = some r →
    ∃ id' h, db.records.get? id' = some h ∧ h.rootId = r.rootId ∧ h.isHead = true
  oneHead : ∀ id r, db.records.get? id = some r → ∀ id' r', db.records.get? id' = some r' →
    r.isHead = true → r'.isHead = true → r.rootId = r'.rootId → id = id'

structure Ledger (db : Db) (n : ℕ) : Prop extends Tidy db, Numbered db n, Chained db

variable {env : Envelope} {status eventStatus : Option String} {prev : Option RecordRow}
  {s t : Db} {seq : ℕ}

/-- A record after an append is the new one, or an old one that is no head any longer if it was
superseded. -/
theorem Appended.get?_cases (h : Appended env status eventStatus prev s t seq) {id : String}
    {r : RecordRow} (hr : t.records.get? id = some r) :
    (id = env.recordId ∧ r = storedRow env status seq) ∨ ∃ r₀, s.records.get? id = some r₀ ∧
      r = if prev.map (·.recordId) = some id then r₀.superseded else r₀ := by
  rw [h.records] at hr
  by_cases hid : id = env.recordId
  · rw [if_pos hid] at hr
    exact .inl ⟨hid, (Option.some.inj hr).symm⟩
  · rw [if_neg hid] at hr
    obtain ⟨r₀, hr₀, heq⟩ := Option.map_eq_some_iff.mp hr
    exact .inr ⟨r₀, hr₀, heq.symm⟩

theorem Appended.get?_old (h : Appended env status eventStatus prev s t seq) {id : String}
    {r : RecordRow} (hr : s.records.get? id = some r) : id ≠ env.recordId ∧
      t.records.get? id =
        some (if prev.map (·.recordId) = some id then r.superseded else r) := by
  have hid : id ≠ env.recordId := by
    rintro rfl
    exact nomatch h.fresh.symm.trans hr
  refine ⟨hid, ?_⟩
  rw [h.records, if_neg hid, hr]
  rfl

theorem Appended.get?_new (h : Appended env status eventStatus prev s t seq) :
    t.records.get? env.recordId = some (storedRow env status seq) := by
  rw [h.records, if_pos rfl]

/-- What is known of an old record by its envelope and its number. -/
theorem Appended.old_of_ne (h : Appended env status eventStatus prev s t seq) {id : String}
    {r : RecordRow} (hr : t.records.get? id = some r) (hid : id ≠ env.recordId) :
    ∃ r₀, s.records.get? id = some r₀ ∧ r.toEnvelope = r₀.toEnvelope ∧ r.seq = r₀.seq ∧
      (r.isHead = true ↔ r₀.isHead = true ∧ prev.map (·.recordId) ≠ some id) := by
  cases h.get?_cases hr with
  | inl hnew => exact absurd hnew.1 hid
  | inr hold =>
    obtain ⟨r₀, hr₀, rfl⟩ := hold
    obtain ⟨henv, hseq, -⟩ := toEnvelope_ite (prev.map (·.recordId) = some id) r₀
    refine ⟨r₀, hr₀, henv, hseq, ?_⟩
    by_cases hprev : prev.map (·.recordId) = some id
    · simp [hprev, RecordRow.superseded]
    · simp [hprev]

theorem Appended.numbered (h : Appended env status eventStatus prev s t (seq + 1))
    (hn : Numbered s seq) : Numbered t (seq + 1) := by
  have hevents := h.events
  constructor
  · rw [hevents, List.pairwise_append]
    refine ⟨hn.increasing, List.pairwise_singleton .., ?_⟩
    intro a ha b hb
    rw [List.mem_singleton.mp hb]
    exact Nat.lt_succ_of_le (hn.bounded a ha).2
  · intro e he
    rw [hevents, List.mem_append, List.mem_singleton] at he
    rcases he with he | rfl
    · have hbounded := hn.bounded e he
      omega
    · exact ⟨Nat.succ_pos _, Nat.le_refl _⟩
  · intro id r hr
    rw [hevents]
    by_cases hid : id = env.recordId
    · subst hid
      obtain rfl := Option.some.inj (h.get?_new.symm.trans hr)
      exact ⟨_, List.mem_append_right _ (List.mem_singleton.mpr rfl), rfl, rfl⟩
    · obtain ⟨r₀, hr₀, -, hseq, -⟩ := h.old_of_ne hr hid
      obtain ⟨e, he, hrecord, heq⟩ := hn.event id r₀ hr₀
      exact ⟨e, List.mem_append_left _ he, hrecord, hseq.trans heq⟩
  · intro e he
    rw [hevents, List.mem_append, List.mem_singleton] at he
    rcases he with he | rfl
    · obtain ⟨r, hr, hseq, heq⟩ := hn.record e he
      obtain ⟨-, hr'⟩ := h.get?_old hr
      obtain ⟨henv, hseq', -⟩ := toEnvelope_ite (prev.map (·.recordId) = some e.recordId) r
      refine ⟨_, hr', hseq'.trans hseq, ?_⟩
      rw [henv]
      exact heq
    · exact ⟨_, h.get?_new, rfl, rfl⟩

/-- What is known of a record that is appended. -/
structure Joins (env : Envelope) (info : TypeInfo) (prev : Option RecordRow) (s : Db) : Prop where
  valid : Valid env info
  supersedes : env.supersedes = prev.map (·.recordId)
  target : ∀ q, prev = some q → s.records.get? q.recordId = some q ∧ Continues env q ∧
    judge info env (some q.body) = .ok ()
  genesis : prev = none → checkGenesis info env = .ok () ∧
    (¬ isIdentity env.type → judge info env none = .ok ())

theorem Appended.began (h : Appended env status eventStatus prev s t seq) {info : TypeInfo}
    (hj : Joins env info prev s) (hs : Chained s) {id : String} {r : RecordRow}
    (hr : t.records.get? id = some r) (hsup : r.supersedes = none) : Began r := by
  by_cases hid : id = env.recordId
  · subst hid
    obtain rfl := Option.some.inj (h.get?_new.symm.trans hr)
    have hprev : prev = none := by
      have hnone := hj.supersedes
      rw [show env.supersedes = none from hsup] at hnone
      exact Option.map_eq_none_iff.mp hnone.symm
    exact ⟨hj.valid.genesis hsup, info, hj.valid.info, hj.genesis hprev⟩
  · obtain ⟨r₀, hr₀, henv, -, -⟩ := h.old_of_ne hr hid
    rw [henv] at hsup
    obtain ⟨hroot, hjudged⟩ := hs.began id r₀ hr₀ hsup
    constructor
    · rw [henv]
      exact hroot
    · rw [henv]
      exact hjudged

theorem Appended.linked (h : Appended env status eventStatus prev s t (seq + 1))
    {info : TypeInfo} (hj : Joins env info prev s) (hs : Chained s) (hn : Numbered s seq)
    {id : String} {r : RecordRow} (hr : t.records.get? id = some r) {p : String}
    (hsup : r.supersedes = some p) : ∃ q, t.records.get? p = some q ∧ Linked q r := by
  by_cases hid : id = env.recordId
  · subst hid
    obtain rfl := Option.some.inj (h.get?_new.symm.trans hr)
    have hprev := hj.supersedes
    rw [show env.supersedes = some p from hsup] at hprev
    obtain ⟨q, rfl, rfl⟩ := Option.map_eq_some_iff.mp hprev.symm
    obtain ⟨hq, hcontinues, hjudged⟩ := hj.target q rfl
    refine ⟨_, (h.get?_old hq).2, ?_⟩
    obtain ⟨e, he, -, hseq⟩ := hn.event _ q hq
    have hlater : ∃ a b, q.seq = some a ∧
        (storedRow env status (seq + 1)).seq = some b ∧ a < b :=
      ⟨e.seq, seq + 1, hseq, rfl, Nat.lt_succ_of_le (hn.bounded e he).2⟩
    have hlink : Linked q (storedRow env status (seq + 1)) :=
      ⟨⟨hcontinues.type, hcontinues.subject, hcontinues.root, hcontinues.counterparties,
        hcontinues.visibility⟩, ⟨info, hj.valid.info, hjudged⟩, hlater⟩
    obtain ⟨henv, hqs, -⟩ := toEnvelope_ite (some q.recordId = some q.recordId) q
    exact hlink.congr henv hqs rfl rfl
  · obtain ⟨r₀, hr₀, henv, hseq, -⟩ := h.old_of_ne hr hid
    rw [henv] at hsup
    obtain ⟨q, hq, hlink⟩ := hs.linked id r₀ hr₀ p hsup
    obtain ⟨henvq, hseqq, -⟩ := toEnvelope_ite (prev.map (·.recordId) = some p) q
    exact ⟨_, (h.get?_old hq).2, hlink.congr henvq hseqq henv hseq⟩

theorem Appended.one (h : Appended env status eventStatus prev s t seq) (hs : Chained s)
    {id id' : String} {r r' : RecordRow} (hr : t.records.get? id = some r)
    (hr' : t.records.get? id' = some r') (hsup : r.supersedes ≠ none)
    (heq : r.supersedes = r'.supersedes) : id = id' := by
  have hnew : ∀ id₀ r₀, s.records.get? id₀ = some r₀ → env.supersedes ≠ none →
      r₀.supersedes ≠ env.supersedes := by
    intro id₀ r₀ hr₀ hsome
    rcases h.oneSuccessor with hnone | hall
    · exact absurd hnone hsome
    · exact hall r₀ (Dict.mem_values_of_get? hr₀)
  by_cases hid : id = env.recordId
  · by_cases hid' : id' = env.recordId
    · rw [hid, hid']
    · subst hid
      obtain rfl := Option.some.inj (h.get?_new.symm.trans hr)
      obtain ⟨r₀, hr₀, henv, -, -⟩ := h.old_of_ne hr' hid'
      rw [henv] at heq
      exact absurd heq.symm (hnew id' r₀ hr₀ hsup)
  · obtain ⟨r₀, hr₀, henv, -, -⟩ := h.old_of_ne hr hid
    rw [henv] at hsup heq
    by_cases hid' : id' = env.recordId
    · subst hid'
      obtain rfl := Option.some.inj (h.get?_new.symm.trans hr')
      exact absurd heq (hnew id r₀ hr₀ (heq ▸ hsup))
    · obtain ⟨r₁, hr₁, henv', -, -⟩ := h.old_of_ne hr' hid'
      rw [henv'] at heq
      exact hs.one id r₀ hr₀ id' r₁ hr₁ hsup heq

theorem Appended.head (h : Appended env status eventStatus prev s t seq) {info : TypeInfo}
    (hj : Joins env info prev s) (hs : Chained s) {id : String} {r : RecordRow}
    (hr : t.records.get? id = some r) : r.isHead = true ↔
      ∀ id' r', t.records.get? id' = some r' → r'.supersedes ≠ some id := by
  by_cases hid : id = env.recordId
  · subst hid
    obtain rfl := Option.some.inj (h.get?_new.symm.trans hr)
    refine ⟨fun _ => ?_, fun _ => rfl⟩
    -- nothing supersedes a record that was not there
    intro id' r' hr' hsup
    have hthere : (s.records.get? env.recordId).isSome = true := by
      by_cases hid' : id' = env.recordId
      · subst hid'
        obtain rfl := Option.some.inj (h.get?_new.symm.trans hr')
        exact h.target _ hsup
      · obtain ⟨r₁, hr₁, henv', -, -⟩ := h.old_of_ne hr' hid'
        rw [henv'] at hsup
        obtain ⟨q, hq, -⟩ := hs.linked id' r₁ hr₁ _ hsup
        exact Option.isSome_iff_exists.mpr ⟨q, hq⟩
    rw [h.fresh] at hthere
    exact nomatch hthere
  · obtain ⟨r₀, hr₀, -, -, hhead⟩ := h.old_of_ne hr hid
    rw [hhead, hs.head id r₀ hr₀]
    constructor
    · rintro ⟨hall, hprev⟩ id' r' hr' hsup
      by_cases hid' : id' = env.recordId
      · subst hid'
        obtain rfl := Option.some.inj (h.get?_new.symm.trans hr')
        exact hprev (hj.supersedes.symm.trans hsup)
      · obtain ⟨r₁, hr₁, henv', -, -⟩ := h.old_of_ne hr' hid'
        rw [henv'] at hsup
        exact hall id' r₁ hr₁ hsup
    · intro hall
      constructor
      · intro id' r₁ hr₁ hsup
        refine hall id' _ (h.get?_old hr₁).2 ?_
        rw [(toEnvelope_ite _ r₁).1]
        exact hsup
      · intro hprev
        exact hall _ _ h.get?_new (hj.supersedes.trans hprev)

theorem Appended.rooted (h : Appended env status eventStatus prev s t seq) {info : TypeInfo}
    (hj : Joins env info prev s) (hs : Chained s) {id : String} {r : RecordRow}
    (hr : t.records.get? id = some r) : (t.records.get? r.rootId).isSome = true := by
  have hold : ∀ root, (s.records.get? root).isSome = true →
      (t.records.get? root).isSome = true := by
    intro root hroot
    obtain ⟨q, hq⟩ := Option.isSome_iff_exists.mp hroot
    exact Option.isSome_iff_exists.mpr ⟨_, (h.get?_old hq).2⟩
  by_cases hid : id = env.recordId
  · subst hid
    obtain rfl := Option.some.inj (h.get?_new.symm.trans hr)
    show (t.records.get? env.rootId).isSome = true
    cases prev with
    | none =>
      rw [hj.valid.genesis hj.supersedes, h.get?_new]
      rfl
    | some q =>
      obtain ⟨hq, hcontinues, -⟩ := hj.target q rfl
      rw [← hcontinues.root]
      exact hold _ (hs.rooted _ q hq)
  · obtain ⟨r₀, hr₀, henv, -, -⟩ := h.old_of_ne hr hid
    rw [henv]
    exact hold _ (hs.rooted id r₀ hr₀)

theorem Appended.headed (h : Appended env status eventStatus prev s t seq) {info : TypeInfo}
    (hj : Joins env info prev s) (hs : Chained s) {id : String} {r : RecordRow}
    (hr : t.records.get? id = some r) :
    ∃ id' q, t.records.get? id' = some q ∧ q.rootId = r.rootId ∧ q.isHead = true := by
  by_cases hid : id = env.recordId
  · subst hid
    obtain rfl := Option.some.inj (h.get?_new.symm.trans hr)
    exact ⟨_, _, h.get?_new, rfl, rfl⟩
  · obtain ⟨r₀, hr₀, henv, -, -⟩ := h.old_of_ne hr hid
    obtain ⟨id', q, hq, hroot, hhead⟩ := hs.headed id r₀ hr₀
    rw [henv]
    by_cases hprev : prev.map (·.recordId) = some id'
    · -- the head was superseded by the new record
      obtain ⟨q', rfl, hid'⟩ := Option.map_eq_some_iff.mp hprev
      obtain ⟨hq', hcontinues, -⟩ := hj.target q' rfl
      rw [hid'] at hq'
      obtain rfl := Option.some.inj (hq.symm.trans hq')
      exact ⟨_, _, h.get?_new, hcontinues.root.symm.trans hroot, rfl⟩
    · have hq' := (h.get?_old hq).2
      rw [if_neg hprev] at hq'
      exact ⟨id', q, hq', hroot, hhead⟩

theorem Appended.oneHead (h : Appended env status eventStatus prev s t seq) {info : TypeInfo}
    (hj : Joins env info prev s) (hs : Chained s) {id id' : String} {r r' : RecordRow}
    (hr : t.records.get? id = some r) (hr' : t.records.get? id' = some r')
    (hhead : r.isHead = true) (hhead' : r'.isHead = true) (hroot : r.rootId = r'.rootId) :
    id = id' := by
  -- an old record that is still a head is of another chain than the new one
  have hnew : ∀ id₀ r₀, s.records.get? id₀ = some r₀ → r₀.isHead = true →
      prev.map (·.recordId) ≠ some id₀ → r₀.rootId ≠ env.rootId := by
    intro id₀ r₀ hr₀ hhead₀ hother heq
    cases prev with
    | none =>
      have hthere := hs.rooted id₀ r₀ hr₀
      rw [heq, hj.valid.genesis hj.supersedes, h.fresh] at hthere
      exact nomatch hthere
    | some q =>
      obtain ⟨hq, hcontinues, -⟩ := hj.target q rfl
      have hsame := hs.oneHead _ q hq id₀ r₀ hr₀ hcontinues.isHead hhead₀
        (hcontinues.root.trans heq.symm)
      exact hother (congrArg some hsame)
  by_cases hid : id = env.recordId
  · by_cases hid' : id' = env.recordId
    · rw [hid, hid']
    · subst hid
      obtain rfl := Option.some.inj (h.get?_new.symm.trans hr)
      obtain ⟨r₀, hr₀, henv, -, hiff⟩ := h.old_of_ne hr' hid'
      obtain ⟨hhead₀, hother⟩ := hiff.mp hhead'
      rw [henv] at hroot
      exact absurd hroot.symm (hnew id' r₀ hr₀ hhead₀ hother)
  · obtain ⟨r₀, hr₀, henv, -, hiff⟩ := h.old_of_ne hr hid
    obtain ⟨hhead₀, hother⟩ := hiff.mp hhead
    rw [henv] at hroot
    by_cases hid' : id' = env.recordId
    · subst hid'
      obtain rfl := Option.some.inj (h.get?_new.symm.trans hr')
      exact absurd hroot (hnew id r₀ hr₀ hhead₀ hother)
    · obtain ⟨r₁, hr₁, henv', -, hiff'⟩ := h.old_of_ne hr' hid'
      rw [henv'] at hroot
      exact hs.oneHead id r₀ hr₀ id' r₁ hr₁ hhead₀ (hiff'.mp hhead').1 hroot

theorem Appended.chained (h : Appended env status eventStatus prev s t (seq + 1))
    {info : TypeInfo} (hj : Joins env info prev s) (hs : Chained s) (hn : Numbered s seq) :
    Chained t := by
  constructor
  · intro id r hr
    by_cases hid : id = env.recordId
    · subst hid
      obtain rfl := Option.some.inj (h.get?_new.symm.trans hr)
      exact ⟨info, hj.valid⟩
    · obtain ⟨r₀, hr₀, henv, -, -⟩ := h.old_of_ne hr hid
      rw [henv]
      exact hs.valid id r₀ hr₀
  · exact fun id r hr => h.began hj hs hr
  · exact fun id r hr p => h.linked hj hs hn hr
  · exact fun id r hr id' r' hr' => h.one hs hr hr'
  · exact fun id r hr => h.head hj hs hr
  · exact fun id r hr => h.rooted hj hs hr
  · exact fun id r hr => h.headed hj hs hr
  · exact fun id r hr id' r' hr' => h.oneHead hj hs hr hr'

/-- Every accepted request appends its record, after one that it may supersede. -/
theorem Written.joins {req : Request} (h : Written req s t seq) :
    ∃ info prev eventStatus, Joins req.input info prev s ∧
      Appended req.input (statusOf info req.input.body) eventStatus prev s t seq := by
  cases h with
  | @company _ info hp h =>
    refine ⟨info, none, none, ⟨h.valid, h.genesis, nofun, fun _ => ⟨h.judged, ?_⟩⟩, h.appended⟩
    exact fun hother => absurd (.inl h.type) hother
  | @module _ info _ _ hp h =>
    refine ⟨info, none, none, ⟨h.valid, h.genesis, nofun, fun _ => ⟨h.judged, ?_⟩⟩, h.appended⟩
    exact fun hother => absurd (.inr h.type) hother
  | @record _ info p prev hp h =>
    refine ⟨info, prev, _, ⟨h.valid, h.supersedes, ?_, ?_⟩, h.appended⟩
    · intro q hq
      have hjudged := h.judged
      subst hq
      exact ⟨(h.target q rfl).1, h.continues q rfl, hjudged⟩
    · intro hnone
      have hjudged := h.judged
      subst hnone
      have htransition := hjudged
      simp only [judge, bind_eq_ok] at htransition
      obtain ⟨_, -, _, htransition, -⟩ := htransition
      exact ⟨htransition, fun _ => hjudged⟩

theorem Appended.named (h : Appended env status eventStatus prev s t seq)
    (hs : s.records.Named (·.recordId)) : t.records.Named (·.recordId) := by
  intro id r hr
  by_cases hid : id = env.recordId
  · subst hid
    obtain rfl := Option.some.inj (h.get?_new.symm.trans hr)
    rfl
  · obtain ⟨r₀, hr₀, henv, -, -⟩ := h.old_of_ne hr hid
    show r.toEnvelope.recordId = id
    rw [henv]
    exact hs id r₀ hr₀

theorem Founded.named {kind : PrincipalKind} {ownerId : String} {ctx : Context}
    {info : TypeInfo} (h : Founded kind ownerId ctx env info s t seq)
    (hs : s.keys.Named KeyRow.keyId) : t.keys.Named KeyRow.keyId := by
  intro id row hrow
  by_cases hid : id ∈ (keysOf env.body).map KeyEntry.keyId
  · obtain ⟨k, hk, rfl⟩ := List.mem_map.mp hid
    obtain rfl := Option.some.inj ((h.inserted k hk).2.symm.trans hrow)
    rfl
  · rw [h.others id hid] at hrow
    exact hs id row hrow

theorem Hooked.tidy (h : Hooked env prev s t) (hrecords : t.records.Named (·.recordId))
    (hs : Tidy s) : Tidy t := by
  refine ⟨?_, ?_, ?_, hrecords, ?_⟩
  · by_cases htype : env.type = "core.company"
    · rw [(h.company htype).2.2.2]
      exact hs.companies.modify _ _ fun _ => rfl
    · rw [h.companies htype]
      exact hs.companies
  · by_cases htype : env.type = "core.module"
    · obtain ⟨_, -, -, -, hmodules⟩ := h.module htype
      rw [hmodules]
      exact hs.modules.modify _ _ fun _ => rfl
    · rw [h.modules htype]
      exact hs.modules
  · by_cases hcompany : env.type = "core.company"
    · exact (h.company hcompany).2.2.1.named hs.keys
    by_cases hmodule : env.type = "core.module"
    · obtain ⟨_, -, -, hsynced, -⟩ := h.module hmodule
      exact hsynced.named hs.keys
    · rw [h.keys (not_or.mpr ⟨hcompany, hmodule⟩)]
      exact hs.keys
  · by_cases htype : env.type = "core.grant"
    · obtain ⟨-, _, _, -, -, -, row, hgrants, hrow⟩ := h.grant htype
      rw [hgrants]
      rcases hrow with ⟨-, rfl⟩ | ⟨_, -, rfl⟩
      · exact hs.grants.set rfl
      · exact hs.grants.set rfl
    · rw [h.grants htype]
      exact hs.grants

theorem Written.tidy {req : Request} (h : Written req s t seq) (hs : Tidy s) : Tidy t := by
  cases h with
  | company hp h =>
    refine ⟨?_, ?_, h.named hs.keys, h.appended.named hs.records, ?_⟩
    · rw [h.companies]
      exact hs.companies.set rfl
    · rw [h.modules]
      exact hs.modules
    · rw [h.grants]
      exact hs.grants
  | module hp h =>
    refine ⟨?_, ?_, h.toFounded.named hs.keys, h.appended.named hs.records, ?_⟩
    · rw [h.companies]
      exact hs.companies
    · rw [h.modules]
      exact hs.modules.set rfl
    · rw [h.grants]
      exact hs.grants
  | record hp h => exact h.hooked.tidy (h.appended.named hs.records) hs

theorem Written.ledger {req : Request} (h : Written req s t (seq + 1)) (hs : Ledger s seq) :
    Ledger t (seq + 1) := by
  obtain ⟨info, prev, eventStatus, hjoins, happended⟩ := h.joins
  exact ⟨h.tidy hs.toTidy, happended.numbered hs.toNumbered,
    happended.chained hjoins hs.toChained hs.toNumbered⟩

theorem ledger_empty (n : ℕ) : Ledger Db.empty n := by
  have hnone : ∀ (id : String) (r : RecordRow), Db.empty.records.get? id ≠ some r :=
    fun _ _ => nofun
  refine ⟨⟨?_, ?_, ?_, ?_, ?_⟩, ⟨List.Pairwise.nil, ?_, ?_, ?_⟩, ⟨?_, ?_, ?_, ?_, ?_, ?_, ?_, ?_⟩⟩
  · exact Dict.named_empty _
  · exact Dict.named_empty _
  · exact Dict.named_empty _
  · exact Dict.named_empty _
  · exact Dict.named_empty _
  · exact fun e he => nomatch he
  · exact fun id r hr => absurd hr (hnone id r)
  · exact fun e he => nomatch he
  all_goals exact fun id r hr => absurd hr (hnone id r)

/-- The programs that write: one request each. -/
def Writer (p : Handler WriteResult) : Prop := ∃ route req, p = atomicWrite route req

/-- The states that requests leave behind one after the other, from empty tables. -/
abbrev Committed (s : Db) (n : ℕ) : Prop := Serially Writer Db.empty 0 s n

theorem Ledger.mono {db : Db} {n m : ℕ} (h : Ledger db n) (hle : n ≤ m) : Ledger db m := by
  refine ⟨h.toTidy, ⟨h.increasing, ?_, h.event, h.record⟩, h.toChained⟩
  intro e he
  exact ⟨(h.bounded e he).1, Nat.le_trans (h.bounded e he).2 hle⟩

/-- What one request does to a state that kept its ledger. -/
theorem Ledger.runs {p : Handler WriteResult} {s t : Db} {n m : ℕ} {a : WriteResult}
    (h : Ledger s n) (hp : Writer p) (hrun : p.Runs s n a t m) :
    (a.created = false ∧ t = s ∧ m = n) ∨ (a.created = true ∧ m = n + 1 ∧
      ∃ req, t.records.get? req.input.recordId = some a.record ∧ Written req s t (n + 1)) := by
  obtain ⟨route, req, rfl⟩ := hp
  rcases atomicWrite_runs h.toTidy hrun with hsame | ⟨hcreated, rfl, hrow, hwritten⟩
  · exact .inl hsame
  · exact .inr ⟨hcreated, rfl, req, hrow, hwritten⟩

theorem ledger_of_committed {s : Db} {n : ℕ} (h : Committed s n) : Ledger s n := by
  refine h.invariant ?_ (fun s n m hle hs => hs.mono hle) (ledger_empty 0)
  intro p s n a t m hp hrun hs
  rcases hs.runs hp hrun with ⟨-, rfl, rfl⟩ | ⟨-, rfl, req, -, hwritten⟩
  · exact hs
  · exact hwritten.ledger hs

end

/-- Signatures name their key, tokens and payloads stand for their digests. -/
@[reducible] def samplePlatform : Platform where
  conforms _ := true
  bodyConforms _ _ := true
  verifies env := env.signature == "signed by " ++ env.issuer.keyId
  payloadHash env := env.recordId.length
  tokenHash token := "digest of " ++ token
  instant _ := none
  stringify _ := ""

def rootKey : String := "ed25519:8u8LCMQvMKrFxHbn326Ltcqv72HDPEC5FPMgPC3mXvxV"

def moduleKey : String := "ed25519:HTco7u8KHFZPRrJALvReCgN2c4hvQ1i5NUYEHb2QaRFW"

def droppedKey : String := "ed25519:6ASf5EcmmEHTgDJ4X4ZT5vT6iHVJBXPg5AN5YoTCpGWt"

def rootToken : String := "dtps_000102030405060708090a0b0c0d0e0f1011121314151617"

def moduleToken : String := "dtps_18191a1b1c1d1e1f202122232425262728292a2b2c2d2e2f"

def droppedToken : String := "dtps_303132333435363738393a3b3c3d3e3f4041424344454647"

def sampleKey (keyId role : String) : Json :=
  .obj [("key_id", .str keyId), ("role", .str role), ("status", .str "active"),
    ("added_at", .str "2026-09-08T14:03:22.117Z")]

/-- An envelope of the sample company, genesis or successor. -/
def sampleEnvelope (recordId rootId type : String) (supersedes : Option String)
    (issuer : Issuer) (visibility : Visibility) (body : List (String × Json)) : Envelope where
  recordId := recordId
  rootId := rootId
  type := type
  nameSpace := namespaceOf type
  schemaVersion := "0.2"
  subjectCompanyId := "acme-sauce.dtp"
  counterpartyIds := []
  issuer := issuer
  visibility := visibility
  createdAt := 0
  supersedes := supersedes
  body := .obj body
  signature := "signed by " ++ issuer.keyId

def companyRoot : String := "018f6d2e-3b1a-7c4e-9a1f-2f6c1a9d0e21"

def sampleCompany (recordId : String) (supersedes : Option String) (keys : List Json) : Envelope :=
  sampleEnvelope recordId companyRoot "core.company" supersedes ⟨rootKey, "acme-sauce.dtp", none⟩
    .publicly [("display_name", .str "Acme Sauce Co."), ("jurisdiction", .str "US"),
      ("locations", .arr []), ("keys", .arr keys)]

def sampleModule : Envelope :=
  sampleEnvelope "018f6d2e-3b1a-7c4e-9a1f-2f6c1a9d0e22" "018f6d2e-3b1a-7c4e-9a1f-2f6c1a9d0e22"
    "core.module" none ⟨moduleKey, "acme-sauce.dtp", some "lot-ledger"⟩ .publicly
    [("module_id", .str "lot-ledger"), ("name", .str "Lot ledger"),
      ("publisher_company_id", .str "acme-sauce.dtp"), ("keys", .arr [sampleKey moduleKey "root"])]

def grantRoot : String := "018f6d2e-3b1a-7c4e-9a1f-2f6c1a9d0e23"

def sampleGrant (recordId : String) (supersedes : Option String) (status : String) : Envelope :=
  sampleEnvelope recordId grantRoot "core.grant" supersedes ⟨rootKey, "acme-sauce.dtp", none⟩
    .privately [("module_id", .str "lot-ledger"),
      ("scopes", .arr [.obj [("namespace", .str "*"), ("access", .str "write")]]),
      ("status", .str status)]

/-- The module anchors a certificate for the company. -/
def sampleAnchor : Envelope :=
  sampleEnvelope "018f6d2e-3b1a-7c4e-9a1f-2f6c1a9d0e24" "018f6d2e-3b1a-7c4e-9a1f-2f6c1a9d0e24"
    "traceability.coa_anchor" none ⟨moduleKey, "acme-sauce.dtp", some "lot-ledger"⟩ .granted
    [("company_id", .str "acme-sauce.dtp"), ("lot_id", .str "LOT-1"), ("cert_type", .str "coa"),
      ("issuer", .str "lab"),
      ("doc_hash", .str "0000000000000000000000000000000000000000000000000000000000000000")]

def sampleRequest (token : Option String) (input : Envelope) : Request where
  token := token
  now := 0
  minted keyId := if keyId = rootKey then rootToken
    else if keyId = moduleKey then moduleToken else droppedToken
  input := input

section
variable [Platform]

/-- The company and its module register, the grant is made, used, and revoked; the revoked grant is
revised once more, and the company drops a key. -/
def sampleWrites : List (Handler WriteResult) :=
  [atomicWrite .companies (sampleRequest none (sampleCompany companyRoot none
      [sampleKey rootKey "root", sampleKey droppedKey "delegate"])),
    atomicWrite .modules (sampleRequest (some rootToken) sampleModule),
    atomicWrite .records (sampleRequest (some rootToken) (sampleGrant grantRoot none "active")),
    atomicWrite .records (sampleRequest (some moduleToken) sampleAnchor),
    atomicWrite .records (sampleRequest (some rootToken)
      (sampleGrant "018f6d2e-3b1a-7c4e-9a1f-2f6c1a9d0e25" (some grantRoot) "revoked")),
    atomicWrite .records (sampleRequest (some rootToken)
      (sampleGrant "018f6d2e-3b1a-7c4e-9a1f-2f6c1a9d0e26"
        (some "018f6d2e-3b1a-7c4e-9a1f-2f6c1a9d0e25") "revoked")),
    atomicWrite .records (sampleRequest (some rootToken)
      (sampleCompany "018f6d2e-3b1a-7c4e-9a1f-2f6c1a9d0e27" (some companyRoot)
        [sampleKey rootKey "root"]))]

theorem writer_of_sample : ∀ p ∈ sampleWrites, Writer p := by
  unfold sampleWrites
  simp only [List.forall_mem_cons, List.not_mem_nil, false_implies, implies_true, and_true]
  exact ⟨⟨_, _, rfl⟩, ⟨_, _, rfl⟩, ⟨_, _, rfl⟩, ⟨_, _, rfl⟩, ⟨_, _, rfl⟩, ⟨_, _, rfl⟩, ⟨_, _, rfl⟩⟩

end

/-- What can be computed of the state that the sample leaves is true of a reachable world. -/
theorem sample_reaches {β : Type} (readers : Query Db StoreError β → Prop) (check : Db → Bool)
    (h : letI := samplePlatform
      (runAll sampleWrites Db.empty 0).map (fun s => check s.1) = .ok true) :
    letI := samplePlatform
    ∃ w : World ℕ Db StoreError WriteResult β, Reaches Writer readers (World.start Db.empty 0) w ∧
      (∃ k, ∀ j, k ≤ j → w.sessions j = .idle) ∧ check w.committed = true := by
  let := samplePlatform
  cases hrun : runAll sampleWrites Db.empty 0 with
  | error e =>
    rw [hrun] at h
    exact nomatch h
  | ok result =>
    rw [hrun] at h
    obtain ⟨w, hreach, hcommitted, -, hidle⟩ :=
      @reaches_of_runAll Db StoreError WriteResult β Writer readers sampleWrites
        writer_of_sample _ _ _ _ hrun
    refine ⟨w, hreach, hidle, ?_⟩
    rw [hcommitted]
    exact Except.ok.inj h

end DirectTrade.Store
