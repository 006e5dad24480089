import DirectTrade.Keeps
import DirectTrade.Library.Custody

/-!
How one host hands companies over. A host commits a company once, to one destination, and
the company is frozen there from then on; a migration is committed or cancelled, never
both.
-/

namespace DirectTrade

open Library

/-- A commit receipt of a host for one of its migrations. -/
structure CommitOf (host : HostRef) (id : Uuid) (m : MigrationManifest)
    (t : Signed CommitBody) : Prop where
  keyId : t.keyId = host.keyId
  issuer : t.body.issuer = host.audience
  migration : t.body.migrationId = id
  organization : t.body.organizationId = m.organizationId
  generation : t.body.generation = m.generation
  destination : t.body.destination = m.destination
  snapshot : t.body.snapshotHash = m.snapshotHash

/-- A cancellation of a host for one of its migrations. -/
structure CancelOf (host : HostRef) (id : Uuid) (t : Signed CancelBody) : Prop where
  keyId : t.keyId = host.keyId
  issuer : t.body.issuer = host.audience
  migration : t.body.migrationId = id

/-- A migration that the host has committed. -/
structure Committed (s : State) (id : Uuid) (out : OutboundMigration)
    (t : Signed CommitBody) : Prop where
  found : s.outgoing.get? id = some out
  token : out.commitToken = some t

structure Handover (hosts : Set HostRef) (host : HostRef) (s : State) : Prop where
  destination : ∀ id out, s.outgoing.get? id = some out → out.manifest.destination ∈ hosts
  commit : ∀ id out t, Committed s id out t → CommitOf host id out.manifest t
  frozen : ∀ id out t, Committed s id out t → ∃ org,
    s.organizations.get? out.manifest.organizationId = some org ∧ org.status = .migrated ∧
      org.generation = out.manifest.generation
  single : ∀ id out t, Committed s id out t → ∀ id' out' t', Committed s id' out' t' →
    out.manifest.organizationId = out'.manifest.organizationId → id = id'
  moved : ∀ o org, s.organizations.get? o = some org → org.status = .migrated →
    ∃ id out t, Committed s id out t ∧ out.manifest.organizationId = o
  cancel : ∀ id out t, s.outgoing.get? id = some out → out.cancelToken = some t →
    CancelOf host id t
  exclusive : ∀ id out t, Committed s id out t → out.cancelToken = none

theorem handover_empty (hosts : Set HostRef) (host : HostRef) :
    Handover hosts host emptyState := by
  have hnone : ∀ id out t, ¬ Committed emptyState id out t := by
    intro id out t h
    simpa [emptyState] using h.found
  refine ⟨?_, fun id out t h => (hnone _ _ _ h).elim, fun id out t h => (hnone _ _ _ h).elim,
    fun id out t h => (hnone _ _ _ h).elim, ?_, ?_, fun id out t h => (hnone _ _ _ h).elim⟩
  all_goals simp [emptyState]

/-- Every company that has moved had moved before. -/
def NoneLeave (s t : State) : Prop :=
  ∀ o org, t.organizations.get? o = some org → org.status = .migrated →
    ∃ org', s.organizations.get? o = some org' ∧ org'.status = .migrated

variable [Primitives]

inductive OutgoingStep (k : Call) (t : State) : Prop
  | same (outgoing : t.outgoing = k.s.outgoing) (companies : NoneLeave k.s t)
  | prepare (org : Organization) (snapshot : Snapshot) (destination : HostRef)
      (absent : k.s.outgoing.get? k.c.requestId = none)
      (pinned : k.ctx.pins destination.audience = some destination.keyId)
      (outgoing : t.outgoing =
        k.s.outgoing.set k.c.requestId (k.outbound org snapshot destination))
      (companies : t.organizations = k.s.organizations)
  | commit (o : Organization) (migrationId : Uuid) (ready : SignedToken) (snapshot : Snapshot)
      (out : OutboundMigration) (org : Organization) (body : ReadyBody)
      (commits : k.Commits o migrationId ready snapshot out org body)
      (outgoing : t.outgoing = k.s.outgoing.set migrationId
        { out with commitToken := some (k.committed migrationId ready out body) })
      (companies : t.organizations = k.s.organizations.set out.manifest.organizationId
        { org with status := .migrated })
      (tables : t.policies = k.s.policies ∧ t.records = k.s.records ∧
        t.inventory = k.s.inventory)
  | cancel (migrationId : Uuid) (out : OutboundMigration) (o : Organization)
      (owns : k.Owns migrationId out o) (uncommitted : out.commitToken = none)
      (outgoing : t.outgoing = k.s.outgoing.set migrationId
        { out with cancelToken := some (k.issue .cancel (k.cancelBody migrationId out)) })
      (companies : t.organizations = k.s.organizations)

omit [Primitives] in
theorem NoneLeave.of_eq {s t : State} (h : t.organizations = s.organizations) :
    NoneLeave s t := by
  intro o org horg hmoved
  exact ⟨org, h ▸ horg, hmoved⟩

omit [Primitives] in
/-- A company written with a status other than `migrated` leaves nobody moved. -/
theorem NoneLeave.set {s : State} {id : Uuid} {o : Organization} (h : o.status = .active) :
    NoneLeave s { s with organizations := s.organizations.set id o } := by
  intro a org horg hmoved
  simp only [Dict.get?_set] at horg
  split at horg
  · obtain rfl := Option.some.inj horg
    simp [h] at hmoved
  · exact ⟨org, horg, hmoved⟩

omit [Primitives] in
theorem NoneLeave.pushHistory {s t : State} (h : NoneLeave s t) (c : Command) :
    NoneLeave s (pushHistory t c) := by
  unfold DirectTrade.pushHistory
  split
  · intro a org horg hmoved
    simp only [Dict.get?_modify] at horg
    split at horg
    · rename_i heq
      subst a
      obtain ⟨old, hold, rfl⟩ := Option.map_eq_some_iff.mp horg
      exact h _ old hold hmoved
    · exact h a org horg hmoved
  · exact h

omit [Primitives] in
theorem NoneLeave.setOrg {k : Call} {o : Organization} (h : o.status = .active) (c : Command) :
    NoneLeave k.s (DirectTrade.pushHistory (k.setOrg o) c) := by
  refine NoneLeave.pushHistory ?_ c
  unfold Call.setOrg
  split
  · exact .of_eq rfl
  · exact .set h

omit [Primitives] in
theorem pushHistory_outgoing (s : State) (c : Command) :
    (pushHistory s c).outgoing = s.outgoing := by
  unfold pushHistory
  split <;> rfl

omit [Primitives] in
theorem setOrg_outgoing (k : Call) (o : Organization) : (k.setOrg o).outgoing = k.s.outgoing := by
  unfold Call.setOrg
  split <;> rfl

theorem Call.CompanyChange.status {k : Call} {o o' : Organization} {m : Mutation}
    {result : Result} (h : k.CompanyChange o m o' result) : o'.status = o.status := by
  cases h <;> rfl

variable [Reducers]

theorem Accepted.outgoingStep {s : State} {c : Command} {ctx : Context} {signed : List KeyId}
    {reply : Reply} (keyed : Keyed s) (h : Accepted s c ctx signed reply) :
    OutgoingStep (callOf s c ctx signed) (reply.next c) := by
  cases h.effect with
  | found orgId name nonce controllers threshold payload founds =>
    exact .same ((pushHistory_outgoing _ c).trans (setOrg_outgoing _ _))
      (NoneLeave.setOrg (k := callOf s c ctx signed) rfl c)
  | company o o' m result payload fresh inside change =>
    exact .same ((pushHistory_outgoing _ c).trans (setOrg_outgoing _ _))
      (NoneLeave.setOrg (k := callOf s c ctx signed) (change.status.trans inside.active) c)
  | append o p profile before t company validation payload appends assessed =>
    obtain rfl : s = t := (counterparties_eq keyed.remoteAuthorities appends.attested).symm
    cases company <;> exact .same rfl (.of_eq rfl)
  | duplicate o p profile before t company recordId recorded payload appends assessed known =>
    obtain rfl : s = t := (counterparties_eq keyed.remoteAuthorities appends.attested).symm
    exact .same rfl (.of_eq rfl)
  | prepare o destination snapshot org payload prepares absent =>
    exact .prepare org snapshot destination absent prepares.pinned rfl rfl
  | commit o migrationId ready snapshot out org body payload commits =>
    exact .commit o migrationId ready snapshot out org body commits rfl rfl ⟨rfl, rfl, rfl⟩
  | cancel migrationId out o payload owns uncommitted uncancelled =>
    exact .cancel migrationId out o owns uncommitted rfl rfl
  | finalize migrationId token stage ready body snapshot payload stages binds inactive held
      absent digest valid activates =>
    exact .same rfl (NoneLeave.set (s := s) rfl)
  | _ => exact .same rfl (.of_eq rfl)

section

variable {hosts : Set HostRef} {host : HostRef} {s t : State}

omit [Primitives] [Reducers] in
/-- The migrations once one of them is written. -/
theorem Committed.cases {m : Uuid} {new : OutboundMigration}
    (outgoing : t.outgoing = s.outgoing.set m new) {id : Uuid} {out : OutboundMigration}
    {tok : Signed CommitBody} (h : Committed t id out tok) :
    (id = m ∧ out = new ∧ new.commitToken = some tok) ∨ (id ≠ m ∧ Committed s id out tok) := by
  have hfound := h.found
  rw [outgoing, Dict.get?_set] at hfound
  split at hfound
  · obtain rfl := Option.some.inj hfound
    exact .inl ⟨‹_›, rfl, h.token⟩
  · exact .inr ⟨‹_›, hfound, h.token⟩

omit [Primitives] [Reducers] in
/-- Writing a migration without a commit receipt where there was none. -/
theorem Handover.uncommitted (h : Handover hosts host s) {m : Uuid} {new : OutboundMigration}
    (outgoing : t.outgoing = s.outgoing.set m new) (same : t.organizations = s.organizations)
    (before : ∀ out, s.outgoing.get? m = some out → out.commitToken = none)
    (after : new.commitToken = none) (destination : new.manifest.destination ∈ hosts)
    (cancel : ∀ tok, new.cancelToken = some tok → CancelOf host m tok) :
    Handover hosts host t := by
  have hback : ∀ {id out tok}, Committed t id out tok → Committed s id out tok := by
    intro id out tok hc
    rcases hc.cases outgoing with ⟨-, -, hnew⟩ | ⟨-, hc⟩
    · simp [after] at hnew
    · exact hc
  have hforth : ∀ {id out tok}, Committed s id out tok → Committed t id out tok := by
    intro id out tok hc
    refine ⟨?_, hc.token⟩
    rw [outgoing, Dict.get?_set_of_ne, hc.found]
    rintro rfl
    have := before out hc.found
    simp [hc.token] at this
  refine
    { destination := fun id out hout => ?_
      commit := fun id out tok hc => h.commit id out tok (hback hc)
      frozen := fun id out tok hc => same ▸ h.frozen id out tok (hback hc)
      single := fun id out tok hc id' out' tok' hc' =>
        h.single id out tok (hback hc) id' out' tok' (hback hc')
      moved := fun o org horg hmoved => ?_
      cancel := fun id out tok hout htok => ?_
      exclusive := fun id out tok hc => h.exclusive id out tok (hback hc) }
  · rw [outgoing, Dict.get?_set] at hout
    split at hout
    · exact Option.some.inj hout ▸ destination
    · exact h.destination id out hout
  · obtain ⟨id, out, tok, hc, ho⟩ := h.moved o org (same ▸ horg) hmoved
    exact ⟨id, out, tok, hforth hc, ho⟩
  · rw [outgoing, Dict.get?_set] at hout
    split at hout
    · rename_i heq
      subst id
      exact cancel tok (Option.some.inj hout ▸ htok)
    · exact h.cancel id out tok hout htok

omit [Reducers] in
/-- Committing one of its migrations freezes an active company. -/
theorem Handover.commits {k : Call} (h : Handover hosts host k.s) (self : k.ctx.host = host)
    {o : Organization} {migrationId : Uuid} {ready : SignedToken} {snapshot : Snapshot}
    {out : OutboundMigration} {org : Organization} {body : ReadyBody}
    (commits : k.Commits o migrationId ready snapshot out org body)
    (outgoing : t.outgoing = k.s.outgoing.set migrationId
      { out with commitToken := some (k.committed migrationId ready out body) })
    (companies : t.organizations = k.s.organizations.set out.manifest.organizationId
      { org with status := .migrated }) : Handover hosts host t := by
  have hactive : ∀ {id out' tok}, Committed k.s id out' tok →
      out'.manifest.organizationId ≠ out.manifest.organizationId := by
    intro id out' tok hc horg
    obtain ⟨org', horg', hmoved, -⟩ := h.frozen id out' tok hc
    rw [horg, commits.company] at horg'
    obtain rfl := Option.some.inj horg'
    simp [commits.active] at hmoved
  have hforth : ∀ {id out' tok}, Committed k.s id out' tok → Committed t id out' tok := by
    intro id out' tok hc
    refine ⟨?_, hc.token⟩
    rw [outgoing, Dict.get?_set_of_ne, hc.found]
    rintro rfl
    obtain rfl := Option.some.inj (hc.found.symm.trans commits.found)
    exact hactive hc rfl
  have hself := Dict.get?_set_self k.s.outgoing migrationId
    { out with commitToken := some (k.committed migrationId ready out body) }
  refine
    { destination := fun id out' hout => ?_
      commit := fun id out' tok hc => ?_
      frozen := fun id out' tok hc => ?_
      single := fun id out' tok hc id' out'' tok' hc' horg => ?_
      moved := fun o org' horg hmoved => ?_
      cancel := fun id out' tok hout htok => ?_
      exclusive := fun id out' tok hc => ?_ }
  · rw [outgoing, Dict.get?_set] at hout
    split at hout
    · obtain rfl := Option.some.inj hout
      exact h.destination migrationId out commits.found
    · exact h.destination id out' hout
  · rcases hc.cases outgoing with ⟨rfl, rfl, htok⟩ | ⟨-, hc⟩
    · obtain rfl := Option.some.inj htok
      exact ⟨congrArg HostRef.keyId self, congrArg HostRef.audience self, rfl, rfl, rfl, rfl, rfl⟩
    · exact h.commit id out' tok hc
  · rcases hc.cases outgoing with ⟨rfl, rfl, -⟩ | ⟨-, hc⟩
    · refine ⟨{ org with status := .migrated }, ?_, rfl, commits.generation⟩
      rw [companies, Dict.get?_set_self]
    · rw [companies, Dict.get?_set_of_ne _ _ (hactive hc)]
      exact h.frozen id out' tok hc
  · rcases hc.cases outgoing with ⟨rfl, rfl, -⟩ | ⟨-, hc⟩ <;>
      rcases hc'.cases outgoing with ⟨rfl, rfl, -⟩ | ⟨-, hc'⟩
    · rfl
    · exact absurd horg.symm (hactive hc')
    · exact absurd horg (hactive hc)
    · exact h.single id out' tok hc id' out'' tok' hc' horg
  · rw [companies, Dict.get?_set] at horg
    split at horg
    · rename_i heq
      exact ⟨migrationId,
        { out with commitToken := some (k.committed migrationId ready out body) }, _,
        ⟨outgoing ▸ hself, rfl⟩, heq.symm⟩
    · obtain ⟨id, out', tok, hc, ho⟩ := h.moved o org' horg hmoved
      exact ⟨id, out', tok, hforth hc, ho⟩
  · rw [outgoing, Dict.get?_set] at hout
    split at hout
    · obtain rfl := Option.some.inj hout
      simp [commits.uncancelled] at htok
    · exact h.cancel id out' tok hout htok
  · rcases hc.cases outgoing with ⟨rfl, rfl, -⟩ | ⟨-, hc⟩
    · exact commits.uncancelled
    · exact h.exclusive id out' tok hc

omit [Primitives] [Reducers] in
/-- The frozen companies of a later state, when the migrations stay. -/
theorem Handover.same (h : Handover hosts host s)
    (companies : Later Organization.Continues s.organizations t.organizations)
    (outgoing : t.outgoing = s.outgoing) (leave : NoneLeave s t) : Handover hosts host t := by
  have hback : ∀ {id out tok}, Committed t id out tok → Committed s id out tok :=
    fun hc => ⟨outgoing ▸ hc.found, hc.token⟩
  refine
    { destination := fun id out hout => h.destination id out (outgoing ▸ hout)
      commit := fun id out tok hc => h.commit id out tok (hback hc)
      frozen := fun id out tok hc => ?_
      single := fun id out tok hc id' out' tok' hc' =>
        h.single id out tok (hback hc) id' out' tok' (hback hc')
      moved := fun o org horg hmoved => ?_
      cancel := fun id out tok hout => h.cancel id out tok (outgoing ▸ hout)
      exclusive := fun id out tok hc => h.exclusive id out tok (hback hc) }
  · obtain ⟨org, horg, hmoved, hgen⟩ := h.frozen id out tok (hback hc)
    obtain ⟨org', horg', hcont⟩ := companies _ org horg
    exact ⟨org', horg', hcont.moved hmoved, hcont.generation.trans hgen⟩
  · obtain ⟨org', horg', hmoved'⟩ := leave o org horg hmoved
    obtain ⟨id, out, tok, hc, ho⟩ := h.moved o org' horg' hmoved'
    exact ⟨id, out, tok, ⟨outgoing ▸ hc.found, hc.token⟩, ho⟩

end

theorem Handover.next {hosts : Set HostRef} {host : HostRef} {s : State} {c : Command}
    {ctx : Context} {signed : List KeyId} {reply : Reply} (h : Handover hosts host s)
    (keyed : Keyed s) (accepted : Accepted s c ctx signed reply) (self : ctx.host = host)
    (pinned : ∀ a k, ctx.pins a = some k → ⟨a, k⟩ ∈ hosts) :
    Handover hosts host (reply.next c) := by
  have companies := (accepted.keeps keyed).organizations
  have hk : Handover hosts host (callOf s c ctx signed).s := h
  cases accepted.outgoingStep keyed with
  | same outgoing leave => exact hk.same companies outgoing leave
  | prepare org snapshot destination absent hpinned outgoing same =>
    refine hk.uncommitted outgoing same (fun out hout => ?_) rfl
      (pinned destination.audience destination.keyId hpinned) (by simp [Call.outbound])
    exact absurd (hout.symm.trans absent) (by simp)
  | commit o migrationId ready snapshot out org body commits outgoing companies _ =>
    exact hk.commits self commits outgoing companies
  | cancel migrationId out o owns uncommitted outgoing same =>
    refine hk.uncommitted outgoing same (fun out' hout => ?_) uncommitted
      (h.destination migrationId out owns.found) ?_
    · obtain rfl := Option.some.inj (hout.symm.trans owns.found)
      exact uncommitted
    · rintro tok ⟨⟩
      exact ⟨congrArg HostRef.keyId self, congrArg HostRef.audience self, rfl⟩

end DirectTrade
