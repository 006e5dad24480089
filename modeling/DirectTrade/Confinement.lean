import DirectTrade.Companies
import DirectTrade.Observations
import DirectTrade.ReadIsolation

/-!
What a module can reach. A command that an installation signs acts under the policies and
the actions of the installation, the profiles of its release and the rights of the human who
answers for it; beside records and stock it changes nothing.
-/

namespace DirectTrade

open Library

variable [Primitives] [Reducers]

omit [Reducers] in
/-- A publication whose digest is stored is the stored one: no two publications of the run
share a digest. -/
def DistinctRelease (s : State) (c : Command) : Prop :=
  ∀ p org r, c.payload = .mutation (.releasePublish p) → c.organizationId = some org →
    s.releases.get? (Primitives.digestRelease org p) = some r → r.toReleasePayload = p

def ReleasesStay (s t : State) : Prop :=
  ∀ d r, s.releases.get? d = some r → t.releases.get? d = some r

omit [Primitives] [Reducers] in
theorem State.reserve_releases {s : State} {other : Snapshot} {d : Digest} {r : Release}
    (h : s.releases.get? d = some r) : (s.reserve other).releases.get? d = some r := by
  simp [State.reserve, Dict.get?_foldl_setNew, h]

omit [Reducers] in
theorem validateReleases_stored {s : State} {snap : Snapshot}
    (h : validateReleases s snap = .ok ()) :
    ∀ r ∈ snap.releases, (s.releases.get? r.digest).all (· = r) = true := by
  simp only [validateReleases, Outcome.bind_eq_ok, Outcome.pure_eq_ok] at h
  obtain ⟨replay, hfold, -⟩ := h
  refine Outcome.foldlM_prefix
    (fun pre (_ : ReleaseReplay) => ∀ r ∈ pre, (s.releases.get? r.digest).all (· = r) = true)
    ?_ (by simp) hfold
  intro pre r replay replay' hpre hstep
  simp only [validateRelease, Outcome.bind_eq_ok, demand_eq_ok] at hstep
  obtain ⟨_, -, _, -, _, -, _, -, _, -, _, -, _, -, _, -, _, -, _, -, _, -, _, hstored, -⟩ := hstep
  intro x hx
  rcases List.mem_append.mp hx with hx | hx
  · exact hpre x hx
  · obtain rfl := List.mem_singleton.mp hx
    exact hstored

theorem ReleasesStay.takeOver {s : State} {snap : Snapshot}
    (valid : validateSnapshot s snap = .ok ()) : ReleasesStay s (takeOver s snap) := by
  obtain ⟨_, _, _, _, validated⟩ := (validateSnapshot_eq_ok s snap ()).mp valid
  intro d r hr
  have hreserved : (reservedState s snap).releases.get? d = some r :=
    reservedState_induction (P := fun t => t.releases.get? d = some r) snap hr
      fun t other _ ht => State.reserve_releases ht
  refine (Dict.get?_foldl_set Release.digest snap.releases s.releases d).trans ?_
  cases hfind : snap.releases.reverse.find? (·.digest = d) with
  | none => rw [Option.none_or, hr]
  | some carried =>
    have hdigest : carried.digest = d := by simpa using List.find?_some hfind
    have hmem := List.mem_reverse.mp (List.mem_of_find?_eq_some hfind)
    have hsame := validateReleases_stored validated.releases carried hmem
    rw [hdigest, hreserved] at hsame
    have hsame : r = carried := of_decide_eq_true hsame
    rw [Option.some_or, hsame]

omit [Primitives] [Reducers] in
theorem pushHistory_releases (s : State) (c : Command) :
    (pushHistory s c).releases = s.releases := by
  unfold pushHistory
  split <;> rfl

omit [Primitives] [Reducers] in
theorem setOrg_releases (k : Call) (o : Organization) :
    (k.setOrg o).releases = k.s.releases := by
  unfold Call.setOrg
  split <;> rfl

theorem Accepted.releasesStay {s : State} {c : Command} {ctx : Context} {signed : List KeyId}
    {reply : Reply} (keyed : Keyed s) (h : Accepted s c ctx signed reply)
    (distinct : DistinctRelease s c) : ReleasesStay s (reply.next c) := by
  intro d r hr
  cases h.effect with
  | found orgId name nonce controllers threshold payload founds =>
    show (pushHistory _ c).releases.get? d = some r
    rw [pushHistory_releases, setOrg_releases]
    exact hr
  | company o o' m result payload fresh inside change =>
    show (pushHistory _ c).releases.get? d = some r
    rw [pushHistory_releases, setOrg_releases]
    exact hr
  | release o p payload releases =>
    have hne : d ≠ Primitives.digestRelease o.id p := by
      rintro rfl
      obtain ⟨org, hnamed, ho⟩ := releases.inside.named
      have hid : o.id = org := keyed.organizations org o ho
      have hsame := distinct p org r payload hnamed (hid ▸ hr)
      have himmutable := releases.immutable r (Dict.mem_values_of_get? hr)
      rw [← hsame] at himmutable
      exact himmutable rfl rfl
    exact (Dict.get?_set_of_ne _ _ hne).trans hr
  | append o p profile before t company validation payload appends assessed =>
    obtain rfl : s = t := (counterparties_eq keyed.remoteAuthorities appends.attested).symm
    cases company <;> exact hr
  | duplicate o p profile before t company recordId recorded payload appends assessed known =>
    obtain rfl : s = t := (counterparties_eq keyed.remoteAuthorities appends.attested).symm
    exact hr
  | finalize migrationId token stage ready body snapshot payload stages binds inactive held
      absent digest valid activates => exact ReleasesStay.takeOver valid d r hr
  | _ => exact hr

/-- Every active installation runs a stored release and has no action beyond it. -/
def InstalledWithin (s : State) : Prop :=
  ∀ (org : Uuid) (o : Organization) (id : Uuid) (inst : Installation),
    s.organizations.get? org = some o → o.installations[id]? = some inst → inst.active = true →
    ∃ release : Release, s.releases.get? inst.releaseDigest = some release ∧
      inst.actions ⊆ release.actions

theorem InstalledWithin.next {s : State} {c : Command} {ctx : Context} {signed : List KeyId}
    {reply : Reply} (within : InstalledWithin s) (keyed : Keyed s)
    (h : Accepted s c ctx signed reply) (distinct : DistinctRelease s c) :
    InstalledWithin (reply.next c) := by
  intro org o id inst ho hinst hactive
  have hstay := h.releasesStay keyed distinct
  have hmove := h.companyMove keyed org
  rw [ho] at hmove
  rcases hmove.installed hinst hactive with ⟨old, hold, hinst⟩ | ⟨p, old, release, creates⟩
  · obtain ⟨release, hrelease, hactions⟩ := within org old id inst hold hinst hactive
    exact ⟨release, hstay _ _ hrelease, hactions⟩
  · rw [creates.inst]
    exact ⟨release, hstay _ _ creates.installs.released, creates.installs.actions.2.2.2⟩

theorem Path.installedWithin {l : List Turn} {s : State} (path : Path l s)
    (distinct : ∀ turn ∈ l, DistinctRelease turn.state turn.command) : InstalledWithin s := by
  induction path with
  | nil =>
    intro org o id inst ho
    exact nomatch ho
  | snoc before accepted ih =>
    obtain ⟨signed, reply, haccepted, rfl, -⟩ := execute_eq_ok accepted
    have hwithin := ih fun turn hturn => distinct turn (List.mem_append_left _ hturn)
    have hlast := distinct _ (List.mem_append_right _ (List.mem_singleton_self _))
    have hnext := hwithin.next before.reachable.keyed haccepted hlast
    exact hnext

/-- The live approval of a release: a trusted assessor's unrevoked and unexpired token for the
exact artifact. -/
structure LiveAssessment (release : Release) (ctx : Context) (assessment : Signed AssessmentBody) :
    Prop where
  carried : release.assessment = some assessment
  verified : ∃ a, verifyAssessment assessment ctx = .ok a ∧
    a.artifactDigest = release.artifactDigest ∧ a.approved = true
  lifetime : assessment.body.expiresAt > ctx.now

/-- The human who answers for an installation's command: the requester who signed it, or the
sponsor of an automation. -/
def Call.Answers (k : Call) (o : Organization) (inst : Installation) : Option Uuid → Prop
  | some person => activeMember k.s o person k.ctx.now = true ∧
      personSigned k.s k.signed person = true
  | none => inst.mode = .automation ∧ activeMember k.s o inst.sponsorId k.ctx.now = true

/-- An installation of the named company that may act: active and unexpired under its key,
within its release, with a live assessment and its human present. -/
structure Call.Runs (k : Call) (o : Organization) (inst : Installation) (release : Release) :
    Prop where
  org : k.org = some o
  found : o.installations[k.c.actor.id]? = some inst
  active : inst.active = true
  key : inst.keyId = k.c.actor.keyId
  lifetime : inst.expiresAt > k.ctx.now
  action : k.c.payload.forInstallation = true
  released : k.s.releases.get? inst.releaseDigest = some release
  assessed : ∃ assessment, LiveAssessment release k.ctx assessment
  within : inst.actions ⊆ release.actions
  human : k.Answers o inst k.c.requestedBy

omit [Reducers] in
theorem approvedArtifact_live {release : Release} {assessment : Signed AssessmentBody}
    {ctx : Context} {message : String} (carried : release.assessment = some assessment)
    (h : approvedArtifact assessment release.artifactDigest ctx message = .ok ()) :
    LiveAssessment release ctx assessment := by
  simp only [approvedArtifact, Outcome.bind_eq_ok, demand_eq_ok] at h
  obtain ⟨a, hverified, hmatch⟩ := h
  refine ⟨carried, ⟨a, hverified, hmatch⟩, ?_⟩
  simp only [verifyAssessment, verifyToken, Outcome.bind_eq_ok, require_eq_ok, demand_eq_ok]
    at hverified
  obtain ⟨_, -, _, -, b, -, _, -, _, -, _, hlifetime, -⟩ := hverified
  exact hlifetime.2.1

omit [Reducers] in
theorem runs_of_admitted {s : State} {c : Command} {ctx : Context} {signed : List KeyId}
    (within : InstalledWithin s) (admitted : admission s c ctx = .ok signed)
    (kind : c.actor.kind = .installation) (hregister : c.payload.isRegister = false) :
    ∃ o inst release, (callOf s c ctx signed).Runs o inst release := by
  have hadmission := (admission_eq_ok admitted).2.2
  simp only [admitActor, hregister, Bool.false_eq_true, if_false, kind, Outcome.bind_eq_ok,
    require_eq_ok, Option.filter_eq_some_iff, Bool.and_eq_true, decide_eq_true_eq] at hadmission
  obtain ⟨o, horg, inst, ⟨hfound, ⟨⟨hactive, hkey⟩, hlifetime⟩, haction⟩, release, hrelease,
    assessment, hcarried, _, happroved, hhuman⟩ := hadmission
  obtain ⟨id, -, ho⟩ := Option.bind_eq_some_iff.mp horg
  obtain ⟨release', hrelease', hactions⟩ := within id o _ inst ho hfound hactive
  obtain rfl := Option.some.inj (hrelease'.symm.trans hrelease)
  refine ⟨o, inst, release', horg, hfound, hactive, hkey, hlifetime, haction, hrelease,
    ⟨assessment, approvedArtifact_live hcarried happroved⟩, hactions, ?_⟩
  show (callOf s c ctx signed).Answers o inst c.requestedBy
  cases hrequested : c.requestedBy with
  | none =>
    simp only [hrequested, demand_eq_ok] at hhuman
    exact hhuman
  | some person =>
    simp only [hrequested, demand_eq_ok] at hhuman
    exact hhuman

/-- The right by which an installation reaches a resource: a policy of its company that it is
installed under, an action that it and its release have, and a grant to its human. -/
structure Call.Right (k : Call) (o : Organization) (inst : Installation) (release : Release)
    (policyId resource : Uuid) (action : DataAction) : Prop where
  scope : policyId ∈ inst.policyIds
  held : action ∈ inst.actions
  released : action ∈ release.actions
  granted : ∃ pol human, k.s.policies.get? policyId = some pol ∧ pol.organizationId = o.id ∧
    humanOf o k.c = some human ∧ grants k.s o pol resource action k.ctx human = true

/-- A record of the company that an installation reaches under a profile of its release. -/
structure Call.Reaches (k : Call) (o : Organization) (inst : Installation) (release : Release)
    (r : BusinessRecord) (action : DataAction) : Prop where
  own : r.organizationId = o.id
  right : k.Right o inst release r.policyId r.resourceId action
  profile : r.profileDigest ∈ release.profiles

section

variable {k : Call} {o : Organization} {inst : Installation} {release : Release}

omit [Reducers] in
theorem Call.Runs.right (runs : k.Runs o inst release) (keyed : Keyed k.s)
    (kind : k.c.actor.kind = .installation) {policyId resource : Uuid} {action : DataAction}
    (h : k.can policyId resource action = .ok true) :
    k.Right o inst release policyId resource action := by
  obtain ⟨o', inside, pol, hpol, horg, hallowed⟩ := (Call.can_eq_ok k _ _ _ _).mp h
  obtain rfl : o = o' := Option.some.inj (runs.org.symm.trans inside.org)
  have hid : pol.id = policyId := keyed.policies policyId pol hpol
  simp only [dataAllowed, kind, Table.has, runs.found, Option.any_some, Bool.and_eq_true,
    decide_eq_true_eq] at hallowed
  obtain ⟨-, ⟨⟨-, hscope⟩, haction⟩, hgrants⟩ := hallowed
  obtain ⟨human, hhuman, hgranted⟩ := (Option.any_eq_true _ _).mp hgrants
  exact ⟨hid ▸ hscope, haction, runs.within haction, pol, human, hpol, horg, hhuman, hgranted⟩

omit [Reducers] in
theorem Call.Runs.moduleProfiles (runs : k.Runs o inst release) :
    k.moduleProfiles o = .ok release.profiles := by
  simp only [Call.moduleProfiles, Outcome.bind_eq_ok, access_eq_ok, Outcome.pure_eq_ok]
  exact ⟨inst, runs.found, release, runs.released, rfl⟩

omit [Reducers] in
theorem Call.Runs.understands_iff (runs : k.Runs o inst release)
    (kind : k.c.actor.kind = .installation) (inside : k.Inside o) (d : Digest) :
    k.understands d = .ok true ↔ d ∈ release.profiles := by
  simp only [Call.understands, kind, (Call.currentOrg_eq_ok k o).mpr inside, Outcome.ok_bind,
    runs.moduleProfiles, Outcome.pure_eq_ok, decide_eq_true_eq]

omit [Reducers] in
theorem Call.Runs.reaches (runs : k.Runs o inst release) (keyed : Keyed k.s)
    (kind : k.c.actor.kind = .installation) {r : BusinessRecord} (h : k.MayRead r) :
    k.Reaches o inst release r .read := by
  obtain ⟨o', inside, horg, hreadable⟩ := h
  obtain rfl : o = o' := Option.some.inj (runs.org.symm.trans inside.org)
  have hcan := Call.can_of_readable hreadable
  have hunderstands : k.understands r.profileDigest = .ok true := by
    simpa [Call.readable, hcan] using hreadable
  have hprofile := (runs.understands_iff kind inside r.profileDigest).mp hunderstands
  exact ⟨horg, runs.right keyed kind hcan, hprofile⟩

end

/-- A stored record as its view shows it. -/
structure Call.Shows (k : Call) (o : Organization) (inst : Installation) (release : Release)
    (view : RecordView) : Prop where
  stored : k.s.records.get? view.record.id = some view.record
  reaches : k.Reaches o inst release view.record .read
  assessed : k.viewRecord view.record = .ok view

/-- A stock entry that an installation reads: under a policy that it reaches, and with every
profile of its records declared. -/
structure Call.Holds (k : Call) (o : Organization) (inst : Installation) (release : Release)
    (policyId resource : Uuid) (semantics : Semantics) : Prop where
  right : k.Right o inst release policyId resource .read
  declares : ∃ d ∈ release.profiles,
    ((k.s.profiles.get? d).any fun p => p.semantics = semantics) = true
  understands : ∀ r ∈ k.s.records.values, r.organizationId = o.id → r.resourceId = resource →
    hasSemantics k.s.profiles.get? semantics r = true → r.profileDigest ∈ release.profiles

/-- A record that an installation writes. -/
structure Call.Writes (k : Call) (o : Organization) (inst : Installation) (release : Release)
    (p : RecordPayload) : Prop where
  own : p.organizationId = o.id
  right : k.Right o inst release p.policyId p.resourceId .write
  profile : p.profileDigest ∈ release.profiles

/-- What an accepted command of an installation reads, discloses and writes. -/
inductive Call.Within (k : Call) (o : Organization) (inst : Installation) (release : Release) :
    Reply → Prop
  | record (id : Uuid) (d : Digest) (view : RecordView) (payload : k.c.payload = .recordGet id d)
      (named : view.record.id = id) (shows : k.Shows o inst release view) :
      Within k o inst release (k.answer (some (.record view)))
  | page (p : PagePayload) (exporting : Bool) (page : Page)
      (payload : k.c.payload.page? = some (p, exporting))
      (shows : ∀ view ∈ page.records, k.Shows o inst release view ∧
        (exporting = true → k.Reaches o inst release view.record .export)) :
      Within k o inst release (k.answer (some (.page page)))
  | pool (policyId poolId : Uuid) (pool : Pool)
      (payload : k.c.payload = .inventoryGet policyId poolId)
      (found : (companyInventory k.s o.id).pools[poolId]? = some pool)
      (held : pool.policyId = policyId)
      (holds : k.Holds o inst release policyId poolId .inventoryV1) :
      Within k o inst release (k.answer (some (.poolState pool)))
  | ledger (policyId productId : Uuid) (ledger : Ledger)
      (payload : k.c.payload = .inventoryLedger policyId productId)
      (found : (companyInventory k.s o.id).ledgerIndex.ledgers[productId]? = some ledger)
      (held : ledger.policyId = policyId)
      (holds : k.Holds o inst release policyId productId .inventoryV2) :
      Within k o inst release (k.answer (some (.ledgerState ledger)))
  | book (policyId bookId : Uuid) (book : Book) (payload : k.c.payload = .flowBook policyId bookId)
      (found : (companyInventory k.s o.id).flowIndex.books[bookId]? = some book)
      (held : book.policyId = policyId) (holds : k.Holds o inst release policyId bookId .flowV1) :
      Within k o inst release (k.answer (some (.bookState book)))
  | profile (digest : Digest) (profile : Profile) (payload : k.c.payload = .profileGet digest)
      (found : k.s.profiles.get? digest = some profile) (declared : digest ∈ release.profiles) :
      Within k o inst release (k.answer (some (.profile profile)))
  | evidence (token : SignedToken) (accepted : List Digest) (body : EvidenceBody)
      (inspected : List InspectedRecord) (payload : k.c.payload = .evidenceInspect token accepted)
      (verified : verifyToken TokenBody.evidence? token k.ctx = .ok body)
      (addressed : body.recipient.organizationId = o.id ∧ body.recipient.audience = k.ctx.audience)
      (right : k.Right o inst release body.recipient.policyId body.recipient.resourceId .read)
      (shows : inspected.map (·.record) = body.records.map (·.toRecordPayload))
      (profiles : ∀ r ∈ body.records, r.profileDigest ∈ release.profiles) :
      Within k o inst release (k.answer (some (.evidence body.sourceOrganization body.purpose
        body.expiresAt inspected body.profiles)))
  | replay (p : RecordPayload) (receipt : Receipt)
      (payload : k.c.payload = .mutation (.recordAppend p))
      (previous : k.previous = some receipt) (writes : k.Writes o inst release p) :
      Within k o inst release (k.answer receipt.result)
  | append (p : RecordPayload) (company : Option Inventory) (validation : Validation)
      (payload : k.c.payload = .mutation (.recordAppend p)) (absent : k.s.records.get? p.id = none)
      (writes : k.Writes o inst release p)
      (predecessor : ∀ id, p.supersedes = some id → ∃ before, k.s.records.get? id = some before ∧
        k.Reaches o inst release before .read ∧ before.policyId = p.policyId ∧
          before.resourceId = p.resourceId ∧ before.profileDigest = p.profileDigest)
      (stock : ∀ next, company = some next →
        (companyInventory k.s o.id).Within next p.policyId p.resourceId) :
      Within k o inst release (Reply.write
        (insertRecord (company.elim k.s (k.s.setInventory o.id)) o.id (k.appended o p validation))
        (.appended p.id (nextRecordSeq k.s o.id) false))
  | duplicate (p : RecordPayload) (company : Inventory) (recorded : BusinessRecord)
      (payload : k.c.payload = .mutation (.recordAppend p)) (writes : k.Writes o inst release p)
      (known : k.s.records.get? recorded.id = some recorded)
      (own : recorded.organizationId = o.id) (policy : recorded.policyId = p.policyId)
      (profile : recorded.profileDigest = p.profileDigest)
      (stock : (companyInventory k.s o.id).Within company p.policyId p.resourceId) :
      Within k o inst release (Reply.write (k.s.setInventory o.id company)
        (.appended recorded.id recorded.seq true))

section

variable {k : Call} {o : Organization} {inst : Installation} {release : Release} {reply : Reply}

omit [Reducers] in
theorem Call.Runs.inside (runs : k.Runs o inst release) {o' : Organization}
    (inside : k.Inside o') : o' = o :=
  Option.some.inj (inside.org.symm.trans runs.org)

omit [Primitives] in
theorem Call.viewRecord_record {r : BusinessRecord} {view : RecordView}
    (h : k.viewRecord r = .ok view) : view.record = r := by
  simp only [viewRecord, Outcome.bind_eq_ok, Outcome.pure_eq_ok] at h
  obtain ⟨profile, -, rfl⟩ := h
  rfl

theorem Call.Runs.shows (runs : k.Runs o inst release) (keyed : Keyed k.s)
    (kind : k.c.actor.kind = .installation) {r : BusinessRecord} {view : RecordView}
    (stored : k.s.records.get? r.id = some r) (may : k.MayRead r)
    (h : k.viewRecord r = .ok view) : k.Shows o inst release view := by
  obtain rfl := viewRecord_record h
  exact ⟨stored, runs.reaches keyed kind may, h⟩

theorem Call.Runs.recordGet (runs : k.Runs o inst release) (keyed : Keyed k.s)
    (kind : k.c.actor.kind = .installation) {id : Uuid} {d : Digest}
    (payload : k.c.payload = .recordGet id d) (h : k.recordGet id d = .ok reply) :
    k.Within o inst release reply := by
  simp only [Call.recordGet, Outcome.bind_eq_ok, require_eq_ok, demand_eq_ok,
    currentOrg_eq_ok, Outcome.pure_eq_ok] at h
  obtain ⟨r, hr, o', inside, _, horg, allowed, hallowed, _, rfl, _, -, view, hview, rfl⟩ := h
  have hid : r.id = id := keyed.records id r hr
  have hstored : k.s.records.get? r.id = some r := hid ▸ hr
  have hshows := runs.shows keyed kind hstored ⟨o', inside, horg, hallowed⟩ hview
  have hnamed : view.record.id = id := by rw [viewRecord_record hview, hid]
  exact .record id d view payload hnamed hshows

omit [Primitives] [Reducers] in
theorem Call.onPage_export {after : ℕ} {accepted : List Digest} {r : BusinessRecord}
    (h : k.onPage o after accepted true r = .ok true) :
    k.can r.policyId r.resourceId .export = .ok true := by
  unfold onPage at h
  split at h
  · simp only [Outcome.bind_eq_ok, if_true] at h
    obtain ⟨allowed, -, h⟩ := h
    cases allowed with
    | false => simp at h
    | true =>
      simp only [if_true, Outcome.bind_eq_ok] at h
      obtain ⟨exportable, hexportable, h⟩ := h
      cases exportable with
      | true => exact hexportable
      | false => simp at h
  · simp at h

theorem Call.Runs.recordsPage (runs : k.Runs o inst release) (keyed : Keyed k.s)
    (kind : k.c.actor.kind = .installation) {p : PagePayload} {exporting : Bool}
    (payload : k.c.payload.page? = some (p, exporting))
    (h : k.recordsPage p exporting = .ok reply) : k.Within o inst release reply := by
  simp only [Call.recordsPage, Outcome.bind_eq_ok, demand_eq_ok, currentOrg_eq_ok,
    Outcome.pure_eq_ok] at h
  obtain ⟨o', inside, _, -, _, -, expanded, -, chosen, hkeep, views, hviews, rfl⟩ := h
  obtain rfl := runs.inside inside
  refine .page p exporting _ payload fun view hview => ?_
  obtain ⟨r, hr, hrview⟩ := (Outcome.exists_of_mapM hviews).1 view hview
  have hchosen : r ∈ chosen := (List.mem_insertionSort _).mp (List.mem_of_mem_take
    (List.mem_of_mem_take hr))
  obtain ⟨hvalue, honPage⟩ := Outcome.mem_of_keep hkeep r hchosen
  have hmay := mayRead_of_onPage inside honPage
  have hshows := runs.shows keyed kind ((mem_records keyed).mp hvalue) hmay hrview
  refine ⟨hshows, fun hexporting => ?_⟩
  subst hexporting
  have hright := runs.right keyed kind (onPage_export honPage)
  rw [viewRecord_record hrview]
  exact ⟨(runs.reaches keyed kind hmay).own, hright, (runs.reaches keyed kind hmay).profile⟩

omit [Reducers] in
theorem Call.Runs.readStock {σ : Type} (runs : k.Runs o inst release) (keyed : Keyed k.s)
    (kind : k.c.actor.kind = .installation) (inside : k.Inside o) {value : Option σ}
    {policyOf : σ → Uuid} {policyId resource : Uuid} {semantics : Semantics} {message : String}
    {held : σ} (h : k.readStock o value policyOf policyId resource semantics message = .ok held) :
    value = some held ∧ policyOf held = policyId ∧
      k.Holds o inst release policyId resource semantics := by
  simp only [Call.readStock, Outcome.bind_eq_ok, require_eq_ok, demand_eq_ok,
    Outcome.pure_eq_ok, Option.filter_eq_some_iff, decide_eq_true_eq] at h
  obtain ⟨consumer, hconsumer, understood, hunderstood, _, ⟨hvalue, hpolicy⟩, allowed, hallowed,
    _, ⟨rfl, rfl, rfl⟩, rfl⟩ := h
  refine ⟨hvalue, hpolicy, runs.right keyed kind hallowed, ?_, ?_⟩
  · simp only [Call.consumes, kind, runs.moduleProfiles, Outcome.ok_bind, Outcome.pure_eq_ok,
      List.any_eq_true] at hconsumer
    exact hconsumer
  · intro r hr horg hresource hsemantics
    have hmem : r ∈ k.s.records.values.filter fun r => r.organizationId = o.id &&
        r.resourceId = resource && hasSemantics k.s.profiles.get? semantics r :=
      List.mem_filter.mpr ⟨hr, by simp [horg, hresource, hsemantics]⟩
    exact (runs.understands_iff kind inside _).mp (Outcome.every_eq_ok hunderstood r hmem)

/-- A call that reads one stock and answers with it. -/
theorem Call.Runs.stockReply {σ : Type} (runs : k.Runs o inst release) (keyed : Keyed k.s)
    (kind : k.c.actor.kind = .installation) {value : Organization → Option σ}
    {policyOf : σ → Uuid} {policyId resource : Uuid} {semantics : Semantics} {message : String}
    {answer : σ → Result}
    (within : ∀ held, value o = some held → policyOf held = policyId →
      k.Holds o inst release policyId resource semantics →
        k.Within o inst release (k.answer (some (answer held))))
    (h : (do
      let o ← k.currentOrg
      let held ← k.readStock o (value o) policyOf policyId resource semantics message
      pure (k.answer (some (answer held)))) = .ok reply) : k.Within o inst release reply := by
  simp only [Outcome.bind_eq_ok, currentOrg_eq_ok, Outcome.pure_eq_ok] at h
  obtain ⟨o', inside, held, hread, rfl⟩ := h
  obtain rfl := runs.inside inside
  obtain ⟨hfound, hpolicy, hholds⟩ := runs.readStock keyed kind inside hread
  exact within held hfound hpolicy hholds

theorem Call.Runs.inventoryGet (runs : k.Runs o inst release) (keyed : Keyed k.s)
    (kind : k.c.actor.kind = .installation) {policyId poolId : Uuid}
    (payload : k.c.payload = .inventoryGet policyId poolId)
    (h : k.inventoryGet policyId poolId = .ok reply) : k.Within o inst release reply :=
  runs.stockReply keyed kind (fun held => .pool policyId poolId held payload) h

theorem Call.Runs.inventoryLedger (runs : k.Runs o inst release) (keyed : Keyed k.s)
    (kind : k.c.actor.kind = .installation) {policyId productId : Uuid}
    (payload : k.c.payload = .inventoryLedger policyId productId)
    (h : k.inventoryLedger policyId productId = .ok reply) : k.Within o inst release reply :=
  runs.stockReply keyed kind (fun held => .ledger policyId productId held payload) h

theorem Call.Runs.flowBook (runs : k.Runs o inst release) (keyed : Keyed k.s)
    (kind : k.c.actor.kind = .installation) {policyId bookId : Uuid}
    (payload : k.c.payload = .flowBook policyId bookId)
    (h : k.flowBook policyId bookId = .ok reply) : k.Within o inst release reply :=
  runs.stockReply keyed kind (fun held => .book policyId bookId held payload) h

theorem Call.Runs.profileGet (runs : k.Runs o inst release)
    (kind : k.c.actor.kind = .installation) {digest : Digest}
    (payload : k.c.payload = .profileGet digest) (h : k.profileGet digest = .ok reply) :
    k.Within o inst release reply := by
  simp only [Call.profileGet, Outcome.bind_eq_ok, currentOrg_eq_ok, require_eq_ok, demand_eq_ok,
    Outcome.pure_eq_ok] at h
  obtain ⟨o', inside, _, -, profile, hprofile, _, -, understood, hunderstood, _, rfl, rfl⟩ := h
  obtain rfl := runs.inside inside
  have hdeclared := (runs.understands_iff kind inside digest).mp hunderstood
  exact .profile digest profile payload hprofile hdeclared

omit [Primitives] [Reducers] in
theorem Call.visible_eq_ok {policyId resource : Uuid} {u : Unit}
    (h : k.visible policyId resource = .ok u) :
    k.can policyId resource .read = .ok true := by
  simp only [visible, Outcome.bind_eq_ok, demand_eq_ok] at h
  obtain ⟨allowed, hallowed, rfl⟩ := h
  exact hallowed

theorem Call.Runs.evidenceInspect (runs : k.Runs o inst release) (keyed : Keyed k.s)
    (kind : k.c.actor.kind = .installation) {token : SignedToken} {accepted : List Digest}
    (payload : k.c.payload = .evidenceInspect token accepted)
    (h : k.evidenceInspect token accepted = .ok reply) : k.Within o inst release reply := by
  simp only [Call.evidenceInspect, Outcome.bind_eq_ok, currentOrg_eq_ok, demand_eq_ok,
    Outcome.pure_eq_ok] at h
  obtain ⟨o', inside, body, verified, _, -, _, -, _, hbound, _, hvisible, _, -, _, -, _, -,
    inspected, hinspected, rfl⟩ := h
  obtain rfl := runs.inside inside
  have hrecord : ∀ r x, k.inspectRecord body.sourceOrganization accepted
      (fun d => (body.profiles.find? fun pr => pr.digest = d).or (k.s.profiles.get? d)) r = .ok x →
      x.record = r.toRecordPayload ∧ r.profileDigest ∈ release.profiles := by
    intro r x hx
    simp only [inspectRecord, Outcome.bind_eq_ok, demand_eq_ok, require_eq_ok,
      Outcome.pure_eq_ok] at hx
    obtain ⟨_, -, understood, hunderstood, _, rfl, _, -, _, -, profile, -, _, -, checked, -,
      rfl⟩ := hx
    exact ⟨rfl, (runs.understands_iff kind inside _).mp hunderstood⟩
  have hright := runs.right keyed kind (visible_eq_ok hvisible)
  have hsame := Outcome.map_of_mapM (fun r x hx => (hrecord r x hx).1) hinspected
  refine .evidence token accepted body inspected payload verified hbound.2 hright hsame ?_
  intro r hr
  obtain ⟨x, -, hx⟩ := (Outcome.exists_of_mapM hinspected).2 r hr
  exact (hrecord r x hx).2

omit [Reducers] in
theorem Call.Runs.declares (runs : k.Runs o inst release) (kind : k.c.actor.kind = .installation)
    {d : Digest} {u : Unit} (h : k.declares o d = .ok u) : d ∈ release.profiles := by
  simp only [Call.declares, kind, runs.moduleProfiles, Outcome.ok_bind, demand_eq_ok] at h
  exact h

omit [Primitives] [Reducers] in
/-- A record that supersedes another has a readable predecessor in the same place. -/
theorem Call.predecessor_of_continuity {p : RecordPayload} {before : Option BusinessRecord}
    {id : Uuid} {u : Unit} (found : k.predecessor o p = .ok before)
    (continues : Call.continuity p before = .ok u) (supersedes : p.supersedes = some id) :
    ∃ prior, k.s.records.get? id = some prior ∧ prior.organizationId = o.id ∧
      k.can prior.policyId prior.resourceId .read = .ok true ∧ prior.policyId = p.policyId ∧
      prior.resourceId = p.resourceId ∧ prior.profileDigest = p.profileDigest := by
  cases before with
  | none =>
    simp only [continuity, demand_eq_ok] at continues
    exact absurd (continues.1.symm.trans supersedes) (by simp)
  | some prior =>
    simp only [continuity, demand_eq_ok] at continues
    obtain ⟨-, -, hpolicy, hresource, hprofile, -⟩ := continues
    simp only [predecessor, supersedes, Option.bind_some] at found
    cases hprior : k.s.records.get? id with
    | none => simp [hprior] at found
    | some r =>
      simp only [hprior] at found
      split at found
      · rename_i horg
        simp only [Outcome.bind_eq_ok, Outcome.pure_eq_ok] at found
        obtain ⟨readable, hreadable, hsome⟩ := found
        cases readable with
        | false => simp at hsome
        | true =>
          obtain rfl : r = prior := by simpa using hsome
          exact ⟨r, rfl, horg, hreadable, hpolicy, hresource, hprofile⟩
      · simp at found

theorem Call.Runs.predecessor_reached (runs : k.Runs o inst release)
    (keyed : Keyed k.s) (kind : k.c.actor.kind = .installation) {p : RecordPayload}
    (fresh : k.previous = none) (h : k.recordAppend p = .ok reply) (id : Uuid)
    (supersedes : p.supersedes = some id) :
    ∃ prior, k.s.records.get? id = some prior ∧ k.Reaches o inst release prior .read ∧
      prior.policyId = p.policyId ∧ prior.resourceId = p.resourceId ∧
      prior.profileDigest = p.profileDigest := by
  simp only [Call.recordAppend, Outcome.bind_eq_ok, currentOrg_eq_ok, fresh] at h
  obtain ⟨o', inside, _, -, _, -, _, -, profile, -, _, hdeclares, _, -, _, -, before, hbefore, _,
    hcontinues, -⟩ := h
  obtain rfl := runs.inside inside
  obtain ⟨prior, hprior, horg, hcan, hplace⟩ :=
    predecessor_of_continuity hbefore hcontinues supersedes
  have hdeclared : prior.profileDigest ∈ release.profiles :=
    hplace.2.2 ▸ runs.declares kind hdeclares
  exact ⟨prior, hprior, ⟨horg, runs.right keyed kind hcan, hdeclared⟩, hplace⟩

theorem Call.Runs.recordAppend (runs : k.Runs o inst release) (keyed : Keyed k.s)
    (kept : ObservationsKept k.s) (kind : k.c.actor.kind = .installation) {p : RecordPayload}
    (payload : k.c.payload = .mutation (.recordAppend p)) (h : k.recordAppend p = .ok reply) :
    k.Within o inst release reply := by
  have hpredecessor := fun fresh => runs.predecessor_reached keyed kind fresh h
  simp only [Call.recordAppend, Outcome.bind_eq_ok, currentOrg_eq_ok, require_eq_ok,
    demand_eq_ok, writable_eq_ok] at h
  obtain ⟨o', inside, _, -, _, hown, _, hwritable, profile, -, _, hdeclares, h⟩ := h
  obtain rfl := runs.inside inside
  have hwrites : k.Writes o' inst release p :=
    ⟨hown.1, runs.right keyed kind hwritable, runs.declares kind hdeclares⟩
  cases hprevious : k.previous with
  | some receipt =>
    simp only [hprevious, Outcome.pure_eq_ok] at h
    exact h ▸ .replay p receipt payload hprevious hwrites
  | none =>
    simp only [hprevious, Outcome.bind_eq_ok, demand_eq_ok] at h
    obtain ⟨_, habsent, _, -, before, -, _, -, s, hattested, _, -, outcome, hassess, h⟩ := h
    obtain rfl := counterparties_eq keyed.remoteAuthorities hattested
    cases Call.assess_assesses hassess with
    | duplicate company seen notes pools ledgers books known policy profile =>
      simp only [Outcome.bind_eq_ok, access_eq_ok, Outcome.pure_eq_ok] at h
      obtain ⟨recorded, hrecorded, rfl⟩ := h
      obtain ⟨r, hr, horg, hpolicy, hprofile⟩ := kept.company known
      obtain rfl : r = recorded := Option.some.inj (hr.symm.trans hrecorded)
      have hid : r.id = seen.recordId := keyed.records _ r hr
      rw [← hid]
      refine .duplicate p company r payload hwrites (hid ▸ hr) horg (hpolicy.trans policy)
        (hprofile.trans profile) ⟨?_, ?_, ?_⟩
      · exact pools ▸ .refl
      · exact ledgers ▸ .refl
      · exact books ▸ .refl
    | plain v =>
      obtain rfl := (Outcome.pure_eq_ok _ _).mp h
      refine .append p none v payload habsent.1 hwrites (hpredecessor hprevious) ?_
      intro next hnext
      cases hnext
    | stock company v notes within =>
      obtain rfl := (Outcome.pure_eq_ok _ _).mp h
      refine .append p (some company) v payload habsent.1 hwrites
        (hpredecessor hprevious) ?_
      intro next hnext
      exact Option.some.inj hnext ▸ within

/-- Every accepted action of an installation stays within its rights. -/
theorem Call.Runs.dispatch (runs : k.Runs o inst release) (keyed : Keyed k.s)
    (kept : ObservationsKept k.s) (kind : k.c.actor.kind = .installation)
    (h : k.dispatch = .ok reply) : k.Within o inst release reply := by
  have haction := runs.action
  cases hpayload : k.c.payload with
  | mutation m =>
    rw [hpayload] at haction
    cases m with
    | recordAppend p =>
      simp only [Call.dispatch, hpayload, Call.mutate] at h
      exact runs.recordAppend keyed kept kind hpayload h
    | _ => cases haction
  | recordGet id d =>
    simp only [Call.dispatch, hpayload] at h
    exact runs.recordGet keyed kind hpayload h
  | recordsList page =>
    simp only [Call.dispatch, hpayload] at h
    exact runs.recordsPage keyed kind (by simp [hpayload, Payload.page?]) h
  | recordsExport page =>
    simp only [Call.dispatch, hpayload] at h
    exact runs.recordsPage keyed kind (by simp [hpayload, Payload.page?]) h
  | inventoryGet policyId poolId =>
    simp only [Call.dispatch, hpayload] at h
    exact runs.inventoryGet keyed kind hpayload h
  | inventoryLedger policyId productId =>
    simp only [Call.dispatch, hpayload] at h
    exact runs.inventoryLedger keyed kind hpayload h
  | flowBook policyId bookId =>
    simp only [Call.dispatch, hpayload] at h
    exact runs.flowBook keyed kind hpayload h
  | profileGet digest =>
    simp only [Call.dispatch, hpayload] at h
    exact runs.profileGet kind hpayload h
  | evidenceInspect token accepted =>
    simp only [Call.dispatch, hpayload] at h
    exact runs.evidenceInspect keyed kind hpayload h
  | _ =>
    rw [hpayload] at haction
    cases haction

/-- An installation acts in a company that is active here, with its human a member. -/
theorem Call.Runs.dispatch_inside (runs : k.Runs o inst release) (h : k.dispatch = .ok reply) :
    k.Inside o := by
  have hinside : ∃ o', k.Inside o' := by
    have haction := runs.action
    cases hpayload : k.c.payload with
    | mutation m =>
      rw [hpayload] at haction
      cases m with
      | recordAppend p =>
        simp only [Call.dispatch, hpayload, Call.mutate, Call.recordAppend, Outcome.bind_eq_ok,
          currentOrg_eq_ok] at h
        exact h.imp fun _ h => h.1
      | _ => cases haction
    | recordGet id d =>
      simp only [Call.dispatch, hpayload, Call.recordGet, Outcome.bind_eq_ok,
        currentOrg_eq_ok] at h
      obtain ⟨_, -, o', inside, -⟩ := h
      exact ⟨o', inside⟩
    | recordsList page | recordsExport page | inventoryGet policyId poolId
    | inventoryLedger policyId productId | flowBook policyId bookId | profileGet digest
    | evidenceInspect token accepted =>
      simp only [Call.dispatch, hpayload, Call.recordsPage, Call.inventoryGet,
        Call.inventoryLedger, Call.flowBook, Call.profileGet, Call.evidenceInspect,
        Outcome.bind_eq_ok, currentOrg_eq_ok] at h
      exact h.imp fun _ h => h.1
    | _ =>
      rw [hpayload] at haction
      cases haction
  obtain ⟨o', inside⟩ := hinside
  exact runs.inside inside ▸ inside

end

end DirectTrade
