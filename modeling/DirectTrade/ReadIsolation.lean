import DirectTrade.Compartments

/-!
Reads of records show what the caller may read and nothing else. Two hosts that agree on
that give a reader the same response, but for one refusal of `record.get`.
-/

namespace DirectTrade

open Library

def Call.on (k : Call) (t : State) : Call := { k with s := t }

@[simp] theorem Call.on_s (k : Call) (t : State) : (k.on t).s = t := rfl

@[simp] theorem Call.on_c (k : Call) (t : State) : (k.on t).c = k.c := rfl

@[simp] theorem Call.on_ctx (k : Call) (t : State) : (k.on t).ctx = k.ctx := rfl

@[simp] theorem Call.on_org (k : Call) (t : State) : (k.on t).org = k.org := rfl

@[simp] theorem callOf_s (s : State) (c : Command) (ctx : Context) (signed : List KeyId) :
    (callOf s c ctx signed).s = s := rfl

theorem activeMember_congr {s t : State} (persons : t.persons = s.persons) (o : Organization)
    (id : Uuid) (now : Instant) : activeMember t o id now = activeMember s o id now := by
  simp only [activeMember, isPerson, persons]

theorem dataAllowed_congr {s t : State} (persons : t.persons = s.persons) (o : Organization)
    (pol : Policy) (resource : Uuid) (action : DataAction) (c : Command) (ctx : Context) :
    dataAllowed t o pol resource action c ctx = dataAllowed s o pol resource action c ctx := by
  unfold dataAllowed grants
  simp only [activeMember_congr persons]

namespace Call

variable {k : Call} {t : State}

theorem currentOrg_on (persons : t.persons = k.s.persons) : (k.on t).currentOrg = k.currentOrg := by
  simp only [currentOrg, needOrg, on_c, on_ctx, on_s, on_org, activeMember_congr persons]

theorem policy_on (persons : t.persons = k.s.persons) {id : Uuid}
    (policy : t.policies.get? id = k.s.policies.get? id) : (k.on t).policy id = k.policy id := by
  simp only [Call.policy, currentOrg_on persons, on_s, policy]

theorem can_on (persons : t.persons = k.s.persons) {id : Uuid}
    (policy : t.policies.get? id = k.s.policies.get? id) (resource : Uuid)
    (action : DataAction) : (k.on t).can id resource action = k.can id resource action := by
  simp only [can, currentOrg_on persons, policy_on persons policy, on_s, on_c, on_ctx,
    dataAllowed_congr persons]

theorem understands_on (persons : t.persons = k.s.persons) (releases : t.releases = k.s.releases)
    (d : Digest) : (k.on t).understands d = k.understands d := by
  simp only [understands, moduleProfiles, currentOrg_on persons, on_s, on_c, releases]

end Call

/-- A record that the caller may read, under a profile that the caller understands. -/
def Call.MayRead (k : Call) (r : BusinessRecord) : Prop :=
  ∃ o, k.Inside o ∧ r.organizationId = o.id ∧ k.readable r = .ok true

/-- Two states that a reader may not tell apart: the records that it may read are the same. -/
structure ReadersAgree (s t : State) (c : Command) (ctx : Context) : Prop where
  persons : t.persons = s.persons
  organizations : t.organizations = s.organizations
  policies : t.policies = s.policies
  profiles : t.profiles = s.profiles
  releases : t.releases = s.releases
  receipt : t.receipts.get? c.requestId = s.receipts.get? c.requestId
  records : ∀ signed id r, (callOf s c ctx signed).MayRead r →
    (s.records.get? id = some r ↔ t.records.get? id = some r)

/-- What holds of the records of every reachable state, whatever they say. -/
structure Hosted (s : State) : Prop where
  named : s.records.Named fun r => r.id
  governed : Governed s
  numbered : ∀ id r, s.records.get? id = some r → ∀ id' r', s.records.get? id' = some r' →
    r.organizationId = r'.organizationId → r.seq = r'.seq → id = id'

theorem Reachable.hosted [Primitives] [Reducers] {s : State} (h : Reachable s) : Hosted s :=
  ⟨h.keyed.records, h.governed, h.chained.numbered⟩

section

variable {s t : State} {c : Command} {ctx : Context} {signed : List KeyId}

theorem ReadersAgree.call (agree : ReadersAgree s t c ctx) :
    callOf t c ctx signed = (callOf s c ctx signed).on t := by
  simp only [callOf, Call.on, agree.organizations, agree.receipt]

theorem ReadersAgree.currentOrg (agree : ReadersAgree s t c ctx) :
    ((callOf s c ctx signed).on t).currentOrg = (callOf s c ctx signed).currentOrg :=
  Call.currentOrg_on agree.persons

theorem ReadersAgree.inside (agree : ReadersAgree s t c ctx) {o : Organization} :
    ((callOf s c ctx signed).on t).Inside o ↔ (callOf s c ctx signed).Inside o := by
  simp only [← Call.currentOrg_eq_ok, agree.currentOrg]

theorem ReadersAgree.can (agree : ReadersAgree s t c ctx) (id resource : Uuid)
    (action : DataAction) : ((callOf s c ctx signed).on t).can id resource action =
      (callOf s c ctx signed).can id resource action :=
  Call.can_on agree.persons (by rw [agree.policies]; rfl) resource action

theorem ReadersAgree.understands (agree : ReadersAgree s t c ctx) (d : Digest) :
    ((callOf s c ctx signed).on t).understands d = (callOf s c ctx signed).understands d :=
  Call.understands_on agree.persons agree.releases d

theorem ReadersAgree.readable (agree : ReadersAgree s t c ctx) (r : BusinessRecord) :
    ((callOf s c ctx signed).on t).readable r = (callOf s c ctx signed).readable r := by
  simp only [Call.readable, agree.can, agree.understands]

theorem ReadersAgree.mayRead (agree : ReadersAgree s t c ctx) (r : BusinessRecord) :
    ((callOf s c ctx signed).on t).MayRead r ↔ (callOf s c ctx signed).MayRead r := by
  simp only [Call.MayRead, agree.inside, agree.readable]

theorem Call.can_of_readable {k : Call} {r : BusinessRecord} (h : k.readable r = .ok true) :
    k.can r.policyId r.resourceId .read = .ok true := by
  simp only [readable, Outcome.bind_eq_ok] at h
  obtain ⟨allowed, hallowed, h⟩ := h
  cases allowed with
  | true => exact hallowed
  | false => simp at h

/-- A reference that the caller may not read resolves as an absent one does. -/
theorem Call.resolver_unknown {k : Call} {referenceId expectedType : String}
    (h : ∀ r, (parseUuid referenceId).bind k.s.records.get? = some r → ¬ k.MayRead r) :
    k.resolver referenceId expectedType = .unknown := by
  have hcases : ∀ reference, k.resolveReference referenceId expectedType = .ok reference →
      reference = .unknown := by
    intro reference href
    unfold resolveReference at href
    split at href
    · exact ((Outcome.pure_eq_ok _ _).mp href).symm
    · rename_i r hr
      simp only [Outcome.bind_eq_ok, currentOrg_eq_ok] at href
      obtain ⟨o, inside, href⟩ := href
      split at href
      · exact ((Outcome.pure_eq_ok _ _).mp href).symm
      · rename_i horg
        simp only [Outcome.bind_eq_ok] at href
        obtain ⟨allowed, hallowed, href⟩ := href
        obtain rfl : allowed = false := by
          cases allowed with
          | false => rfl
          | true => exact absurd ⟨o, inside, not_not.mp horg, hallowed⟩ (h r hr)
        split at href
        · rw [Bool.false_and, Bool.false_and, Bool.false_and, if_neg (by decide)] at href
          exact ((Outcome.pure_eq_ok _ _).mp href).symm
        · exact ((Outcome.pure_eq_ok _ _).mp href).symm
  unfold resolver
  split
  · exact hcases _ ‹_›
  · rfl

/-- What a reference resolves to does not depend on records that the caller may not read. -/
theorem ReadersAgree.resolver (agree : ReadersAgree s t c ctx) :
    ((callOf s c ctx signed).on t).resolver = (callOf s c ctx signed).resolver := by
  funext referenceId expectedType
  by_cases hs : ∃ r, (parseUuid referenceId).bind s.records.get? = some r ∧
      (callOf s c ctx signed).MayRead r
  · obtain ⟨r, hr, hmay⟩ := hs
    have hr' : (parseUuid referenceId).bind t.records.get? = some r := by
      obtain ⟨id, hid, hget⟩ := Option.bind_eq_some_iff.mp hr
      rw [hid]
      exact (agree.records signed id r hmay).mp hget
    have hsame : ((callOf s c ctx signed).on t).resolveReference referenceId expectedType =
        (callOf s c ctx signed).resolveReference referenceId expectedType := by
      have hk : (parseUuid referenceId).bind (callOf s c ctx signed).s.records.get? = some r := hr
      simp only [Call.resolveReference, Call.on_s, hr', hk, agree.readable, agree.currentOrg]
      rfl
    simp only [Call.resolver, hsame]
  · rw [Call.resolver_unknown fun r hr hmay => hs ⟨r, hr, hmay⟩, Call.resolver_unknown]
    intro r hr hmay
    rw [agree.mayRead] at hmay
    obtain ⟨id, hid, hget⟩ := Option.bind_eq_some_iff.mp hr
    refine hs ⟨r, ?_, hmay⟩
    rw [hid]
    exact (agree.records signed id r hmay).mpr hget

theorem ReadersAgree.viewRecord [Reducers] (agree : ReadersAgree s t c ctx)
    (r : BusinessRecord) :
    ((callOf s c ctx signed).on t).viewRecord r = (callOf s c ctx signed).viewRecord r := by
  have hprofiles : ((callOf s c ctx signed).on t).s.profiles =
      (callOf s c ctx signed).s.profiles := agree.profiles
  simp only [Call.viewRecord, hprofiles, agree.resolver]

/-- The installation that acts is one of the company, under a release of the host. -/
def Call.Staffed (k : Call) : Prop :=
  k.c.actor.kind = .installation → ∀ o, k.org = some o → ∃ inst release,
    o.installations[k.c.actor.id]? = some inst ∧
      k.s.releases.get? inst.releaseDigest = some release

theorem Call.can_total {k : Call} {o : Organization} (inside : k.Inside o) {id : Uuid}
    (policy : PolicyOf k.s id o.id) (resource : Uuid) (action : DataAction) :
    ∃ b, k.can id resource action = .ok b := by
  obtain ⟨pol, hpol, horg⟩ := policy
  exact ⟨_, (can_eq_ok k id resource action _).mpr ⟨o, inside, pol, hpol, horg, rfl⟩⟩

theorem Call.understands_total {k : Call} {o : Organization} (inside : k.Inside o)
    (staffed : k.Staffed) (d : Digest) : ∃ b, k.understands d = .ok b := by
  unfold understands
  cases hkind : k.c.actor.kind with
  | person => exact ⟨true, rfl⟩
  | installation =>
    obtain ⟨inst, release, hinst, hrelease⟩ := staffed hkind o inside.org
    have hprofiles : k.moduleProfiles o = .ok release.profiles := by
      simp only [moduleProfiles, Outcome.bind_eq_ok, access_eq_ok, Outcome.pure_eq_ok]
      exact ⟨inst, hinst, release, hrelease, rfl⟩
    refine ⟨decide (d ∈ release.profiles), ?_⟩
    simp [(currentOrg_eq_ok k o).mpr inside, hprofiles]

theorem Call.readable_total {k : Call} {o : Organization} (inside : k.Inside o)
    (staffed : k.Staffed) {r : BusinessRecord} (policy : PolicyOf k.s r.policyId o.id) :
    ∃ b, k.readable r = .ok b := by
  obtain ⟨allowed, hallowed⟩ := can_total inside policy r.resourceId .read
  obtain ⟨b, hb⟩ := understands_total inside staffed r.profileDigest
  cases allowed with
  | false => exact ⟨false, by simp [readable, hallowed]⟩
  | true => exact ⟨b, by simp [readable, hallowed, hb]⟩

section

variable {k : Call} {o : Organization} {after : ℕ} {accepted : List Digest} {exporting : Bool}

theorem Call.onPage_total (inside : k.Inside o) (staffed : k.Staffed) {r : BusinessRecord}
    (policy : PolicyOf k.s r.policyId r.organizationId) :
    ∃ b, k.onPage o after accepted exporting r = .ok b := by
  unfold onPage
  split
  · rename_i hof
    have policy : PolicyOf k.s r.policyId o.id := hof.1 ▸ policy
    obtain ⟨allowed, hallowed⟩ := can_total inside policy r.resourceId .read
    obtain ⟨exportable, hexportable⟩ := can_total inside policy r.resourceId .export
    obtain ⟨b, hb⟩ := understands_total inside staffed r.profileDigest
    cases allowed <;> cases exporting <;> cases exportable <;>
      simp [hallowed, hexportable, hb]
  · exact ⟨false, rfl⟩

theorem Call.mayRead_of_onPage (inside : k.Inside o) {r : BusinessRecord}
    (h : k.onPage o after accepted exporting r = .ok true) : k.MayRead r := by
  unfold onPage at h
  split at h
  · rename_i hof
    simp only [Outcome.bind_eq_ok] at h
    obtain ⟨allowed, hallowed, h⟩ := h
    refine ⟨o, inside, hof.1, ?_⟩
    cases allowed with
    | false => simp at h
    | true =>
      have hunderstands : k.understands r.profileDigest = .ok true := by
        cases exporting with
        | false => simpa using h
        | true =>
          rw [if_pos rfl, if_pos rfl, Outcome.bind_eq_ok] at h
          obtain ⟨exportable, -, h⟩ := h
          cases exportable with
          | false => simp at h
          | true => exact h
      simp [readable, hallowed, hunderstands]
  · simp at h

theorem ReadersAgree.onPage (agree : ReadersAgree s t c ctx) (r : BusinessRecord) :
    ((callOf s c ctx signed).on t).onPage o after accepted exporting r =
      (callOf s c ctx signed).onPage o after accepted exporting r := by
  simp only [Call.onPage, agree.can, agree.understands]

/-- The records that a state has for a page. -/
def Call.rows (k : Call) (o : Organization) (after : ℕ) (accepted : List Digest)
    (exporting : Bool) (records : List BusinessRecord) : List BusinessRecord :=
  records.filter fun r => Outcome.value false (k.onPage o after accepted exporting r)

theorem Call.keep_onPage (inside : k.Inside o) (staffed : k.Staffed) {records : List BusinessRecord}
    (policies : ∀ r ∈ records, PolicyOf k.s r.policyId r.organizationId) :
    Outcome.keep (k.onPage o after accepted exporting) records =
      .ok (k.rows o after accepted exporting records) := by
  refine Outcome.keep_eq_filter _ _ _ fun r hr => ?_
  obtain ⟨b, hb⟩ : ∃ b, k.onPage o after accepted exporting r = .ok b :=
    onPage_total inside staffed (policies r hr)
  rw [hb]
  rfl

theorem Call.mem_rows (inside : k.Inside o) {records : List BusinessRecord} {r : BusinessRecord}
    (h : r ∈ k.rows o after accepted exporting records) :
    r ∈ records ∧ k.MayRead r ∧ r.organizationId = o.id := by
  obtain ⟨hmem, hvalue⟩ := List.mem_filter.mp h
  have honPage : k.onPage o after accepted exporting r = .ok true := by
    cases hpage : k.onPage o after accepted exporting r with
    | ok b => simpa [hpage, Outcome.value] using hvalue
    | error e => simp [hpage, Outcome.value] at hvalue
  have hmay := mayRead_of_onPage inside honPage
  obtain ⟨o', inside', horg, -⟩ := hmay
  exact ⟨hmem, mayRead_of_onPage inside honPage, (inside.unique inside') ▸ horg⟩

end

theorem Hosted.mem_values {s : State} (h : Hosted s) {r : BusinessRecord} :
    r ∈ s.records.values ↔ s.records.get? r.id = some r := by
  constructor
  · intro hr
    obtain ⟨id, hid⟩ := (Dict.mem_values_iff _ _).mp hr
    rwa [show r.id = id from h.named id r hid]
  · exact Dict.mem_values_of_get?

/-- The rows of a page in the order of their numbers are the same on both states. -/
theorem ReadersAgree.rows (agree : ReadersAgree s t c ctx) (hs : Hosted s) (ht : Hosted t)
    {o : Organization} (inside : (callOf s c ctx signed).Inside o) (after : ℕ)
    (accepted : List Digest) (exporting : Bool) :
    (((callOf s c ctx signed).on t).rows o after accepted exporting
        t.records.values).insertionSort (·.seq ≤ ·.seq) =
      ((callOf s c ctx signed).rows o after accepted exporting
        s.records.values).insertionSort (·.seq ≤ ·.seq) := by
  have hrows : ∀ records, ((callOf s c ctx signed).on t).rows o after accepted exporting records =
      (callOf s c ctx signed).rows o after accepted exporting records := by
    intro records
    simp only [Call.rows, agree.onPage]
  rw [hrows]
  have hmem : ∀ {r records}, r ∈ (callOf s c ctx signed).rows o after accepted exporting records →
      r ∈ records ∧ (callOf s c ctx signed).MayRead r ∧ r.organizationId = o.id :=
    fun h => Call.mem_rows inside h
  have hperm : ((callOf s c ctx signed).rows o after accepted exporting t.records.values).Perm
      ((callOf s c ctx signed).rows o after accepted exporting s.records.values) := by
    refine (List.perm_ext_iff_of_nodup ((Dict.nodup_values _ _ ht.named).filter _)
      ((Dict.nodup_values _ _ hs.named).filter _)).mpr fun r => ?_
    simp only [List.mem_filter, hs.mem_values, ht.mem_values]
    refine and_congr_left fun hvalue => ?_
    have hsingle : r ∈ (callOf s c ctx signed).rows o after accepted exporting [r] :=
      List.mem_filter.mpr ⟨List.mem_singleton_self r, hvalue⟩
    exact (agree.records signed r.id r (hmem hsingle).2.1).symm
  have : Std.Total fun a b : BusinessRecord => a.seq ≤ b.seq := ⟨fun a b => Nat.le_total _ _⟩
  have : IsTrans BusinessRecord fun a b => a.seq ≤ b.seq := ⟨fun a b c => Nat.le_trans⟩
  refine @List.Perm.eq_of_pairwise _ (fun a b => a.seq ≤ b.seq) _ _ ?_
    (List.pairwise_insertionSort _ _) (List.pairwise_insertionSort _ _) ?_
  · intro a b ha hb hab hba
    obtain ⟨ha, hamay, haorg⟩ := hmem ((List.mem_insertionSort _).mp ha)
    obtain ⟨hb, hbmay, hborg⟩ := hmem ((List.mem_insertionSort _).mp hb)
    have ha := (agree.records signed a.id a hamay).mpr (ht.mem_values.mp ha)
    have hb := hs.mem_values.mp hb
    have hid := hs.numbered _ _ ha _ _ hb (haorg.trans hborg.symm) (le_antisymm hab hba)
    exact Option.some.inj (ha.symm.trans (hid ▸ hb))
  · exact (List.perm_insertionSort _ _).trans (hperm.trans (List.perm_insertionSort _ _).symm)

end

/-- The policies of a governed state's records, as a page reads them. -/
theorem Hosted.policies {s : State} (h : Hosted s) :
    ∀ r ∈ s.records.values, PolicyOf s r.policyId r.organizationId := by
  intro r hr
  exact h.governed r.id r (h.mem_values.mp hr)

section

variable {s t : State} {c : Command} {ctx : Context} {signed : List KeyId}

theorem ReadersAgree.staffed (agree : ReadersAgree s t c ctx)
    (staffed : (callOf s c ctx signed).Staffed) : ((callOf s c ctx signed).on t).Staffed := by
  intro hkind o ho
  obtain ⟨inst, release, hinst, hrelease⟩ := staffed hkind o ho
  refine ⟨inst, release, hinst, ?_⟩
  rw [Call.on_s, agree.releases]
  exact hrelease

theorem expandKinds_congr {s t : State} (profiles : t.profiles = s.profiles) (kinds : List Kind)
    (accessible : Profile → Bool) (registry : List (Kind × List Digest)) :
    expandKinds t kinds accessible registry = expandKinds s kinds accessible registry := by
  have hdigests : kindDigests t accessible registry = kindDigests s accessible registry := by
    funext kind
    simp only [kindDigests, profiles]
  simp only [expandKinds, hdigests]

variable [Reducers]

/-- A page says the same of both states. -/
theorem ReadersAgree.recordsPage (agree : ReadersAgree s t c ctx) (hs : Hosted s)
    (ht : Hosted t) (staffed : (callOf s c ctx signed).Staffed) (page : PagePayload)
    (exporting : Bool) :
    Reply.result <$> ((callOf s c ctx signed).on t).recordsPage page exporting =
      Reply.result <$> (callOf s c ctx signed).recordsPage page exporting := by
  have hcurrent : ((callOf s c ctx signed).on t).currentOrg = (callOf s c ctx signed).currentOrg :=
    agree.currentOrg
  cases horg : (callOf s c ctx signed).currentOrg with
  | error e =>
    simp only [Call.recordsPage, hcurrent, horg]
    rfl
  | ok o =>
    have inside := (Call.currentOrg_eq_ok _ _).mp horg
    have hview : ((callOf s c ctx signed).on t).viewRecord = (callOf s c ctx signed).viewRecord :=
      funext agree.viewRecord
    have hkeep : ∀ accepted, Outcome.keep
        ((callOf s c ctx signed).onPage o page.after accepted exporting) s.records.values = _ :=
      fun _ => Call.keep_onPage inside staffed hs.policies
    have hkeep' : ∀ accepted, Outcome.keep
        (((callOf s c ctx signed).on t).onPage o page.after accepted exporting)
        t.records.values = _ :=
      fun _ => Call.keep_onPage (agree.inside.mpr inside) (agree.staffed staffed) ht.policies
    simp only [Call.recordsPage, hcurrent, horg, hview, Call.on_s, Call.on_ctx, callOf_s,
      Outcome.ok_bind, expandKinds_congr agree.profiles, agree.profiles, hkeep, hkeep',
      agree.rows hs ht inside, map_bind, map_pure, Call.answer]
    rfl

def recordUnavailable : Thrown := .dtp "not_found" "record unavailable" 404

/-- Outside a company that is available to the caller `record.get` refuses an absent record
before it looks at the company. -/
theorem Call.recordGet_outside {k : Call} {e : Thrown} (h : k.currentOrg = .error e) (id : Uuid)
    (d : Digest) : k.recordGet id d =
      .error (if (k.s.records.get? id).isSome = true then e else recordUnavailable) := by
  unfold recordGet
  cases hr : k.s.records.get? id with
  | none => rfl
  | some r =>
    simp only [h]
    rfl

/-- Inside a company a record that the caller may not read answers as an absent one. -/
theorem Call.recordGet_unreadable {k : Call} {o : Organization} (inside : k.Inside o)
    (staffed : k.Staffed) {id : Uuid}
    (h : ∀ r, k.s.records.get? id = some r →
      PolicyOf k.s r.policyId r.organizationId ∧ ¬ k.MayRead r) (d : Digest) :
    k.recordGet id d = .error recordUnavailable := by
  unfold recordGet
  cases hr : k.s.records.get? id with
  | none => rfl
  | some r =>
    obtain ⟨policy, hunreadable⟩ := h r hr
    by_cases horg : r.organizationId = o.id
    · obtain ⟨b, hb⟩ := readable_total inside staffed (horg ▸ policy)
      obtain rfl : b = false := by
        cases b with
        | false => rfl
        | true => exact absurd ⟨o, inside, horg, hb⟩ hunreadable
      simp only [require, Outcome.require_some, Outcome.ok_bind,
        (currentOrg_eq_ok k o).mpr inside, horg, hb]
      rfl
    · simp only [require, Outcome.require_some, Outcome.ok_bind,
        (currentOrg_eq_ok k o).mpr inside, demand, Outcome.demand, if_neg horg]
      rfl

theorem ReadersAgree.recordGet (agree : ReadersAgree s t c ctx) (hs : Hosted s)
    (ht : Hosted t) (staffed : (callOf s c ctx signed).Staffed) {o : Organization}
    (inside : (callOf s c ctx signed).Inside o) (id : Uuid) (d : Digest) :
    Reply.result <$> ((callOf s c ctx signed).on t).recordGet id d =
      Reply.result <$> (callOf s c ctx signed).recordGet id d := by
  by_cases h : ∃ r, s.records.get? id = some r ∧ (callOf s c ctx signed).MayRead r
  · obtain ⟨r, hr, hmay⟩ := h
    have hr' := (agree.records signed id r hmay).mp hr
    simp only [Call.recordGet, Call.on_s, callOf_s, hr, hr', agree.currentOrg, agree.readable,
      agree.viewRecord, map_bind, map_pure, Call.answer]
  · have hs' : (callOf s c ctx signed).recordGet id d = .error recordUnavailable :=
      Call.recordGet_unreadable inside staffed
        (fun r hr => ⟨hs.governed id r hr, fun hmay => h ⟨r, hr, hmay⟩⟩) d
    have ht' : ((callOf s c ctx signed).on t).recordGet id d = .error recordUnavailable := by
      refine Call.recordGet_unreadable (agree.inside.mpr inside) (agree.staffed staffed)
        (fun r hr => ⟨ht.governed id r hr, fun hmay => h ⟨r, ?_, (agree.mayRead r).mp hmay⟩⟩) d
      exact (agree.records signed id r ((agree.mayRead r).mp hmay)).mpr hr
    rw [hs', ht']

end

variable [Primitives] [Reducers]

/-- The checks that a command passes before its handler runs. -/
def admission (s : State) (c : Command) (ctx : Context) : Attempt (List KeyId) := do
  validateCommand c ctx.audience ctx.now
  let signed ← verifyCommand c
  admitActor s c ctx signed (c.organizationId.bind s.organizations.get?)
  demand ((s.receipts.get? c.requestId).all (·.hash = Primitives.digestCommand c) = true)
    "conflict" "request ID reused with different content" 409
  pure signed

/-- What the caller sees of a command: its result or its refusal. -/
def response (s : State) (c : Command) (ctx : Context) : Attempt (Option Result) := do
  let changed ← execute s c ctx
  pure changed.2

theorem response_eq (s : State) (c : Command) (ctx : Context) :
    response s c ctx = (do
      let signed ← admission s c ctx
      let reply ← (callOf s c ctx signed).dispatch
      pure reply.result) := by
  simp only [response, execute, admission, bind_assoc, pure_bind]
  rfl

section

variable {s t : State} {c : Command} {ctx : Context} {signed : List KeyId}

omit [Reducers] in
/-- Admission reads the people and the releases of a state only. -/
theorem admitActor_congr (persons : t.persons = s.persons) (releases : t.releases = s.releases)
    (org : Option Organization) :
    admitActor t c ctx signed org = admitActor s c ctx signed org := by
  cases s
  cases t
  simp only at persons releases
  subst persons releases
  rfl

omit [Reducers] in
theorem ReadersAgree.admission (agree : ReadersAgree s t c ctx) :
    admission t c ctx = admission s c ctx := by
  simp only [DirectTrade.admission, admitActor_congr agree.persons agree.releases,
    agree.organizations]
  rw [agree.receipt]

omit [Reducers] in
theorem admission_eq_ok (h : admission s c ctx = .ok signed) :
    validateCommand c ctx.audience ctx.now = .ok () ∧ verifyCommand c = .ok signed ∧
      admitActor s c ctx signed (c.organizationId.bind s.organizations.get?) = .ok () := by
  simp only [admission, Outcome.bind_eq_ok, Outcome.pure_eq_ok] at h
  obtain ⟨_, valid, _, verified, _, admitted, _, -, rfl⟩ := h
  exact ⟨valid, verified, admitted⟩

omit [Reducers] in
theorem staffed_of_admission (h : admission s c ctx = .ok signed)
    (hregister : c.payload.isRegister = false) : (callOf s c ctx signed).Staffed := by
  intro hkind o ho
  have hkind : c.actor.kind = .installation := hkind
  have horg : c.organizationId.bind s.organizations.get? = some o := ho
  have hadmission := (admission_eq_ok h).2.2
  simp only [admitActor, hregister, Bool.false_eq_true, if_false, hkind, horg, Outcome.bind_eq_ok,
    require_eq_ok, Option.some.injEq] at hadmission
  obtain ⟨_, rfl, inst, hinst, release, hrelease, -⟩ := hadmission
  exact ⟨inst, release, (Option.filter_eq_some_iff.mp hinst).1, hrelease⟩

end

/-- The reads of pages, with whether the page is an export. -/
def Payload.page? : Payload → Option (PagePayload × Bool)
  | .recordsList page | .workspaceView page => some (page, false)
  | .recordsExport page => some (page, true)
  | _ => none

/-- The reads of records. -/
def Payload.readsRecords : Payload → Bool
  | .recordGet _ _ => true
  | p => p.page?.isSome

theorem Call.dispatch_page {k : Call} {page : PagePayload} {exporting : Bool}
    (h : k.c.payload.page? = some (page, exporting)) :
    k.dispatch = k.recordsPage page exporting := by
  unfold dispatch
  split <;> simp_all [Payload.page?]

theorem Call.dispatch_recordGet {k : Call} {id : Uuid} {d : Digest}
    (h : k.c.payload = .recordGet id d) : k.dispatch = k.recordGet id d := by
  simp only [dispatch, h]

omit [Primitives] [Reducers] in
theorem Call.currentOrg_ne {k : Call} {e : Thrown} (h : k.currentOrg = .error e) :
    e ≠ recordUnavailable := by
  rintro rfl
  simp only [currentOrg, needOrg, require, demand] at h
  cases horg : k.org with
  | none => simp [horg, Outcome.require, recordUnavailable, bind, Except.bind] at h
  | some o =>
    simp only [horg, Outcome.require_some, Outcome.ok_bind, Outcome.demand] at h
    split at h
    · simp only [Outcome.ok_bind] at h
      split at h
      · simp [pure, Except.pure] at h
      · simp [recordUnavailable, bind, Except.bind] at h
    · simp [recordUnavailable, bind, Except.bind] at h

omit [Primitives] [Reducers] in
theorem isSome_eq_of_refusals {a b : Bool} {e f : Thrown} (h : e ≠ f)
    (hsame : Reply.result <$> (.error (if a = true then e else f) : Attempt Reply) =
      Reply.result <$> (.error (if b = true then e else f) : Attempt Reply)) : a = b := by
  have hsame := Except.error.inj hsame
  cases a <;> cases b <;> simp_all [h.symm]

/-- Reads of records answer alike on two states that agree on what the caller may read,
except that `record.get` outside a company available to the caller tells whether the host
knows the record's identifier. -/
theorem reads_noninterfering_iff {s t : State} {c : Command} {ctx : Context} (hs : Hosted s)
    (ht : Hosted t) (agree : ReadersAgree s t c ctx) (reads : c.payload.readsRecords = true) :
    response t c ctx = response s c ctx ↔
      ∀ signed id d, admission s c ctx = .ok signed → c.payload = .recordGet id d →
        (∃ o, (callOf s c ctx signed).Inside o) ∨
          (s.records.get? id).isSome = (t.records.get? id).isSome := by
  rw [response_eq, response_eq, agree.admission]
  cases hadmission : admission s c ctx with
  | error e => simp [bind, Except.bind]
  | ok signed =>
    have staffed : (callOf s c ctx signed).Staffed := by
      refine staffed_of_admission hadmission ?_
      revert reads
      cases c.payload <;> simp [Payload.readsRecords, Payload.page?, Payload.isRegister]
    simp only [Outcome.ok_bind, ← map_eq_pure_bind, agree.call, Except.ok.injEq]
    by_cases hget : ∃ id d, c.payload = .recordGet id d
    · obtain ⟨id, d, hpayload⟩ := hget
      rw [Call.dispatch_recordGet (k := (callOf s c ctx signed).on t) hpayload,
        Call.dispatch_recordGet (k := callOf s c ctx signed) hpayload, hpayload]
      constructor
      · rintro hsame _ _ _ rfl ⟨⟩
        cases horg : (callOf s c ctx signed).currentOrg with
        | ok o => exact .inl ⟨o, (Call.currentOrg_eq_ok _ _).mp horg⟩
        | error e =>
          refine .inr ?_
          rw [Call.recordGet_outside horg, Call.recordGet_outside (agree.currentOrg.trans horg)]
            at hsame
          exact (isSome_eq_of_refusals (Call.currentOrg_ne horg) hsame).symm
      · intro h
        rcases h signed id d rfl rfl with ⟨o, inside⟩ | hsome
        · exact agree.recordGet hs ht staffed inside id d
        · cases horg : (callOf s c ctx signed).currentOrg with
          | ok o =>
            exact agree.recordGet hs ht staffed ((Call.currentOrg_eq_ok _ _).mp horg) id d
          | error e =>
            rw [Call.recordGet_outside horg,
              Call.recordGet_outside (agree.currentOrg.trans horg), callOf_s, Call.on_s, hsome]
    · have hpage : c.payload.page?.isSome = true := by
        revert reads hget
        cases c.payload <;> simp [Payload.readsRecords]
      obtain ⟨⟨page, exporting⟩, hpage⟩ := Option.isSome_iff_exists.mp hpage
      rw [Call.dispatch_page (k := (callOf s c ctx signed).on t) hpage,
        Call.dispatch_page (k := callOf s c ctx signed) hpage,
        agree.recordsPage hs ht staffed page exporting]
      exact ⟨fun _ _ id d _ hpayload => absurd ⟨id, d, hpayload⟩ hget, fun _ => rfl⟩

omit [Primitives] [Reducers] in
/-- What a policy allows, one of its grants gives. -/
theorem dataAllowed_grant {s : State} {o : Organization} {pol : Policy} {resource : Uuid}
    {action : DataAction} {c : Command} {ctx : Context}
    (h : dataAllowed s o pol resource action c ctx = true) :
    ∃ g ∈ pol.grants, action ∈ g.actions := by
  have hgrants : ∃ id, grants s o pol resource action ctx id = true := by
    unfold dataAllowed at h
    cases hkind : c.actor.kind <;> simp only [hkind, Bool.and_eq_true] at h
    · exact ⟨_, (Option.any_eq_true _ _).mp h.2 |>.choose_spec.2⟩
    · exact ⟨_, (Option.any_eq_true _ _).mp h.2.2 |>.choose_spec.2⟩
  obtain ⟨id, hid⟩ := hgrants
  simp only [grants, Bool.and_eq_true, List.any_eq_true, decide_eq_true_eq] at hid
  obtain ⟨-, g, hg, hmatch⟩ := hid
  exact ⟨g, hg, hmatch.1.1.2⟩

/-- A company whose second policy lets its writer write only; the second run ends before
anything is written under that policy. -/
def hiddenMutations : List (Option Uuid × Mutation) :=
  sampleMutations ++
    [(some 1005, .policyCreate
      ⟨22, 0, .personnel, [1], 1, [⟨1, [.write], .all, 31536000000⟩]⟩),
    (some 1005, .recordAppend { sampleRecord 33 33 none with policyId := 22 })]

def hiddenCommands (n : ℕ) : List (Command × Context) :=
  (hiddenMutations.take n).mapIdx fun i m =>
    (sampleCommand "a" 0 (i + 1) m.1 (.mutation m.2), sampleContext "a" 0)

def samplePage : Command :=
  sampleCommand "a" 0 50 (some 1005) (.workspaceView ⟨0, 10, [704], []⟩)

omit [Primitives] [Reducers] in
/-- A page is the same whether or not a hidden record was written. -/
theorem reads_noninterfering_sample :
    letI := samplePrimitives none
    letI := sampleReducers
    response (finalState (run emptyState (hiddenCommands 7))) samplePage (sampleContext "a" 0) =
      response (finalState (run emptyState (hiddenCommands 8))) samplePage
        (sampleContext "a" 0) := by
  let := samplePrimitives none
  let := sampleReducers
  have hs : Reachable (finalState (run emptyState (hiddenCommands 8))) :=
    Reachable.finalState (by decide +kernel)
  have ht : Reachable (finalState (run emptyState (hiddenCommands 7))) :=
    Reachable.finalState (by decide +kernel)
  refine (reads_noninterfering_iff hs.hosted ht.hosted ?_ rfl).mpr
    (by simp [samplePage, sampleCommand])
  refine ⟨by decide +kernel, by decide +kernel, by decide +kernel, by decide +kernel,
    by decide +kernel, by decide +kernel, fun signed id r hmay => ?_⟩
  have hhidden : r.policyId ≠ 22 := by
    intro hpolicy
    obtain ⟨o, inside, horg, hreadable⟩ := hmay
    obtain ⟨o', -, pol, hpol, -, hallowed⟩ :=
      (Call.can_eq_ok _ _ _ _ _).mp (Call.can_of_readable hreadable)
    obtain ⟨g, hg, hread⟩ := dataAllowed_grant hallowed
    have hnone : ((finalState (run emptyState (hiddenCommands 8))).policies.get? 22).all
        (fun pol => pol.grants.all fun g => DataAction.read ∉ g.actions) = true := by
      decide +kernel
    rw [hpolicy] at hpol
    rw [show (finalState (run emptyState (hiddenCommands 8))).policies.get? 22 = some pol
      from hpol] at hnone
    simpa [hread] using List.all_eq_true.mp hnone g hg
  have hforth : ∀ e ∈ (finalState (run emptyState (hiddenCommands 8))).records.entries,
      e.2.policyId = 22 ∨
        (finalState (run emptyState (hiddenCommands 7))).records.get? e.1 = some e.2 := by
    decide +kernel
  have hback : ∀ e ∈ (finalState (run emptyState (hiddenCommands 7))).records.entries,
      (finalState (run emptyState (hiddenCommands 8))).records.get? e.1 = some e.2 := by
    decide +kernel
  constructor
  · intro h
    exact (hforth (id, r) ((Dict.mem_entries_iff _ _ _).mpr h)).resolve_left hhidden
  · intro h
    exact hback (id, r) ((Dict.mem_entries_iff _ _ _).mpr h)

def stranger (requestId : Uuid) (payload : Payload) : Command × Context :=
  ({ sampleCommand "a" 0 requestId none payload with
      actor := ⟨.person, 2, 2⟩, requestedBy := some 2, signatures := [⟨2, 0⟩] },
    sampleContext "a" 0)

omit [Primitives] [Reducers] in
/-- A person of no company learns from `record.get` whether a record exists. -/
theorem recordGet_tells_existence :
    letI := samplePrimitives none
    letI := sampleReducers
    ¬ ∀ s t c ctx, Reachable s → Reachable t → ReadersAgree s t c ctx →
      c.payload.readsRecords = true → response t c ctx = response s c ctx := by
  let := samplePrimitives none
  let := sampleReducers
  intro h
  let enroll := stranger 60 (.mutation (.personRegister [2]))
  let get := stranger 61 (.recordGet 33 704)
  have hs : Reachable (finalState (run emptyState (hiddenCommands 8 ++ [enroll]))) :=
    Reachable.finalState (by decide +kernel)
  have ht : Reachable (finalState (run emptyState (hiddenCommands 7 ++ [enroll]))) :=
    Reachable.finalState (by decide +kernel)
  have hagree : ReadersAgree (finalState (run emptyState (hiddenCommands 8 ++ [enroll])))
      (finalState (run emptyState (hiddenCommands 7 ++ [enroll]))) get.1 get.2 := by
    refine ⟨by decide +kernel, by decide +kernel, by decide +kernel, by decide +kernel,
      by decide +kernel, by decide +kernel, ?_⟩
    rintro signed id r ⟨o, inside, -⟩
    exact absurd inside.org (by simp [callOf, get, stranger, sampleCommand])
  exact absurd (h _ _ _ _ hs ht hagree rfl) (by decide +kernel)

end DirectTrade
