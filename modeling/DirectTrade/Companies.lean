import DirectTrade.Keeps

/-!
One company across one accepted command: it stays as it is, changes by a command of its own
history, or leaves with a migration commit.
-/

namespace DirectTrade

open Library

variable [Primitives]

/-- What an accepted command makes of a company of the host. -/
inductive CompanyStep (k : Call) (id : Uuid) (o : Organization) : Organization → Prop
  | same : CompanyStep k id o o
  | changed (o' : Organization) (m : Mutation) (result : Result)
      (named : k.c.organizationId = some id) (payload : k.c.payload = .mutation m)
      (fresh : k.previous = none) (inside : k.Inside o)
      (change : k.CompanyChange o m o' result) :
      CompanyStep k id o { o' with history := o'.history ++ [k.stored m] }
  | moved : CompanyStep k id o { o with status := .migrated }

omit [Primitives] in
theorem get?_pushHistory {s : State} {c : Command} {m : Mutation} {org : Uuid}
    (payload : c.payload = .mutation m) (named : c.organizationId = some org) (id : Uuid) :
    (pushHistory s c).organizations.get? id =
      if id = org then (s.organizations.get? id).map fun o =>
        { o with history := o.history ++ [c.keep m] } else s.organizations.get? id := by
  simp only [pushHistory, payload, named, Dict.get?_modify]
  by_cases hid : id = org
  · subst hid
    rfl
  · simp only [if_neg hid]

omit [Primitives] in
theorem get?_setOrg {k : Call} {o : Organization} {org : Uuid}
    (named : k.c.organizationId = some org) (id : Uuid) :
    (k.setOrg o).organizations.get? id =
      if id = org then some o else k.s.organizations.get? id := by
  simp only [Call.setOrg, named, Dict.get?_set]

omit [Primitives] in
theorem Call.Inside.named {s : State} {c : Command} {ctx : Context} {signed : List KeyId}
    {o : Organization} (h : (callOf s c ctx signed).Inside o) :
    ∃ org, c.organizationId = some org ∧ s.organizations.get? org = some o := by
  have horg : c.organizationId.bind s.organizations.get? = some o := h.org
  exact Option.bind_eq_some_iff.mp horg

variable [Reducers]

/-- What an accepted command makes of the entry of one company, present or not. -/
inductive CompanyMove (k : Call) (id : Uuid) : Option Organization → Option Organization → Prop
  | away : CompanyMove k id none none
  | step (o o' : Organization) (h : CompanyStep k id o o') : CompanyMove k id (some o) (some o')
  | founded (name : String) (nonce : Uuid) (controllers : List Uuid) (threshold : ℕ)
      (m : Mutation) (founds : k.Founds id name nonce controllers threshold) :
      CompanyMove k id none (some { Call.founded id name controllers threshold with
        history := [k.stored m] })
  | imported (snap : Snapshot) (named : snap.organization.id = id)
      (valid : validateSnapshot k.s snap = .ok ()) :
      CompanyMove k id none (some (activated snap.organization))

theorem CompanyMove.same {k : Call} {id : Uuid} (o : Option Organization) :
    CompanyMove k id o o := by
  cases o with
  | none => exact .away
  | some o => exact .step o o .same

/-- An import activates a company that the host did not have. -/
theorem takeOver_absent {s : State} {snap : Snapshot} (valid : validateSnapshot s snap = .ok ()) :
    s.organizations.get? snap.organization.id = none := by
  obtain ⟨_, _, _, _, validated⟩ := (validateSnapshot_eq_ok s snap ()).mp valid
  exact organization_absent validated.absent

theorem Accepted.companyMove {s : State} {c : Command} {ctx : Context} {signed : List KeyId}
    {reply : Reply} (keyed : Keyed s) (h : Accepted s c ctx signed reply) (id : Uuid) :
    CompanyMove (callOf s c ctx signed) id (s.organizations.get? id)
      ((reply.next c).organizations.get? id) := by
  cases h.effect with
  | found orgId name nonce controllers threshold payload founds =>
    have habsent : c.organizationId.bind s.organizations.get? = none := founds.absent
    have hnamed : c.organizationId = some orgId := founds.named
    rw [hnamed, Option.bind_some] at habsent
    have hset := get?_setOrg (k := callOf s c ctx signed)
      (o := Call.founded orgId name controllers threshold) founds.named id
    have hget := get?_pushHistory (s := (callOf s c ctx signed).setOrg
      (Call.founded orgId name controllers threshold)) payload hnamed id
    rw [hset] at hget
    by_cases hid : id = orgId
    · subst hid
      rw [if_pos rfl, if_pos rfl] at hget
      rw [habsent]
      exact hget ▸ .founded name nonce controllers threshold _ founds
    · rw [if_neg hid, if_neg hid] at hget
      exact hget ▸ .same _
  | company old new m result payload fresh inside change =>
    obtain ⟨org, hnamed, hold⟩ := inside.named
    have hset := get?_setOrg (k := callOf s c ctx signed) (o := new) hnamed id
    have hget := get?_pushHistory (s := (callOf s c ctx signed).setOrg new) payload hnamed id
    rw [hset] at hget
    by_cases hid : id = org
    · subst hid
      rw [if_pos rfl, if_pos rfl] at hget
      rw [hold]
      exact hget ▸ .step old _ (.changed new m result hnamed payload fresh inside change)
    · rw [if_neg hid, if_neg hid] at hget
      exact hget ▸ .same _
  | append old p profile before t company validation payload appends assessed =>
    obtain rfl : s = t := (counterparties_eq keyed.remoteAuthorities appends.attested).symm
    cases company <;> exact .same _
  | duplicate old p profile before t company recordId recorded payload appends assessed known =>
    obtain rfl : s = t := (counterparties_eq keyed.remoteAuthorities appends.attested).symm
    exact .same _
  | commit old migrationId ready snapshot out org body payload commits =>
    by_cases hid : id = out.manifest.organizationId
    · subst hid
      have hget := Dict.get?_set_self s.organizations out.manifest.organizationId
        { org with status := .migrated }
      have hcompany : s.organizations.get? out.manifest.organizationId = some org := commits.company
      rw [hcompany]
      exact hget ▸ .step org _ .moved
    · have hget := Dict.get?_set_of_ne s.organizations { org with status := .migrated } hid
      exact hget ▸ .same _
  | finalize migrationId token stage ready body snapshot payload stages binds inactive held
      absent digest valid activates =>
    by_cases hid : id = snapshot.organization.id
    · subst hid
      have hget := Dict.get?_set_self s.organizations snapshot.organization.id
        (activated snapshot.organization)
      have habsent : s.organizations.get? snapshot.organization.id = none := takeOver_absent valid
      rw [habsent]
      exact hget ▸ .imported snapshot rfl valid
    · have hget := Dict.get?_set_of_ne s.organizations (activated snapshot.organization) hid
      exact hget ▸ .same _
  | _ => exact .same _

theorem Accepted.companyStep {s : State} {c : Command} {ctx : Context} {signed : List KeyId}
    {reply : Reply} (keyed : Keyed s) (h : Accepted s c ctx signed reply) {id : Uuid}
    {o : Organization} (ho : s.organizations.get? id = some o) :
    ∃ o', (reply.next c).organizations.get? id = some o' ∧
      CompanyStep (callOf s c ctx signed) id o o' := by
  have hmove := h.companyMove keyed id
  rw [ho] at hmove
  cases hnext : (reply.next c).organizations.get? id with
  | none =>
    rw [hnext] at hmove
    exact nomatch hmove
  | some o' =>
    rw [hnext] at hmove
    cases hmove with
    | step _ _ hstep => exact ⟨o', rfl, hstep⟩

/-- The installation that an accepted command creates. -/
structure Call.Creates (k : Call) (org id : Uuid) (inst : Installation) (p : InstallationPayload)
    (o : Organization) (release : Release) : Prop where
  payload : k.c.payload = .mutation (.installationCreate p)
  named : k.c.organizationId = some org
  installs : k.Installs o p release
  id : p.installationId = id
  inst : inst = newInstallation p release k.c.actor.id

/-- An installation that is active after an accepted command was there before, or is the one
that the command creates. -/
theorem CompanyMove.installed {k : Call} {org : Uuid} {old : Option Organization}
    {o' : Organization} (h : CompanyMove k org old (some o')) {id : Uuid} {inst : Installation}
    (installed : o'.installations[id]? = some inst) (active : inst.active = true) :
    (∃ o, old = some o ∧ o.installations[id]? = some inst) ∨
      ∃ p o release, k.Creates org id inst p o release := by
  cases h with
  | founded name nonce controllers threshold m founds => simp [Call.founded] at installed
  | imported snap named valid =>
    have installed : (snap.organization.installations.map
      fun _ inst => { inst with active := false })[id]? = some inst := installed
    rw [Std.ExtTreeMap.getElem?_map] at installed
    obtain ⟨stored, -, rfl⟩ := Option.map_eq_some_iff.mp installed
    exact nomatch active
  | step old _ hstep =>
    cases hstep with
    | same => exact .inl ⟨_, rfl, installed⟩
    | moved => exact .inl ⟨_, rfl, installed⟩
    | changed o' m result named payload fresh inside change =>
      cases change with
      | install p release installs =>
        have installed : (old.installations.insert p.installationId
          (newInstallation p release k.c.actor.id))[id]? = some inst := installed
        rw [Std.ExtTreeMap.getElem?_insert] at installed
        split at installed
        · rename_i heq
          have hid : p.installationId = id := Std.LawfulEqCmp.eq_of_compare heq
          have hinst := (Option.some.inj installed).symm
          exact .inr ⟨p, old, release, payload, named, installs, hid, hinst⟩
        · exact .inl ⟨old, rfl, installed⟩
      | uninstall installationId manages found =>
        have installed : (old.installations.modify installationId
          fun inst => { inst with active := false })[id]? = some inst := installed
        rw [Std.ExtTreeMap.getElem?_modify] at installed
        split at installed
        · obtain ⟨stored, -, rfl⟩ := Option.map_eq_some_iff.mp installed
          exact nomatch active
        · exact .inl ⟨old, rfl, installed⟩
      | _ => exact .inl ⟨old, rfl, installed⟩

end DirectTrade
