import DirectTrade.Reordering
import DirectTrade.Admissions
import DirectTrade.Compartments
import DirectTrade.Confinement

/-!
What several ready stages carry at once. A stage is made ready only after its snapshot has
been judged against the tables of the host and against every stage that is ready already, so
two ready stages that carry a value of one name, which the host does not have, carry the same
value.
-/

namespace DirectTrade

open Library

/-- The second table has every name of the first. -/
def Spans {α β : Type} [DecidableEq α] (d e : Dict α β) : Prop :=
  ∀ a, e.get? a = none → d.get? a = none

section

variable {α β : Type} [DecidableEq α]

theorem Spans.refl (d : Dict α β) : Spans d d := fun _ h => h

theorem Spans.trans {d e f : Dict α β} (h : Spans d e) (h' : Spans e f) : Spans d f :=
  fun a ha => h a (h' a ha)

theorem Spans.set (d : Dict α β) (k : α) (v : β) : Spans d (d.set k v) := by
  intro a ha
  rw [Dict.get?_set] at ha
  by_cases heq : a = k
  · rw [if_pos heq] at ha
    exact nomatch ha
  · rw [if_neg heq] at ha
    exact ha

theorem Spans.modify (d : Dict α β) (k : α) (f : β → β) : Spans d (d.modify k f) := by
  intro a ha
  rw [Dict.get?_modify] at ha
  by_cases heq : a = k
  · rw [if_pos heq] at ha
    exact heq ▸ Option.map_eq_none_iff.mp ha
  · rw [if_neg heq] at ha
    exact ha

theorem Spans.foldl_set (name : β → α) (l : List β) (d : Dict α β) :
    Spans d (l.foldl (fun d v => d.set (name v) v) d) := by
  induction l generalizing d with
  | nil => exact Spans.refl d
  | cons v rest ih => exact (Spans.set d (name v) v).trans (ih _)

end

/-- The tables that ready stages reserve names of. -/
structure TablesSpan (s t : State) : Prop where
  organizations : Spans s.organizations t.organizations
  policies : Spans s.policies t.policies
  profiles : Spans s.profiles t.profiles
  releases : Spans s.releases t.releases
  records : Spans s.records t.records

theorem TablesSpan.refl (s : State) : TablesSpan s s :=
  ⟨.refl _, .refl _, .refl _, .refl _, .refl _⟩

theorem TablesSpan.trans {s t u : State} (h : TablesSpan s t) (h' : TablesSpan t u) :
    TablesSpan s u :=
  ⟨h.organizations.trans h'.organizations, h.policies.trans h'.policies,
    h.profiles.trans h'.profiles, h.releases.trans h'.releases, h.records.trans h'.records⟩

theorem TablesSpan.pushHistory (s : State) (c : Command) :
    TablesSpan s (DirectTrade.pushHistory s c) := by
  unfold DirectTrade.pushHistory
  split
  · exact { TablesSpan.refl s with organizations := Spans.modify _ _ _ }
  · exact TablesSpan.refl s

theorem TablesSpan.setOrg (k : Call) (o : Organization) : TablesSpan k.s (k.setOrg o) := by
  unfold Call.setOrg
  split
  · exact TablesSpan.refl k.s
  · exact { TablesSpan.refl k.s with organizations := Spans.set _ _ _ }

theorem TablesSpan.takeOver (s : State) (snap : Snapshot) :
    TablesSpan s (takeOver s snap) where
  organizations := Spans.set _ _ _
  policies := Spans.foldl_set Policy.id _ _
  profiles := Spans.foldl_set Profile.digest _ _
  releases := Spans.foldl_set Release.digest _ _
  records := Spans.foldl_set (fun r : BusinessRecord => r.id) _ _

theorem TablesSpan.insertRecord (s : State) (org : Uuid) (r : BusinessRecord) :
    TablesSpan s (Call.insertRecord s org r) := by
  have hretire : Spans s.records (Call.retire s.records r.supersedes) := by
    unfold Call.retire
    split
    · exact Spans.refl _
    · exact Spans.modify _ _ _
  exact { TablesSpan.refl s with records := hretire.trans (Spans.set _ _ _) }

variable [Primitives] [Reducers]

theorem Accepted.tablesSpan {s : State} {c : Command} {ctx : Context} {signed : List KeyId}
    {reply : Reply} (keyed : Keyed s) (h : Accepted s c ctx signed reply) :
    TablesSpan s (reply.next c) := by
  cases h.effect with
  | found orgId name nonce controllers threshold payload founds =>
    exact (TablesSpan.setOrg (callOf s c ctx signed) _).trans (.pushHistory _ c)
  | company o o' m result payload fresh inside change =>
    exact (TablesSpan.setOrg (callOf s c ctx signed) o').trans (.pushHistory _ c)
  | revise o create p payload revises =>
    exact { TablesSpan.refl s with policies := Spans.set _ _ _ }
  | publish o p payload publishes =>
    exact { TablesSpan.refl s with profiles := Spans.set _ _ _ }
  | admitContract o digest contract payload admits absent =>
    exact { TablesSpan.refl s with profiles := Spans.set _ _ _ }
  | release o p payload releases =>
    exact { TablesSpan.refl s with releases := Spans.set _ _ _ }
  | append o p profile before t company validation payload appends assessed =>
    obtain rfl : s = t := (counterparties_eq keyed.remoteAuthorities appends.attested).symm
    have hstock : TablesSpan s (company.elim s (s.setInventory o.id)) := by
      cases company with
      | none => exact TablesSpan.refl s
      | some company => exact { TablesSpan.refl s with }
    exact hstock.trans (.insertRecord _ _ _)
  | duplicate o p profile before t company recordId recorded payload appends assessed known =>
    obtain rfl : s = t := (counterparties_eq keyed.remoteAuthorities appends.attested).symm
    exact { TablesSpan.refl s with }
  | commit o migrationId ready snapshot out org body payload commits =>
    exact { TablesSpan.refl s with organizations := Spans.set _ _ _ }
  | finalize migrationId token stage ready body snapshot payload stages binds inactive held
      absent digest valid activates => exact { TablesSpan.takeOver s snapshot with }
  | _ => exact { TablesSpan.refl s with }

/-- How a stage that is pending after a step came about. -/
inductive StageMove (s : State) (after : Dict Uuid InboundMigration) (i : Uuid)
    (b : InboundMigration) : Prop
  | kept (a : InboundMigration) (found : s.incoming.get? i = some a) (pending : a.pending = true)
      (manifest : b.manifest = a.manifest) (ready : b.ready? = a.ready?)
  | opened (unready : b.ready? = none)
      (unreserved : migrationReserved s b.manifest.organizationId = false)
      (others : ∀ j, j ≠ i → after.get? j = s.incoming.get? j)
  | readied (a : InboundMigration) (snap : Snapshot) (found : s.incoming.get? i = some a)
      (pending : a.pending = true) (manifest : b.manifest = a.manifest)
      (ready : b.ready? = some snap) (company : snap.organization.id = b.manifest.organizationId)
      (valid : validateSnapshot s snap = .ok ())
      (others : ∀ j, j ≠ i → after.get? j = s.incoming.get? j)

omit [Primitives] [Reducers] in
theorem stages_set {d : Dict Uuid InboundMigration} {k i : Uuid} {v b : InboundMigration}
    (h : (d.set k v).get? i = some b) : i = k ∧ b = v ∨ i ≠ k ∧ d.get? i = some b := by
  rw [Dict.get?_set] at h
  by_cases heq : i = k
  · rw [if_pos heq] at h
    exact .inl ⟨heq, (Option.some.inj h).symm⟩
  · rw [if_neg heq] at h
    exact .inr ⟨heq, h⟩

theorem Accepted.stageMove {s : State} {c : Command} {ctx : Context} {signed : List KeyId}
    {reply : Reply} (keyed : Keyed s) (h : Accepted s c ctx signed reply) {i : Uuid}
    {b : InboundMigration} (hb : (reply.next c).incoming.get? i = some b)
    (live : b.pending = true) : StageMove s (reply.next c).incoming i b := by
  have hkept : s.incoming.get? i = some b → StageMove s (reply.next c).incoming i b :=
    fun found => .kept b found live rfl rfl
  cases h.effect with
  | found orgId name nonce controllers threshold payload founds =>
    obtain ⟨organizations, heq⟩ := pushHistory_setOrg (callOf s c ctx signed)
      (Call.founded orgId name controllers threshold) c
    have hnext : ((pushHistory ((callOf s c ctx signed).setOrg
      (Call.founded orgId name controllers threshold)) c).incoming.get? i = some b) := hb
    rw [heq] at hnext
    exact hkept hnext
  | company o o' m result payload fresh inside change =>
    obtain ⟨organizations, heq⟩ := pushHistory_setOrg (callOf s c ctx signed) o' c
    have hnext : ((pushHistory ((callOf s c ctx signed).setOrg o') c).incoming.get? i = some b) :=
      hb
    rw [heq] at hnext
    exact hkept hnext
  | append o p profile before t company validation payload appends assessed =>
    obtain rfl : s = t := (counterparties_eq keyed.remoteAuthorities appends.attested).symm
    cases company <;> exact hkept hb
  | duplicate o p profile before t company recordId recorded payload appends assessed known =>
    obtain rfl : s = t := (counterparties_eq keyed.remoteAuthorities appends.attested).symm
    exact hkept hb
  | stage token body payload manifests absent company unreserved =>
    rcases stages_set hb with ⟨rfl, rfl⟩ | ⟨hne, hold⟩
    · exact .opened rfl unreserved fun j hj => Dict.get?_set_of_ne _ _ hj
    · exact hkept hold
  | upload migrationId index data stage payload stages pending known =>
    rcases stages_set hb with ⟨rfl, rfl⟩ | ⟨hne, hold⟩
    · exact .kept stage stages.found pending rfl rfl
    · exact hkept hold
  | ready migrationId stage snapshot payload stages pending unready lifetime assembled absent
      valid =>
    rcases stages_set hb with ⟨rfl, rfl⟩ | ⟨hne, hold⟩
    · have hcompany : snapshot.organization.id = stage.manifest.organizationId := by
        simp only [stagedSnapshot, Outcome.bind_eq_ok, demand_eq_ok, Outcome.pure_eq_ok]
          at assembled
        obtain ⟨_, -, _, -, _, -, _, -, _, -, _, -, _, -, _, ⟨-, hcompany, -⟩, _, -, _, -, rfl⟩ :=
          assembled
        exact hcompany
      refine .readied stage snapshot stages.found pending rfl ?_ hcompany valid
        fun j hj => Dict.get?_set_of_ne _ _ hj
      unfold InboundMigration.ready?
      rw [live]
      rfl
    · exact hkept hold
  | finalize migrationId token stage ready body snapshot payload stages binds inactive held
      absent digest valid activates =>
    rcases stages_set hb with ⟨rfl, rfl⟩ | ⟨hne, hold⟩
    · simp [InboundMigration.pending] at live
    · exact hkept hold
  | abort migrationId token stage body payload stages inactive verified source matching =>
    rcases stages_set hb with ⟨rfl, rfl⟩ | ⟨hne, hold⟩
    · simp [InboundMigration.pending] at live
    · exact hkept hold
  | _ => exact hkept hb

omit [Primitives] [Reducers] in
theorem mem_reservedSnapshots {s : State} {snap y : Snapshot} : y ∈ reservedSnapshots s snap ↔
    ∃ j b, s.incoming.get? j = some b ∧ b.manifest.organizationId ≠ snap.organization.id ∧
      b.ready? = some y := by
  simp only [reservedSnapshots, List.mem_filterMap, List.mem_filter, Dict.mem_values_iff,
    decide_eq_true_eq]
  constructor
  · rintro ⟨b, ⟨⟨j, hj⟩, hother⟩, hready⟩
    exact ⟨j, b, hj, hother, hready⟩
  · rintro ⟨j, b, hj, hother, hready⟩
    exact ⟨b, ⟨⟨j, hj⟩, hother⟩, hready⟩

omit [Primitives] [Reducers] in
theorem InboundMigration.pending_of_ready {b : InboundMigration} {y : Snapshot}
    (h : b.ready? = some y) : b.pending = true := by
  unfold InboundMigration.ready? at h
  split at h
  · rename_i hready
    exact (Bool.and_eq_true _ _ ▸ hready).1
  · exact nomatch h

/-- No two pending stages are of one company, and a ready stage carries its own company. -/
structure StagesApart (s : State) : Prop where
  alone : ∀ i j a b, s.incoming.get? i = some a → s.incoming.get? j = some b →
    a.pending = true → b.pending = true →
    a.manifest.organizationId = b.manifest.organizationId → i = j
  company : ∀ i a snap, s.incoming.get? i = some a → a.ready? = some snap →
    snap.organization.id = a.manifest.organizationId

omit [Primitives] [Reducers] in
theorem not_reserved {s : State} {org : Uuid} (h : migrationReserved s org = false) {j : Uuid}
    {b : InboundMigration} (hb : s.incoming.get? j = some b) (live : b.pending = true) :
    b.manifest.organizationId ≠ org := by
  intro heq
  unfold migrationReserved at h
  rw [List.any_eq_false] at h
  apply h b (Dict.mem_values_of_get? hb)
  simp [live, heq]

/-- Where a pending stage of a later state stood before, if it did: under the same manifest. -/
theorem StageMove.before {s : State} {after : Dict Uuid InboundMigration} {i : Uuid}
    {b : InboundMigration} (h : StageMove s after i b) :
    (∃ a, s.incoming.get? i = some a ∧ a.pending = true ∧ b.manifest = a.manifest) ∨
      migrationReserved s b.manifest.organizationId = false ∧
        ∀ j, j ≠ i → after.get? j = s.incoming.get? j := by
  cases h with
  | kept a found pending manifest ready => exact .inl ⟨a, found, pending, manifest⟩
  | opened unready unreserved others => exact .inr ⟨unreserved, others⟩
  | readied a snap found pending manifest ready company valid others =>
    exact .inl ⟨a, found, pending, manifest⟩

theorem StagesApart.step {s t : State} (h : StagesApart s)
    (moves : ∀ i b, t.incoming.get? i = some b → b.pending = true → StageMove s t.incoming i b) :
    StagesApart t := by
  constructor
  · intro i j a b ha hb hlive hlive' horg
    by_contra hne
    rcases (moves i a ha hlive).before with ⟨a', ha', hlive₁, hmanifest⟩ | ⟨hfree, hothers⟩
    · rcases (moves j b hb hlive').before with ⟨b', hb', hlive₂, hmanifest'⟩ | ⟨hfree, hothers⟩
      · exact hne (h.alone i j a' b' ha' hb' hlive₁ hlive₂ (hmanifest ▸ hmanifest' ▸ horg))
      · rw [hothers i hne] at ha
        exact not_reserved hfree ha hlive horg
    · rw [hothers j (Ne.symm hne)] at hb
      exact not_reserved hfree hb hlive' horg.symm
  · intro i b snap hb hready
    cases moves i b hb (InboundMigration.pending_of_ready hready) with
    | kept a found pending manifest ready =>
      rw [manifest]
      exact h.company i a snap found (ready ▸ hready)
    | opened unready unreserved others =>
      rw [unready] at hready
      exact nomatch hready
    | readied a snap' found pending manifest ready company valid others =>
      obtain rfl := Option.some.inj (hready.symm.trans ready)
      exact company

theorem Reachable.stagesApart {s : State} (h : Reachable s) : StagesApart s := by
  induction h with
  | empty =>
    constructor
    · intro i j a b ha
      exact nomatch ha
    · intro i a snap ha
      exact nomatch ha
  | step before accepted ih =>
    obtain ⟨signed, reply, haccepted, rfl, -⟩ := execute_eq_ok accepted
    exact ih.step fun i b => haccepted.stageMove before.keyed

section

variable {α β : Type} [DecidableEq α] (r : Reservation α β)

/-- Two ready stages that carry a value of one name, which the host does not have, carry the
same. -/
def Reservation.United (s : State) : Prop :=
  ∀ i j a b x y, s.incoming.get? i = some a → a.ready? = some x → s.incoming.get? j = some b →
    b.ready? = some y → ∀ u ∈ r.carried x, ∀ v ∈ r.carried y, r.name u = r.name v →
      (r.table s).get? (r.name u) = none → u = v

/-- What a snapshot carries passes for the value of its name, and under a name of its own. -/
structure Reservation.Fits (s : State) (snap : Snapshot) : Prop where
  same : ∀ u ∈ r.carried snap, ∀ w, (r.table (reservedState s snap)).get? (r.name u) = some w →
    w = u
  distinct : ((r.carried snap).map r.name).Nodup

variable {r} {s t : State}

omit [Primitives] [Reducers] in
/-- A validated snapshot agrees with every stage that was ready before. -/
theorem Reservation.United.joins (united : r.United s) {snap : Snapshot}
    (fits : r.Fits s snap) {j : Uuid} {b : InboundMigration} {y : Snapshot}
    (hb : s.incoming.get? j = some b) (hready : b.ready? = some y)
    (other : b.manifest.organizationId ≠ snap.organization.id) {u v : β}
    (hu : u ∈ r.carried snap) (hv : v ∈ r.carried y) (hname : r.name u = r.name v)
    (absent : (r.table s).get? (r.name u) = none) : u = v := by
  have hmem : v ∈ r.others s snap :=
    List.mem_flatMap.mpr ⟨y, mem_reservedSnapshots.mpr ⟨j, b, hb, other, hready⟩, hv⟩
  have hfound : ((r.others s snap).find? (r.name · = r.name u)).isSome = true := by
    rw [List.find?_isSome]
    exact ⟨v, hmem, decide_eq_true hname.symm⟩
  obtain ⟨w, hw⟩ := Option.isSome_iff_exists.mp hfound
  have hget := r.get?_reservedState s snap (r.name u)
  rw [absent, Option.none_or, hw] at hget
  obtain rfl := fits.same u hu w hget
  obtain ⟨x, hx, hcarried⟩ := List.mem_flatMap.mp (List.mem_of_find?_eq_some hw)
  obtain ⟨i, a, ha, -, hx⟩ := mem_reservedSnapshots.mp hx
  exact united i j a b x y ha hx hb hready w hcarried v hv hname absent

theorem Reservation.United.step (united : r.United s) (apart : StagesApart s)
    (spans : Spans (r.table s) (r.table t))
    (fits : ∀ snap, validateSnapshot s snap = .ok () → r.Fits s snap)
    (moves : ∀ i b, t.incoming.get? i = some b → b.pending = true → StageMove s t.incoming i b) :
    r.United t := by
  have hnew : ∀ i j a b x y, t.incoming.get? i = some a → a.ready? = some x →
      t.incoming.get? j = some b → b.ready? = some y → ∀ old, s.incoming.get? i = some old →
      old.pending = true → a.manifest = old.manifest →
      x.organization.id = a.manifest.organizationId → validateSnapshot s x = .ok () →
      (∀ j, j ≠ i → t.incoming.get? j = s.incoming.get? j) →
      ∀ u ∈ r.carried x, ∀ v ∈ r.carried y, r.name u = r.name v →
        (r.table s).get? (r.name u) = none → u = v := by
    intro i j a b x y ha hx hb hy old found pending manifest company valid others u hu v hv hname
      absent
    by_cases heq : j = i
    · subst heq
      obtain rfl := Option.some.inj (ha.symm.trans hb)
      obtain rfl := Option.some.inj (hx.symm.trans hy)
      exact List.inj_on_of_nodup_map (fits x valid).distinct hu hv hname
    · rw [others j heq] at hb
      refine united.joins (fits x valid) hb hy ?_ hu hv hname absent
      intro horg
      have hsame : b.manifest.organizationId = old.manifest.organizationId := by
        rw [horg, company, manifest]
      exact heq (apart.alone j i b old hb found (InboundMigration.pending_of_ready hy) pending
        hsame)
  intro i j a b x y ha hx hb hy u hu v hv hname absent
  have habsent : (r.table s).get? (r.name u) = none := spans _ absent
  cases moves i a ha (InboundMigration.pending_of_ready hx) with
  | opened unready unreserved others =>
    rw [unready] at hx
    exact nomatch hx
  | readied old snap found pending manifest ready company valid others =>
    obtain rfl := Option.some.inj (hx.symm.trans ready)
    exact hnew i j a b x y ha hx hb hy old found pending manifest company valid others u hu v hv
      hname habsent
  | kept old found pending manifest ready =>
    cases moves j b hb (InboundMigration.pending_of_ready hy) with
    | opened unready unreserved others =>
      rw [unready] at hy
      exact nomatch hy
    | readied old' snap found' pending' manifest' ready' company' valid' others' =>
      obtain rfl := Option.some.inj (hy.symm.trans ready')
      exact (hnew j i b a y x hb hy ha hx old' found' pending' manifest' company' valid' others' v
        hv u hu hname.symm (hname ▸ habsent)).symm
    | kept old' found' pending' manifest' ready' =>
      exact united i j old old' x y found (ready ▸ hx) found' (ready' ▸ hy) u hu v hv hname
        habsent

theorem Reachable.united (spans : ∀ {s t : State}, TablesSpan s t → Spans (r.table s) (r.table t))
    (fits : ∀ s snap, validateSnapshot s snap = .ok () → r.Fits s snap) (h : Reachable s) :
    r.United s := by
  induction h with
  | empty =>
    intro i j a b x y ha
    exact nomatch ha
  | @step s s' c ctx result before accepted ih =>
    obtain ⟨signed, reply, haccepted, rfl, -⟩ := execute_eq_ok accepted
    have hspan : TablesSpan s (recordReceipt (reply.next c) c ctx.now reply.result) :=
      { haccepted.tablesSpan before.keyed with }
    exact ih.step before.stagesApart (spans hspan) (fits _)
      fun i b => haccepted.stageMove before.keyed

omit [Primitives] [Reducers] in
theorem Reservation.United.agree (united : r.United s) (snap : Snapshot) : r.Agree s snap := by
  intro u hu v hv hname absent
  obtain ⟨x, hx, hu⟩ := List.mem_flatMap.mp hu
  obtain ⟨y, hy, hv⟩ := List.mem_flatMap.mp hv
  obtain ⟨i, a, ha, -, hx⟩ := mem_reservedSnapshots.mp hx
  obtain ⟨j, b, hb, -, hy⟩ := mem_reservedSnapshots.mp hy
  exact united i j a b x y ha hx hb hy u hu v hv hname absent

end

section

variable {s : State} {snap : Snapshot}

omit [Reducers] in
theorem validateProfiles_distinct {u : Unit} (h : validateProfiles s snap = .ok u) :
    (snap.profiles.map Profile.digest).Nodup := by
  simp only [validateProfiles, Outcome.bind_eq_ok] at h
  obtain ⟨replay, hfold, -⟩ := h
  refine @Outcome.foldlM_distinct _ _ _ _ _ ProfileReplay.digests Profile.digest ?_ _ _ _ rfl hfold
  intro m p n hstep
  simp only [validateProfileAt, Outcome.bind_eq_ok, invalidSnapshot_eq_ok, demand_eq_ok,
    Outcome.pure_eq_ok] at hstep
  obtain ⟨_, hfresh, _, -, _, -, _, -, _, -, rfl⟩ := hstep
  exact ⟨rfl, hfresh⟩

omit [Reducers] in
theorem validateReleases_distinct {u : Unit} (h : validateReleases s snap = .ok u) :
    (snap.releases.map Release.digest).Nodup := by
  simp only [validateReleases, Outcome.bind_eq_ok] at h
  obtain ⟨replay, hfold, -⟩ := h
  refine @Outcome.foldlM_distinct _ _ _ _ _ ReleaseReplay.digests Release.digest ?_ _ _ _ rfl hfold
  intro m r n hstep
  simp only [validateRelease, Outcome.bind_eq_ok, invalidSnapshot_eq_ok, demand_eq_ok,
    Outcome.pure_eq_ok] at hstep
  obtain ⟨_, hfresh, _, -, _, -, _, -, _, -, _, -, _, -, _, -, _, -, _, -, _, -, _, -, rfl⟩ := hstep
  exact ⟨rfl, hfresh⟩

omit [Reducers] in
theorem validatePolicies_distinct {policyIds : List Uuid}
    (h : validatePolicies s snap = .ok policyIds) : (snap.policies.map Policy.id).Nodup := by
  have hcollect := Outcome.foldlM_collect (P := fun _ => True) Policy.id ?_ h
  · exact hcollect.1 ▸ hcollect.2.1
  intro seen p out hstep
  simp only [validatePolicy, Outcome.bind_eq_ok, invalidSnapshot_eq_ok, demand_eq_ok,
    Outcome.pure_eq_ok] at hstep
  obtain ⟨_, hfresh, _, -, _, -, _, -, rfl⟩ := hstep
  exact ⟨rfl, hfresh.2.2, trivial⟩

/-- Ready stages of other companies agree with one another on all that is not a person. -/
theorem Reachable.stagesAgree (h : Reachable s) (snap : Snapshot) : StagesAgree s snap := by
  have hvalid : ∀ {s : State} {snap : Snapshot}, validateSnapshot s snap = .ok () →
      ∃ replay claimed policyIds opened, Validated s snap replay claimed policyIds opened :=
    fun valid => (validateSnapshot_eq_ok _ _ ()).mp valid
  constructor
  · refine (h.united (r := .organizations) (fun spans => spans.organizations) ?_).agree snap
    intro t x valid
    obtain ⟨_, _, _, _, validated⟩ := hvalid valid
    refine ⟨fun u hu w hw => ?_, List.nodup_singleton _⟩
    obtain rfl := List.mem_singleton.mp hu
    exact nomatch validated.absent.symm.trans hw
  · refine (h.united (r := .policies) (fun spans => spans.policies) ?_).agree snap
    intro t x valid
    obtain ⟨_, _, _, _, validated⟩ := hvalid valid
    refine ⟨fun u hu w hw => ?_, validatePolicies_distinct validated.policies⟩
    exact nomatch (validatePolicies_carried validated.policies u hu).2.symm.trans hw
  · refine (h.united (r := .profiles) (fun spans => spans.profiles) ?_).agree snap
    intro t x valid
    obtain ⟨_, _, _, _, validated⟩ := hvalid valid
    exact ⟨fun u hu w hw => validateProfiles_stored validated.profiles hu hw,
      validateProfiles_distinct validated.profiles⟩
  · refine (h.united (r := .releases) (fun spans => spans.releases) ?_).agree snap
    intro t x valid
    obtain ⟨_, _, _, _, validated⟩ := hvalid valid
    refine ⟨fun u hu w hw => ?_, validateReleases_distinct validated.releases⟩
    have hstored := validateReleases_stored validated.releases u hu
    have hw : (reservedState t x).releases.get? u.digest = some w := hw
    rw [hw] at hstored
    exact of_decide_eq_true hstored
  · refine (h.united (r := .records) (fun spans => spans.records) ?_).agree snap
    intro t x valid
    obtain ⟨_, _, _, _, validated⟩ := hvalid valid
    have hcarried := validateRecords_carried validated.records
    refine ⟨fun u hu w hw => ?_, hcarried.nodup⟩
    exact nomatch (hcarried.absent u hu).symm.trans hw

end

end DirectTrade
