import DirectTrade.Import

/-!
The command that admitted a protocol contract, as an import sees it. Every check of a
snapshot but one ignores it: a stored contract is compared with the carried one, admitting
command included.
-/

namespace DirectTrade

open Library

/-- The same profile, but for the admitting command of a protocol contract. -/
def Profile.Apart (p q : Profile) : Prop :=
  q = p ∨ p.publisherId = .dtp ∧ q = { p with command := q.command }

/-- What the checks of an import read of a profile. -/
def Profile.shown (p : Profile) : ProfileContract × ProfileLabel × Digest × Visibility ×
    List Uuid :=
  (p.toProfileContract, p.id, p.digest, p.visibility, p.readers)

theorem Profile.Apart.refl (p : Profile) : p.Apart p := .inl rfl

theorem Profile.Apart.shown {p q : Profile} (h : p.Apart q) : p.shown = q.shown := by
  rcases h with rfl | ⟨-, h⟩
  · rfl
  · rw [h]
    rfl

/-- Two states that differ in the admitting commands of protocol contracts only. -/
structure AdmissionsApart (s t : State) : Prop where
  tables : t = { s with profiles := t.profiles }
  profiles : s.profiles.Alike Profile.Apart t.profiles

theorem AdmissionsApart.reserve {s t : State} (h : AdmissionsApart s t) (other : Snapshot) :
    AdmissionsApart (s.reserve other) (t.reserve other) := by
  refine ⟨?_, h.profiles.foldl_setNew .refl Profile.digest other.profiles⟩
  rw [h.tables]
  rfl

theorem AdmissionsApart.reservedState {s t : State} (h : AdmissionsApart s t)
    (snap : Snapshot) :
    AdmissionsApart (DirectTrade.reservedState s snap) (DirectTrade.reservedState t snap) := by
  have hsame : reservedSnapshots t snap = reservedSnapshots s snap := by
    rw [h.tables]
    rfl
  unfold DirectTrade.reservedState
  rw [hsame]
  generalize reservedSnapshots s snap = others
  clear hsame
  induction others generalizing s t with
  | nil => exact h
  | cons other rest ih => exact ih (h.reserve other)

section

variable {s t : State} (h : AdmissionsApart s t) (snap : Snapshot)

include h

theorem AdmissionsApart.candidate (d : Digest) :
    (candidateProfile t snap d).map Profile.shown =
      (candidateProfile s snap d).map Profile.shown := by
  unfold candidateProfile
  cases snap.profiles.find? (·.digest = d) with
  | some p => rfl
  | none =>
    simp only [Option.none_or]
    have hget := h.profiles.get? d
    generalize s.profiles.get? d = x at hget
    generalize t.profiles.get? d = y at hget
    cases hget with
    | none => rfl
    | some hpq => exact congrArg some hpq.shown.symm

theorem AdmissionsApart.candidate_isSome (d : Digest) :
    (candidateProfile t snap d).isSome = (candidateProfile s snap d).isSome := by
  rw [← Option.isSome_map (f := Profile.shown), h.candidate snap d, Option.isSome_map]

theorem AdmissionsApart.candidate_contract (d : Digest) :
    (candidateProfile t snap d).map Profile.toProfileContract =
      (candidateProfile s snap d).map Profile.toProfileContract := by
  have hmap := congrArg (Option.map Prod.fst) (h.candidate snap d)
  simpa only [Option.map_map, Function.comp_def, Profile.shown] using hmap

theorem AdmissionsApart.hasSemantics (semantics : Semantics) (r : BusinessRecord) :
    hasSemantics (candidateProfile t snap) semantics r =
      hasSemantics (candidateProfile s snap) semantics r := by
  have hcontract := h.candidate_contract snap r.profileDigest
  unfold DirectTrade.hasSemantics
  cases hs : candidateProfile s snap r.profileDigest <;>
    cases ht : candidateProfile t snap r.profileDigest <;> simp_all

theorem AdmissionsApart.head? (root : Option Uuid) (semantics : Semantics) :
    snap.head? (candidateProfile t snap) root semantics =
      snap.head? (candidateProfile s snap) root semantics := by
  simp only [Snapshot.head?, h.hasSemantics snap]

theorem AdmissionsApart.dependencies (d : Digest) :
    (candidateProfile t snap d).map (·.dependencies) =
      (candidateProfile s snap d).map (·.dependencies) := by
  have hmap := congrArg (Option.map ProfileContract.dependencies) (h.candidate_contract snap d)
  simpa only [Option.map_map, Function.comp_def] using hmap

end

/-- A walk reads the dependencies of a profile only. -/
theorem walkProfiles_congr {P Q : Digest → Option Profile}
    (h : ∀ d, (Q d).map (·.dependencies) = (P d).map (·.dependencies)) (fuel : ℕ) (walk : Walk)
    (pending : List Visit) :
    walkProfiles Q fuel walk pending = walkProfiles P fuel walk pending := by
  induction fuel generalizing walk pending with
  | zero => cases pending <;> rfl
  | succ fuel ih =>
    rcases pending with _ | ⟨visit, pending⟩
    · rfl
    · cases visit with
      | exit d => exact ih _ _
      | enter d =>
        have hd := h d
        simp only [walkProfiles, ih]
        cases hP : P d <;> cases hQ : Q d <;>
          simp only [hP, hQ, Option.map_some, Option.map_none, Option.some.injEq,
            reduceCtorEq] at hd
        · rfl
        · simp only [require, Outcome.require_some, Outcome.ok_bind, hd]

variable {s t : State}

theorem AdmissionsApart.validateDependencies (h : AdmissionsApart s t) (snap : Snapshot) :
    DirectTrade.validateDependencies t snap = DirectTrade.validateDependencies s snap := by
  have hfuel : walkFuel t snap = walkFuel s snap := by
    unfold walkFuel
    rw [List.map_append, List.map_append, h.profiles.map_values (f := fun p =>
      p.dependencies.length + 1) fun hpq => by
        have hcontract := congrArg (fun x => x.1.dependencies.length + 1) hpq.shown
        exact hcontract]
  simp only [DirectTrade.validateDependencies, hfuel,
    walkProfiles_congr (h.dependencies snap)]

variable [Primitives]

theorem AdmissionsApart.validateProfile (h : AdmissionsApart s t) (snap : Snapshot)
    (p : Profile) :
    DirectTrade.validateProfile p (candidateProfile t snap) =
      DirectTrade.validateProfile p (candidateProfile s snap) := by
  simp only [DirectTrade.validateProfile, h.candidate_isSome snap]

theorem AdmissionsApart.validateReleases (h : AdmissionsApart s t) (snap : Snapshot) :
    DirectTrade.validateReleases t snap = DirectTrade.validateReleases s snap := by
  have hreleases : t.releases = s.releases := by rw [h.tables]
  have hrelease : DirectTrade.validateRelease t snap = DirectTrade.validateRelease s snap := by
    funext replay r
    simp only [DirectTrade.validateRelease, h.candidate_isSome snap, hreleases]
  simp only [DirectTrade.validateReleases, hrelease, hreleases]

theorem AdmissionsApart.validateOpenings (h : AdmissionsApart s t) (snap : Snapshot)
    (policyIds : List Uuid) :
    DirectTrade.validateOpenings t snap policyIds =
      DirectTrade.validateOpenings s snap policyIds := by
  have hopening : replayOpening t snap policyIds = replayOpening s snap policyIds := by
    funext rebuilt entry
    simp only [replayOpening, h.head? snap]
  have hledger : replayFlowLedger t snap = replayFlowLedger s snap := by
    funext rebuilt entry
    simp only [replayFlowLedger, replayLedger, h.head? snap]
  simp only [DirectTrade.validateOpenings, hopening, hledger]

variable [Reducers]

theorem AdmissionsApart.replayRecord (h : AdmissionsApart s t) (snap : Snapshot)
    (installations : Table Uuid Installation) :
    DirectTrade.replayRecord t snap installations =
      DirectTrade.replayRecord s snap installations := by
  funext replay r
  have hbusiness : ∀ replay semantics,
      replayBusiness t snap replay r semantics = replayBusiness s snap replay r semantics := by
    intro replay semantics
    rw [h.tables]
    rfl
  have hrecords : t.records = s.records := by rw [h.tables]
  have hcontract := h.candidate_contract snap r.profileDigest
  simp only [DirectTrade.replayRecord, hbusiness, hrecords]
  cases hs : candidateProfile s snap r.profileDigest <;>
    cases ht : candidateProfile t snap r.profileDigest <;>
      simp only [hs, ht, Option.map_some, Option.map_none, Option.some.injEq,
        reduceCtorEq] at hcontract
  · rfl
  · simp only [require, Outcome.require_some, Outcome.ok_bind, hcontract]

theorem AdmissionsApart.validateRecords (h : AdmissionsApart s t) (snap : Snapshot)
    (installations : Table Uuid Installation) (opened : Inventory) :
    DirectTrade.validateRecords t snap installations opened =
      DirectTrade.validateRecords s snap installations opened := by
  simp only [DirectTrade.validateRecords, h.replayRecord snap]

/-- Every carried protocol contract that the destination stores, reserved ones included, is
stored there under the snapshot's own admitting command. -/
def AdmissionsMatch (host : State) (snap : Snapshot) : Prop :=
  ∀ p ∈ snap.profiles, p.publisherId = .dtp →
    ∀ stored, (reservedState host snap).profiles.get? p.digest = some stored →
      stored.command = p.command

/-- The admitting command that a snapshot carries for a contract. -/
def Snapshot.admission? (snap : Snapshot) (d : Digest) : Option StoredCommand :=
  (snap.profiles.find? fun p => p.digest = d && p.publisherId = .dtp).map (·.command)

/-- The tables with every carried protocol contract under the snapshot's admission. -/
def State.withAdmissions (s : State) (snap : Snapshot) : State :=
  { s with profiles := s.profiles.mapEntries fun d p =>
      if p.publisherId = .dtp then
        { p with command := (snap.admission? d).getD p.command }
      else p }

/-- Every check of an import, with the stored protocol contracts taken for the carried ones
where only the admitting command tells them apart. -/
def OtherwiseValid (host : State) (snap : Snapshot) : Prop :=
  ∃ replay claimed policyIds opened,
    validateHeader snap = .ok () ∧
    validatePersons (reservedState host snap) snap = .ok claimed ∧
    validateOrganization (reservedState host snap) snap claimed = .ok replay ∧
    validateProfiles ((reservedState host snap).withAdmissions snap) snap = .ok () ∧
    validateDependencies (reservedState host snap) snap = .ok () ∧
    validatePolicies (reservedState host snap) snap = .ok policyIds ∧
    validateOpenings (reservedState host snap) snap policyIds = .ok opened ∧
    validateRecords (reservedState host snap) snap replay.installations opened = .ok () ∧
    validateReleases (reservedState host snap) snap = .ok () ∧
    (reservedState host snap).organizations.get? snap.organization.id = none

omit [Primitives] [Reducers] in
theorem admission?_of_mem {snap : Snapshot} {p : Profile} (hp : p ∈ snap.profiles)
    (dtp : p.publisherId = .dtp) : ∃ c, snap.admission? p.digest = some c := by
  have hsome : (snap.profiles.find? fun q =>
      q.digest = p.digest && q.publisherId = .dtp).isSome = true := by
    rw [List.find?_isSome]
    exact ⟨p, hp, by simp [dtp]⟩
  obtain ⟨q, hq⟩ := Option.isSome_iff_exists.mp hsome
  exact ⟨q.command, by rw [Snapshot.admission?, hq, Option.map_some]⟩

omit [Primitives] [Reducers] in
theorem mem_of_admission? {snap : Snapshot} {d : Digest} {c : StoredCommand}
    (h : snap.admission? d = some c) :
    ∃ p ∈ snap.profiles, p.digest = d ∧ p.publisherId = .dtp ∧ p.command = c := by
  obtain ⟨p, hp, rfl⟩ := Option.map_eq_some_iff.mp h
  have hfound := List.find?_some hp
  simp only [Bool.and_eq_true, decide_eq_true_eq] at hfound
  exact ⟨p, List.mem_of_find?_eq_some hp, hfound.1, hfound.2, rfl⟩

omit [Primitives] [Reducers] in
/-- Where the admissions match already, there is nothing to replace. -/
theorem AdmissionsMatch.withAdmissions {host : State} {snap : Snapshot}
    (h : AdmissionsMatch host snap) :
    (DirectTrade.reservedState host snap).withAdmissions snap =
      DirectTrade.reservedState host snap := by
  have hself : (DirectTrade.reservedState host snap).profiles.mapEntries (fun d p =>
      if p.publisherId = .dtp then
        { p with command := (snap.admission? d).getD p.command }
      else p) = (DirectTrade.reservedState host snap).profiles := by
    apply Dict.ext
    show List.map _ _ = _
    conv_rhs => rw [← List.map_id (DirectTrade.reservedState host snap).profiles.entries]
    refine List.map_congr_left fun e he => ?_
    obtain ⟨d, p⟩ := e
    have hstored := (Dict.mem_entries_iff _ d p).mp he
    simp only [id_eq, Prod.mk.injEq, true_and]
    split
    · cases hadmission : snap.admission? d with
      | none => rfl
      | some c =>
        obtain ⟨q, hq, rfl, hdtp, rfl⟩ := mem_of_admission? hadmission
        simp only [Option.getD_some, ← h q hq hdtp p hstored]
    · rfl
  unfold State.withAdmissions
  rw [hself]

omit [Reducers] in
/-- An import compares every carried profile with the stored one. -/
theorem validateProfiles_stored {s : State} {snap : Snapshot} {u : Unit}
    (h : validateProfiles s snap = .ok u) {p stored : Profile} (hp : p ∈ snap.profiles)
    (hstored : s.profiles.get? p.digest = some stored) : stored = p := by
  simp only [validateProfiles, Outcome.bind_eq_ok] at h
  obtain ⟨_, hfold, -⟩ := h
  obtain ⟨before, rest, heq⟩ := List.append_of_mem hp
  rw [heq] at hfold
  obtain ⟨_, _, -, hstep, -⟩ := Outcome.foldlM_split hfold
  simp only [validateProfileAt, Outcome.bind_eq_ok, demand_eq_ok, exists_const] at hstep
  obtain ⟨_, -, _, -, _, -, -, hsame, -⟩ := hstep
  simpa [hstored] using hsame

/-- An import accepts exactly when every other check passes and the admissions match. -/
theorem validateSnapshot_iff_admissions (host : State) (snap : Snapshot) :
    validateSnapshot host snap = .ok () ↔
      OtherwiseValid host snap ∧ AdmissionsMatch host snap := by
  rw [validateSnapshot_eq_ok]
  constructor
  · rintro ⟨replay, claimed, policyIds, opened, h⟩
    have hmatch : AdmissionsMatch host snap := by
      intro p hp _ stored hstored
      rw [validateProfiles_stored h.profiles hp hstored]
    refine ⟨⟨replay, claimed, policyIds, opened, h.header, h.persons, h.organization, ?_,
      h.dependencies, h.policies, h.openings, h.records, h.releases, h.absent⟩, hmatch⟩
    rw [hmatch.withAdmissions]
    exact h.profiles
  · rintro ⟨⟨replay, claimed, policyIds, opened, header, persons, organization, profiles,
      dependencies, policies, openings, records, releases, absent⟩, hmatch⟩
    rw [hmatch.withAdmissions] at profiles
    exact ⟨replay, claimed, policyIds, opened, header, persons, organization, profiles,
      dependencies, policies, openings, records, releases, absent⟩

omit [Primitives] [Reducers] in
theorem AdmissionsApart.withAdmissions (h : AdmissionsApart s t) (snap : Snapshot) :
    AdmissionsApart (s.withAdmissions snap) (t.withAdmissions snap) := by
  refine ⟨?_, h.profiles.mapEntries ?_⟩
  · rw [h.tables]
    rfl
  · rintro d p q (rfl | ⟨hdtp, hq⟩)
    · exact .inl rfl
    · have hdtp' : q.publisherId = .dtp := by rw [hq]; exact hdtp
      rw [if_pos hdtp, if_pos hdtp', hq]
      exact .inr ⟨hdtp, rfl⟩

omit [Primitives] [Reducers] in
/-- Readmitted tables agree on every comparison with a carried profile. -/
theorem AdmissionsApart.withAdmissions_stored (h : AdmissionsApart s t) {snap : Snapshot}
    {p : Profile}
    (hp : p ∈ snap.profiles) :
    ((t.withAdmissions snap).profiles.get? p.digest).all (· = p) =
      ((s.withAdmissions snap).profiles.get? p.digest).all (· = p) := by
  have hget := h.profiles.get? p.digest
  simp only [State.withAdmissions, Dict.get?_mapEntries]
  generalize s.profiles.get? p.digest = x at hget
  generalize t.profiles.get? p.digest = y at hget
  cases hget with
  | none => rfl
  | @some u v huv =>
    rcases huv with rfl | ⟨hdtp, hv⟩
    · rfl
    · have hdtp' : v.publisherId = .dtp := by rw [hv]; exact hdtp
      simp only [Option.map_some, Option.all_some, if_pos hdtp, if_pos hdtp']
      cases hadmission : snap.admission? p.digest with
      | some c =>
        rw [hv]
        rfl
      | none =>
        -- the snapshot carries a profile of a company under the digest of a contract
        have hpublished : p.publisherId ≠ .dtp := by
          intro hdtp
          obtain ⟨c, hc⟩ := admission?_of_mem hp hdtp
          simp [hadmission] at hc
        have hu : u ≠ p := fun heq => hpublished (heq ▸ hdtp)
        have hv : v ≠ p := fun heq => hpublished (heq ▸ hdtp')
        simp [hu, hv]

omit [Reducers] in
theorem AdmissionsApart.validateProfiles (h : AdmissionsApart s t) (snap : Snapshot) :
    DirectTrade.validateProfiles (t.withAdmissions snap) snap =
      DirectTrade.validateProfiles (s.withAdmissions snap) snap := by
  have hnames : (t.withAdmissions snap).profiles.values.foldl
      (fun names (p : Profile) => names.set p.label p.digest) ∅ =
        (s.withAdmissions snap).profiles.values.foldl
          (fun names (p : Profile) => names.set p.label p.digest)
          (∅ : Dict ProfileLabel Digest) := by
    have hmap := (h.withAdmissions snap).profiles.map_values (f := fun p => (p.label, p.digest))
      fun hpq => by
        have hshown := congrArg (fun x => ((x.1.label, x.2.2.1) : ProfileLabel × Digest)) hpq.shown
        exact hshown
    have hfold := congrArg (List.foldl (fun names (e : ProfileLabel × Digest) =>
      names.set e.1 e.2) (∅ : Dict ProfileLabel Digest)) hmap
    simpa only [List.foldl_map] using hfold.symm
  simp only [DirectTrade.validateProfiles, hnames]
  rw [Outcome.foldlM_congr fun p hp r => ?_]
  simp only [validateProfileAt, (h.withAdmissions snap).validateProfile snap,
    h.withAdmissions_stored hp]

theorem AdmissionsApart.otherwiseValid (h : AdmissionsApart s t) (snap : Snapshot) :
    OtherwiseValid t snap ↔ OtherwiseValid s snap := by
  have hr := h.reservedState snap
  have hpersons : validatePersons (DirectTrade.reservedState t snap) snap =
      validatePersons (DirectTrade.reservedState s snap) snap := by
    rw [hr.tables]
    rfl
  have horganization : ∀ claimed,
      validateOrganization (DirectTrade.reservedState t snap) snap claimed =
        validateOrganization (DirectTrade.reservedState s snap) snap claimed := by
    intro claimed
    rw [hr.tables]
    rfl
  have hpolicies : validatePolicies (DirectTrade.reservedState t snap) snap =
      validatePolicies (DirectTrade.reservedState s snap) snap := by
    rw [hr.tables]
    rfl
  have habsent : (DirectTrade.reservedState t snap).organizations =
      (DirectTrade.reservedState s snap).organizations := by
    rw [hr.tables]
  simp only [OtherwiseValid, hpersons, horganization, hpolicies, habsent,
    hr.validateProfiles snap, hr.validateDependencies snap, hr.validateOpenings snap,
    hr.validateRecords snap, hr.validateReleases snap]

/-- The verdicts of two destinations that differ in admissions only agree exactly when the
snapshot fails another check, or its protocol contracts are stored under its own admitting
commands at both destinations or at neither. -/
theorem admission_neutral_iff {s t : State} (h : AdmissionsApart s t) (snap : Snapshot) :
    (validateSnapshot s snap = .ok () ↔ validateSnapshot t snap = .ok ()) ↔
      (OtherwiseValid s snap → (AdmissionsMatch s snap ↔ AdmissionsMatch t snap)) := by
  rw [validateSnapshot_iff_admissions, validateSnapshot_iff_admissions, h.otherwiseValid snap]
  constructor
  · intro hiff hvalid
    exact ⟨fun hs => (hiff.mp ⟨hvalid, hs⟩).2, fun ht => (hiff.mpr ⟨hvalid, ht⟩).2⟩
  · intro hiff
    exact ⟨fun ⟨hvalid, hs⟩ => ⟨hvalid, (hiff hvalid).mp hs⟩,
      fun ⟨hvalid, ht⟩ => ⟨hvalid, (hiff hvalid).mpr ht⟩⟩

omit [Primitives] [Reducers] in
theorem admissionsApart_withAdmissions (s : State) (snap : Snapshot) :
    AdmissionsApart s (s.withAdmissions snap) := by
  refine ⟨rfl, List.forall₂_map_right_iff.mpr (List.forall₂_same.mpr ?_)⟩
  rintro ⟨d, p⟩ -
  refine ⟨rfl, ?_⟩
  by_cases hdtp : p.publisherId = .dtp
  · simp only [if_pos hdtp]
    exact .inr ⟨hdtp, rfl⟩
  · simp only [if_neg hdtp]
    exact .inl rfl

def sampleContract : ProfileContract := ⟨.dtp, "note", "1.0.0", sampleSchema, .structural, []⟩

/-- A host that carries one registered protocol contract. -/
def registryContext (audience : String) : Context :=
  { sampleContext audience 0 with
    kinds := [(⟨.dtp, "note", 1⟩, [704])]
    protocolProfiles := fun d => if d = 704 then some sampleContract else none }

/-- A person founds a company at a host and admits the contract there. -/
def admittingCommands (audience : String) (org nonce policyId : Uuid) :
    List (Command × Context) :=
  [(none, Mutation.personRegister [1]),
    (some org, .organizationCreate "acme" nonce [1] 1),
    (some org, .policyCreate
      ⟨policyId, 0, .business, [1], 1, [⟨1, [.read, .write], .all, 31536000000⟩]⟩),
    (some org, .profileAdmit 704)].mapIdx fun i m =>
      (sampleCommand audience 0 (i + 1) m.1 (.mutation m.2), registryContext audience)

/-- A company of host `a` that writes under the contract it admitted there. -/
def sourceCommands : List (Command × Context) :=
  admittingCommands "a" 1005 5 21 ++
    [(sampleCommand "a" 0 9 (some 1005)
        (.mutation (.recordAppend (sampleRecord 31 31 none))), registryContext "a")]

/-- The company as host `a` exports it. -/
def sourceSnapshot : Snapshot :=
  Outcome.value ⟨"", ⟨0, "", [], 0, 0, .active, ∅, ∅, ∅, []⟩, [], [], [], [], [], [], ∅⟩
    (buildSnapshot (finalState (run emptyState sourceCommands)) 1005 (registryContext "a"))

/-- Host `b`, where another company admitted the same contract. -/
def admittedHost : State :=
  finalState (run emptyState (admittingCommands "b" 1006 6 22))

omit [Primitives] [Reducers] in
/-- The snapshot passes every other check at host `b`; its verdict turns on the admission. -/
theorem admission_neutral_sample :
    letI := samplePrimitives none
    letI := sampleReducers
    OtherwiseValid admittedHost sourceSnapshot ∧
      ¬ (AdmissionsMatch admittedHost sourceSnapshot ↔
        AdmissionsMatch (admittedHost.withAdmissions sourceSnapshot) sourceSnapshot) := by
  let := samplePrimitives none
  let := sampleReducers
  have hiff := admission_neutral_iff (admissionsApart_withAdmissions admittedHost sourceSnapshot)
    sourceSnapshot
  have hrefused : (validateSnapshot admittedHost sourceSnapshot).toBool = false := by
    decide +kernel
  have haccepted : validateSnapshot (admittedHost.withAdmissions sourceSnapshot) sourceSnapshot =
      .ok () := by
    decide +kernel
  have hdiffer : ¬ (validateSnapshot admittedHost sourceSnapshot = .ok () ↔
      validateSnapshot (admittedHost.withAdmissions sourceSnapshot) sourceSnapshot = .ok ()) := by
    intro h
    rw [h.mpr haccepted] at hrefused
    cases hrefused
  rw [hiff] at hdiffer
  exact Classical.not_imp.mp hdiffer

omit [Primitives] [Reducers] in
/-- The company can move to a host without the contract, but not to host `b`, unless `b`
stores the very command of host `a`. -/
theorem admission_blocks_import :
    letI := samplePrimitives none
    letI := sampleReducers
    ¬ (∀ s t snap, Reachable s → AdmissionsApart s t →
      (validateSnapshot s snap = .ok () ↔ validateSnapshot t snap = .ok ())) ∧
    validateSnapshot emptyState sourceSnapshot = .ok () := by
  let := samplePrimitives none
  let := sampleReducers
  refine ⟨fun h => ?_, by decide +kernel⟩
  have hs : Reachable admittedHost := Reachable.finalState (by decide +kernel)
  have haccepted : validateSnapshot (admittedHost.withAdmissions sourceSnapshot) sourceSnapshot =
      .ok () := by
    decide +kernel
  have hrefused : (validateSnapshot admittedHost sourceSnapshot).toBool = false := by
    decide +kernel
  rw [(h _ _ _ hs (admissionsApart_withAdmissions _ _)).mpr haccepted] at hrefused
  cases hrefused

end DirectTrade
