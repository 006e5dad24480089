import DirectTrade.Stages
import Mathlib.Algebra.BigOperators.Group.List.Basic

/-!
An import judged at two hosts with the same tables in different orders. Most of its checks
judge alike at both; the others look up the last entry of a key or of a label, or the first
copy of a person. The verdicts differ exactly where those do, and nowhere as long as nothing
that the import decides by is mixed.
-/

namespace DirectTrade

open Library

theorem claimKey_of_free [Primitives] {host host' claimed claimed' : Owners} {key : KeyId}
    {owner : Owner} {current : Bool} {message : String}
    (free : current = true → (host.get? key).all (· = owner) = true →
      (host'.get? key).all (· = owner) = true)
    (h : claimKey host claimed key owner current message = .ok claimed') :
    claimKey host' claimed key owner current message = .ok claimed' := by
  simp only [claimKey, Outcome.bind_eq_ok, demand_eq_ok] at h ⊢
  obtain ⟨_, hclaimed, _, hfree, hnext⟩ := h
  refine ⟨(), hclaimed, (), ?_, hnext⟩
  cases hcurrent : current with
  | false => exact .inl rfl
  | true =>
    right
    apply free hcurrent
    simpa [hcurrent] using hfree

theorem claimKeys_of_free [Primitives] {host host' claimed claimed' : Owners} {p : Person}
    {keys : List KeyId} {current : Bool}
    (free : current = true → ∀ key ∈ keys, (host.get? key).all (· = .person p.id) = true →
      (host'.get? key).all (· = .person p.id) = true)
    (h : claimKeys host claimed p keys current = .ok claimed') :
    claimKeys host' claimed p keys current = .ok claimed' := by
  refine Outcome.foldlM_of_steps ?_ h
  intro key hkey c n hstep
  simp only [Outcome.bind_eq_ok, demand_eq_ok] at hstep ⊢
  obtain ⟨_, hvalid, hclaim⟩ := hstep
  exact ⟨(), hvalid, claimKey_of_free (fun hc => free hc key hkey) hclaim⟩

section

variable {s t : State} {snap : Snapshot}

/-- The destination has no other copy of a person who can act for the company. -/
def Unforked (s : State) (snap : Snapshot) (p : Person) : Prop :=
  (s.persons.get? p.id).all (sameKeys · p) = true ∨ currentPerson snap.organization p.id = false

/-- No company of the destination has an installation of an identifier. -/
def Uninstalls (s : State) (id : Uuid) : Prop :=
  ∀ org ∈ s.organizations.values, org.installations[id]? = none

theorem mem_installed {c : StoredCommand} {p : InstallationPayload}
    (hc : c ∈ snap.organization.history) (payload : c.payload = .installationCreate p)
    (active : (!snap.organization.installations.has p.installationId fun inst => !inst.active) =
      true) : (p.installationId, p.keyId) ∈ snap.installed := by
  refine List.mem_filterMap.mpr ⟨c, hc, ?_⟩
  simp only [payload]
  rw [if_neg]
  simpa using active

theorem installed_of_mem {id : Uuid} {key : KeyId} (h : (id, key) ∈ snap.installed) :
    ∃ c ∈ snap.organization.history, ∃ p, c.payload = .installationCreate p ∧
      snap.organization.installations.has p.installationId (fun inst => !inst.active) = false ∧
      p.installationId = id ∧ p.keyId = key := by
  obtain ⟨c, hc, hinstalled⟩ := List.mem_filterMap.mp h
  refine ⟨c, hc, ?_⟩
  split at hinstalled
  next p payload =>
    split at hinstalled
    next => cases hinstalled
    next hactive =>
      obtain ⟨rfl, rfl⟩ := Prod.mk.inj (Option.some.inj hinstalled)
      exact ⟨p, payload, by simpa using hactive, rfl, rfl⟩
  next => cases hinstalled

variable [Primitives]

/-- People who are accepted at one host are accepted at another that lets them have all the
keys that the first one lets them have. -/
theorem validatePersons_of_free {claimed : Owners}
    (free : ∀ p ∈ snap.persons, ∀ key ∈ p.keys,
      Free s key (.person p.id) → Free t key (.person p.id))
    (unforked : ∀ p ∈ snap.persons, Unforked s snap p → Unforked t snap p)
    (valid : validatePersons s snap = .ok claimed) : validatePersons t snap = .ok claimed := by
  simp only [validatePersons, Outcome.bind_eq_ok] at valid ⊢
  obtain ⟨replay, hfold, hclaimed⟩ := valid
  refine ⟨replay, Outcome.foldlM_of_steps ?_ hfold, hclaimed⟩
  intro p hp r n hstep
  simp only [validatePerson, Outcome.bind_eq_ok, invalidSnapshot_eq_ok, demand_eq_ok] at hstep ⊢
  obtain ⟨_, hfresh, personal, hpersonal, _, hkeys, current, hcurrent, all, hretired, _, hsame,
    hnext⟩ := hstep
  refine ⟨(), hfresh, personal, hpersonal, (), hkeys, current, ?_, all, ?_, (),
    unforked p hp hsame, hnext⟩
  · apply claimKeys_of_free _ hcurrent
    intro _ key hkey
    exact free p hp key (hkeys.1 ▸ hkey)
  · exact claimKeys_of_free (by intro hc; cases hc) hretired

theorem validatePersons_unforked {claimed : Owners} (valid : validatePersons s snap = .ok claimed)
    {p : Person} (hp : p ∈ snap.persons) : Unforked s snap p := by
  simp only [validatePersons, Outcome.bind_eq_ok] at valid
  obtain ⟨replay, hfold, -⟩ := valid
  obtain ⟨m, n, hstep⟩ := Outcome.foldlM_each hfold p hp
  simp only [validatePerson, Outcome.bind_eq_ok, demand_eq_ok] at hstep
  obtain ⟨_, -, personal, -, _, -, current, -, all, -, _, hsame, -⟩ := hstep
  exact hsame

theorem replayInstallation_of_free {r r' : OrgReplay} {c : StoredCommand} {signed : List KeyId}
    {p : InstallationPayload} (hc : c ∈ snap.organization.history)
    (payload : c.payload = .installationCreate p)
    (fresh : Uninstalls s p.installationId → Uninstalls t p.installationId)
    (free : ∀ id key, (id, key) ∈ snap.installed →
      Free s key (.installation id) → Free t key (.installation id))
    (valid : replayInstallation s snap r c signed p = .ok r') :
    replayInstallation t snap r c signed p = .ok r' := by
  simp only [replayInstallation, Outcome.bind_eq_ok, invalidSnapshot_eq_ok, demand_eq_ok] at valid ⊢
  obtain ⟨_, hmanage, _, hnew, release, hrelease, _, hsigned, _, hkey, _, hfresh, claimed, hclaim,
    hrest⟩ := valid
  refine ⟨(), hmanage, (), hnew, release, hrelease, (), hsigned, (), hkey, (), fresh hfresh,
    claimed, claimKey_of_free ?_ hclaim, hrest⟩
  intro hcurrent
  exact free _ _ (mem_installed hc payload hcurrent)

/-- A company whose history is accepted at one host is accepted at another that lets its
installations have all the identifiers and keys that the first one lets them have. -/
theorem validateOrganization_of_free {claimed : Owners} {replay : OrgReplay}
    (fresh : ∀ c ∈ snap.organization.history, ∀ p, c.payload = .installationCreate p →
      Uninstalls s p.installationId → Uninstalls t p.installationId)
    (free : ∀ id key, (id, key) ∈ snap.installed →
      Free s key (.installation id) → Free t key (.installation id))
    (valid : validateOrganization s snap claimed = .ok replay) :
    validateOrganization t snap claimed = .ok replay := by
  simp only [validateOrganization, Outcome.bind_eq_ok] at valid ⊢
  obtain ⟨final, hreplay, hrest⟩ := valid
  refine ⟨final, ?_, hrest⟩
  unfold replayOrganization at hreplay ⊢
  cases hhistory : snap.organization.history with
  | nil =>
    rw [hhistory] at hreplay
    cases hreplay
  | cons genesis commands =>
    rw [hhistory] at hreplay
    simp only [Outcome.bind_eq_ok] at hreplay ⊢
    obtain ⟨start, hstart, hfold⟩ := hreplay
    refine ⟨start, hstart, Outcome.foldlM_of_steps ?_ hfold⟩
    intro c hc r n hstep
    have hmem : c ∈ snap.organization.history := hhistory ▸ List.mem_cons_of_mem _ hc
    cases payload : c.payload with
    | installationCreate p =>
      simp only [replayOrganizationCommand, payload, Outcome.bind_eq_ok] at hstep ⊢
      obtain ⟨signed, hsigned, _, hfresh, next, hnext, hlast⟩ := hstep
      exact ⟨signed, hsigned, (), hfresh, next,
        replayInstallation_of_free hmem payload (fresh c hmem p payload) free hnext, hlast⟩
    | _ => simpa only [replayOrganizationCommand, payload] using hstep

/-- The installations of an accepted company have new identifiers and free keys. -/
theorem validateOrganization_free {claimed : Owners} {replay : OrgReplay}
    (valid : validateOrganization s snap claimed = .ok replay) {c : StoredCommand}
    (hc : c ∈ snap.organization.history) {p : InstallationPayload}
    (payload : c.payload = .installationCreate p) :
    Uninstalls s p.installationId ∧
      (snap.organization.installations.has p.installationId (fun inst => !inst.active) = false →
        Free s p.keyId (.installation p.installationId)) := by
  simp only [validateOrganization, Outcome.bind_eq_ok] at valid
  obtain ⟨final, hreplay, -⟩ := valid
  unfold replayOrganization at hreplay
  cases hhistory : snap.organization.history with
  | nil =>
    rw [hhistory] at hc
    cases hc
  | cons genesis commands =>
    rw [hhistory] at hreplay hc
    simp only [Outcome.bind_eq_ok] at hreplay
    obtain ⟨start, hstart, hfold⟩ := hreplay
    rcases List.mem_cons.mp hc with rfl | hlater
    · simp [replayOrganizationGenesis, payload, Outcome.bind_eq_ok] at hstart
    · obtain ⟨m, n, hstep⟩ := Outcome.foldlM_each hfold c hlater
      simp only [replayOrganizationCommand, payload, replayInstallation, Outcome.bind_eq_ok,
        demand_eq_ok] at hstep
      obtain ⟨_, -, _, -, _, ⟨_, -, _, -, _, -, _, -, _, -, _, hfresh, _, hclaim, -⟩, -⟩ := hstep
      obtain ⟨-, hfree, -⟩ := claimKey_eq_ok hclaim
      refine ⟨hfresh, fun hactive => hfree ?_⟩
      rw [hactive]
      rfl

end

section

variable {L β : Type} [DecidableEq L] (label : β → L) (digest : β → Digest)

/-- The labels of a table's values; a later value overwrites an earlier one. -/
def labels (values : List β) : Dict L Digest :=
  values.foldl (fun names v => names.set (label v) (digest v)) ∅

/-- Whether a table of labels lets a value have its label. -/
def Spares (names : Dict L Digest) (v : β) : Prop :=
  (names.get? (label v)).all (· = digest v) = true

end

/-- The checks of an import that look up the last entry of a key or of a label, or the first
copy of a person, among the entries of the destination. -/
structure OrderedChecks (host : State) (snap : Snapshot) : Prop where
  claims : ∀ key owner, (key, owner) ∈ snap.claims → Free (reservedState host snap) key owner
  acting : ∀ p ∈ snap.persons, Unforked (reservedState host snap) snap p
  profiles : ∀ p ∈ snap.profiles, Spares (fun p : Profile => p.label) Profile.digest
    (labels (fun p : Profile => p.label) Profile.digest (reservedState host snap).profiles.values) p
  releases : ∀ r ∈ snap.releases, Spares Release.label Release.digest
    (labels Release.label Release.digest (reservedState host snap).releases.values) r

/-- The identifiers of a company's installations are new at the destination. -/
def InstallationsNew (s : State) (snap : Snapshot) : Prop :=
  ∀ c ∈ snap.organization.history, ∀ p, c.payload = .installationCreate p →
    Uninstalls s p.installationId

/-- Every other check of an import: the people and the company as an empty host judges them,
and the rest at the destination, whose labels are left out. -/
structure OtherwiseJudged [Primitives] [Reducers] (host : State) (snap : Snapshot)
    (replay : OrgReplay) (claimed : Owners) (policyIds : List Uuid) (opened : Inventory) :
    Prop where
  header : validateHeader snap = .ok ()
  persons : validatePersons emptyState snap = .ok claimed
  organization : validateOrganization emptyState snap claimed = .ok replay
  installations : InstallationsNew (reservedState host snap) snap
  profiles : ∃ r, snap.profiles.foldlM (validateProfileAt (reservedState host snap) snap)
    ⟨[], ∅⟩ = .ok r
  dependencies : validateDependencies (reservedState host snap) snap = .ok ()
  policies : validatePolicies (reservedState host snap) snap = .ok policyIds
  openings : validateOpenings (reservedState host snap) snap policyIds = .ok opened
  records : validateRecords (reservedState host snap) snap replay.installations opened = .ok ()
  releases : ∃ r, snap.releases.foldlM (validateRelease (reservedState host snap) snap)
    ⟨[], ∅⟩ = .ok r
  absent : (reservedState host snap).organizations.get? snap.organization.id = none

def OtherChecks [Primitives] [Reducers] (host : State) (snap : Snapshot) : Prop :=
  ∃ replay claimed policyIds opened, OtherwiseJudged host snap replay claimed policyIds opened

section

variable {L β ρ ε : Type} [DecidableEq L] {label : β → L} {digest : β → Digest}

/-- A loop over labelled values: each has a new digest and is spared by the labels so far,
and adds its own label. -/
structure Labelling (label : β → L) (digest : β → Digest) (seen : ρ → List Digest)
    (given : ρ → Dict L Digest) (f : ρ → β → Except ε ρ) : Prop where
  fresh : ∀ m v n, f m v = .ok n → digest v ∉ seen m
  spares : ∀ m v n, f m v = .ok n → Spares label digest (given m) v
  digests : ∀ m v n, f m v = .ok n → seen n = seen m ++ [digest v]
  names : ∀ m v n, f m v = .ok n → given n = (given m).set (label v) (digest v)
  free : ∀ m v n m', f m v = .ok n → seen m' = seen m → Spares label digest (given m') v →
    ∃ n', f m' v = .ok n'

/-- The labels of a loop are those that it has added over those that it started with. -/
structure Overlays (label : β → L) (digest : β → Digest) (digests : List Digest)
    (start names names' : Dict L Digest) : Prop where
  covers : ∀ l, names.get? l = (names'.get? l).or (start.get? l)
  added : ∀ l d, names'.get? l = some d → d ∈ digests

theorem overlays_empty (label : β → L) (digest : β → Digest) (start : Dict L Digest) :
    Overlays label digest [] start start ∅ where
  covers l := by rw [Dict.get?_empty, Option.none_or]
  added l d h := by
    rw [Dict.get?_empty] at h
    cases h

variable {digests : List Digest} {start names names' : Dict L Digest}

theorem Overlays.set (h : Overlays label digest digests start names names') (v : β) :
    Overlays label digest (digests ++ [digest v]) start (names.set (label v) (digest v))
      (names'.set (label v) (digest v)) where
  covers l := by
    rw [Dict.get?_set, Dict.get?_set]
    split
    · rfl
    · exact h.covers l
  added l d hd := by
    rw [Dict.get?_set] at hd
    split at hd
    · exact List.mem_append_right _ (List.mem_singleton.mpr (Option.some.inj hd).symm)
    · exact List.mem_append_left _ (h.added l d hd)

/-- A value with a new digest is spared by all labels if the old and the added ones spare it. -/
theorem Overlays.spares_iff (h : Overlays label digest digests start names names') {v : β}
    (fresh : digest v ∉ digests) : Spares label digest names v ↔
      Spares label digest names' v ∧ Spares label digest start v := by
  have hover := h.covers (label v)
  unfold Spares
  cases hadded : names'.get? (label v) with
  | none =>
    rw [hadded, Option.none_or] at hover
    simp [hover]
  | some d =>
    have hne : d ≠ digest v := fun heq => fresh (heq ▸ h.added _ _ hadded)
    rw [hadded, Option.some_or] at hover
    simp [hover, hne]

/-- A loop that starts with labels passes exactly when it passes without them and they spare
every value. -/
theorem Labelling.foldlM_iff {seen : ρ → List Digest} {given : ρ → Dict L Digest}
    {f : ρ → β → Except ε ρ} (h : Labelling label digest seen given f) {l : List β}
    {m k : ρ} (same : seen k = seen m)
    (overlays : Overlays label digest (seen m) start (given m) (given k)) :
    (∃ n, l.foldlM f m = .ok n) ↔
      (∃ n, l.foldlM f k = .ok n) ∧ ∀ v ∈ l, Spares label digest start v := by
  induction l generalizing m k with
  | nil => simp [Outcome.pure_eq_ok]
  | cons v rest ih =>
    have hnext : ∀ n n', f m v = .ok n → f k v = .ok n' → ((∃ t, rest.foldlM f n = .ok t) ↔
        (∃ t, rest.foldlM f n' = .ok t) ∧ ∀ v ∈ rest, Spares label digest start v) := by
      intro n n' hn hn'
      refine ih ?_ ?_
      · rw [h.digests _ _ _ hn, h.digests _ _ _ hn', same]
      · rw [h.digests _ _ _ hn, h.names _ _ _ hn, h.names _ _ _ hn']
        exact overlays.set v
    simp only [List.foldlM_cons, Outcome.bind_eq_ok, List.forall_mem_cons]
    constructor
    · rintro ⟨t, n, hn, hrest⟩
      have hspares := (overlays.spares_iff (h.fresh _ _ _ hn)).mp (h.spares _ _ _ hn)
      obtain ⟨n', hn'⟩ := h.free _ _ _ k hn same hspares.1
      obtain ⟨⟨t', ht'⟩, hlater⟩ := (hnext n n' hn hn').mp ⟨t, hrest⟩
      exact ⟨⟨t', n', hn', ht'⟩, hspares.2, hlater⟩
    · rintro ⟨⟨t', n', hn', hrest⟩, hstart, hlater⟩
      have hfresh : digest v ∉ seen m := same ▸ h.fresh _ _ _ hn'
      have hspares := (overlays.spares_iff hfresh).mpr ⟨h.spares _ _ _ hn', hstart⟩
      obtain ⟨n, hn⟩ := h.free _ _ _ m hn' same.symm hspares
      obtain ⟨t, ht⟩ := (hnext n n' hn hn').mpr ⟨⟨t', hrest⟩, hlater⟩
      exact ⟨t, n, hn, ht⟩

end

section

variable [Primitives] (s : State) (snap : Snapshot)

theorem labelling_profiles : Labelling (fun p : Profile => p.label) Profile.digest
    ProfileReplay.digests ProfileReplay.names (validateProfileAt s snap) := by
  have hstep : ∀ m p n, validateProfileAt s snap m p = .ok n → p.digest ∉ m.digests ∧
      Spares (fun p : Profile => p.label) Profile.digest m.names p ∧
      n = ⟨m.digests ++ [p.digest], m.names.set p.label p.digest⟩ := by
    intro m p n h
    simp only [validateProfileAt, Outcome.bind_eq_ok, invalidSnapshot_eq_ok, demand_eq_ok,
      Outcome.pure_eq_ok] at h
    obtain ⟨_, hfresh, _, -, _, -, _, hlabel, _, -, rfl⟩ := h
    exact ⟨hfresh, hlabel, rfl⟩
  constructor
  · exact fun m p n h => (hstep m p n h).1
  · exact fun m p n h => (hstep m p n h).2.1
  · intro m p n h
    rw [(hstep m p n h).2.2]
  · intro m p n h
    rw [(hstep m p n h).2.2]
  · intro m p n m' h same hspares
    simp only [validateProfileAt, Outcome.bind_eq_ok, invalidSnapshot_eq_ok, demand_eq_ok,
      Outcome.pure_eq_ok, same] at h ⊢
    obtain ⟨_, hfresh, _, hshape, _, hprovenance, _, -, _, hsame, -⟩ := h
    exact ⟨_, (), hfresh, (), hshape, (), hprovenance, (), hspares, (), hsame, rfl⟩

theorem labelling_releases : Labelling Release.label Release.digest ReleaseReplay.digests
    ReleaseReplay.names (validateRelease s snap) := by
  have hstep : ∀ m r n, validateRelease s snap m r = .ok n → r.digest ∉ m.digests ∧
      Spares Release.label Release.digest m.names r ∧
      n = ⟨m.digests ++ [r.digest], m.names.set r.label r.digest⟩ := by
    intro m r n h
    simp only [validateRelease, Outcome.bind_eq_ok, invalidSnapshot_eq_ok, demand_eq_ok,
      Outcome.pure_eq_ok] at h
    obtain ⟨_, hfresh, _, -, _, -, _, -, _, -, _, -, _, -, _, -, _, -, _, hlabel, _, -, _, -,
      rfl⟩ := h
    exact ⟨hfresh, hlabel, rfl⟩
  constructor
  · exact fun m r n h => (hstep m r n h).1
  · exact fun m r n h => (hstep m r n h).2.1
  · intro m r n h
    rw [(hstep m r n h).2.2]
  · intro m r n h
    rw [(hstep m r n h).2.2]
  · intro m r n m' h same hspares
    simp only [validateRelease, Outcome.bind_eq_ok, invalidSnapshot_eq_ok, demand_eq_ok,
      Outcome.pure_eq_ok, same] at h ⊢
    obtain ⟨_, hfresh, proofs, hproofs, payload, hpayload, _, hactor, _, hdigest, _, hactions, _,
      hassessment, _, howned, _, hsigned, _, -, _, hprofiles, _, hsame, -⟩ := h
    exact ⟨_, (), hfresh, proofs, hproofs, payload, hpayload, (), hactor, (), hdigest, (),
      hactions, (), hassessment, (), howned, (), hsigned, (), hspares, (), hprofiles, (), hsame,
      rfl⟩

theorem validateProfiles_iff : validateProfiles s snap = .ok () ↔
    (∃ r, snap.profiles.foldlM (validateProfileAt s snap) ⟨[], ∅⟩ = .ok r) ∧
      ∀ p ∈ snap.profiles, Spares (fun p : Profile => p.label) Profile.digest
        (labels (fun p : Profile => p.label) Profile.digest s.profiles.values) p := by
  rw [← (labelling_profiles s snap).foldlM_iff (m := ⟨[], labels _ _ s.profiles.values⟩)
    (k := ⟨[], ∅⟩) rfl (overlays_empty _ _ _)]
  simp only [validateProfiles, Outcome.bind_eq_ok]
  exact exists_congr fun r => and_iff_left rfl

theorem validateReleases_iff : validateReleases s snap = .ok () ↔
    (∃ r, snap.releases.foldlM (validateRelease s snap) ⟨[], ∅⟩ = .ok r) ∧
      ∀ r ∈ snap.releases, Spares Release.label Release.digest
        (labels Release.label Release.digest s.releases.values) r := by
  rw [← (labelling_releases s snap).foldlM_iff (m := ⟨[], labels _ _ s.releases.values⟩)
    (k := ⟨[], ∅⟩) rfl (overlays_empty _ _ _)]
  simp only [validateReleases, Outcome.bind_eq_ok]
  exact exists_congr fun r => and_iff_left rfl

/-- An import accepts exactly when the checks pass that an order can decide, and all others. -/
theorem validateSnapshot_iff_ordered [Reducers] : validateSnapshot s snap = .ok () ↔
    OtherChecks s snap ∧ OrderedChecks s snap := by
  rw [validateSnapshot_eq_ok]
  constructor
  · rintro ⟨replay, claimed, policyIds, opened, h⟩
    have hpeople := validatePersons_eq_ok h.persons
    obtain ⟨hprofiles, hlabels⟩ := (validateProfiles_iff _ snap).mp h.profiles
    obtain ⟨hreleases, hversions⟩ := (validateReleases_iff _ snap).mp h.releases
    refine ⟨⟨replay, claimed, policyIds, opened, h.header, ?_, ?_, ?_, hprofiles, h.dependencies,
      h.policies, h.openings, h.records, hreleases, h.absent⟩, ?_, ?_, hlabels, hversions⟩
    · exact validatePersons_of_free (fun _ _ _ _ _ => rfl) (fun _ _ _ => .inl rfl) h.persons
    · refine validateOrganization_of_free ?_ (fun _ _ _ _ => rfl) h.organization
      intro _ _ _ _ _ _ horg
      cases horg
    · exact fun c hc p payload => (validateOrganization_free h.organization hc payload).1
    · intro key owner hclaim
      rcases List.mem_append.mp hclaim with hperson | hinstalled
      · obtain ⟨p, hp, hmem⟩ := List.mem_flatMap.mp hperson
        obtain ⟨key', hkey, heq⟩ := List.mem_map.mp hmem
        obtain ⟨rfl, rfl⟩ := Prod.mk.inj heq
        exact hpeople.free p hp key' hkey
      · obtain ⟨⟨id, key'⟩, hmem, heq⟩ := List.mem_map.mp hinstalled
        obtain ⟨rfl, rfl⟩ := Prod.mk.inj heq
        obtain ⟨c, hc, p, payload, hactive, rfl, rfl⟩ := installed_of_mem hmem
        exact (validateOrganization_free h.organization hc payload).2 hactive
    · exact fun p hp => validatePersons_unforked h.persons hp
  · rintro ⟨⟨replay, claimed, policyIds, opened, h⟩, hordered⟩
    refine ⟨replay, claimed, policyIds, opened, h.header, ?_, ?_,
      (validateProfiles_iff _ snap).mpr ⟨h.profiles, hordered.profiles⟩, h.dependencies, h.policies,
      h.openings, h.records, (validateReleases_iff _ snap).mpr ⟨h.releases, hordered.releases⟩,
      h.absent⟩
    · exact validatePersons_of_free (fun p hp key hkey _ =>
        hordered.claims key _ (Snapshot.claims_person hp hkey)) (fun p hp _ => hordered.acting p hp)
        h.persons
    · exact validateOrganization_of_free (fun c hc p payload _ => h.installations c hc p payload)
        (fun id key hmem _ => hordered.claims key _ (Snapshot.claims_installation hmem))
        h.organization

end

section

variable {s t : State} {snap : Snapshot}

/-- What the checks of an import need to know of two hosts. -/
structure Reorders (s t : State) (snap : Snapshot) : Prop where
  same : SameTables s t
  agree : StagesAgree s snap
  named : s.persons.Named Person.id

variable (h : Reorders s t snap)

include h

theorem Reorders.namedThere : t.persons.Named Person.id := by
  intro id p hp
  rw [h.same.persons] at hp
  exact h.named id p hp

theorem Reorders.reserved : SameReserved (reservedState s snap) (reservedState t snap) :=
  h.same.sameReserved h.agree

theorem Reorders.candidate :
    candidateProfile (reservedState t snap) snap =
      candidateProfile (reservedState s snap) snap := by
  funext d
  unfold candidateProfile
  rw [h.reserved.profiles d]

theorem Reorders.validateDependencies [Primitives] :
    DirectTrade.validateDependencies (reservedState t snap) snap =
      DirectTrade.validateDependencies (reservedState s snap) snap := by
  have hperm := h.reserved.profiles.values_perm
  have hfuel : walkFuel (reservedState t snap) snap = walkFuel (reservedState s snap) snap := by
    have hsum := ((hperm.append_left snap.profiles).map fun p => p.dependencies.length + 1).sum_eq
    unfold walkFuel
    rw [hsum]
  simp only [DirectTrade.validateDependencies, hfuel, h.candidate]

theorem Reorders.validatePolicies [Primitives] :
    DirectTrade.validatePolicies (reservedState t snap) snap =
      DirectTrade.validatePolicies (reservedState s snap) snap := by
  have hpolicy : validatePolicy (reservedState t snap) snap =
      validatePolicy (reservedState s snap) snap := by
    funext policyIds p
    simp only [validatePolicy, h.reserved.policies p.id]
  simp only [DirectTrade.validatePolicies, hpolicy]

theorem Reorders.validateOpenings [Primitives] [Reducers] (policyIds : List Uuid) :
    DirectTrade.validateOpenings (reservedState t snap) snap policyIds =
      DirectTrade.validateOpenings (reservedState s snap) snap policyIds := by
  have hopening : replayOpening (reservedState t snap) snap policyIds =
      replayOpening (reservedState s snap) snap policyIds := by
    funext rebuilt entry
    simp only [replayOpening, h.candidate]
  have hledger : replayFlowLedger (reservedState t snap) snap =
      replayFlowLedger (reservedState s snap) snap := by
    funext rebuilt entry
    simp only [replayFlowLedger, replayLedger, h.candidate]
  simp only [DirectTrade.validateOpenings, hopening, hledger]

theorem Reorders.validateRecords [Primitives] [Reducers] (installations : Table Uuid Installation)
    (opened : Inventory) :
    DirectTrade.validateRecords (reservedState t snap) snap installations opened =
      DirectTrade.validateRecords (reservedState s snap) snap installations opened := by
  have hprior : priorRecord (reservedState t snap) snap =
      priorRecord (reservedState s snap) snap := by
    funext r
    unfold priorRecord
    simp only [h.reserved.records _]
  have hbusiness : replayBusiness (reservedState t snap) snap =
      replayBusiness (reservedState s snap) snap := by
    funext replay r semantics
    cases semantics <;> simp only [replayBusiness, replayParty, revisionRule, chainRule, hprior]
  have hrecord : replayRecord (reservedState t snap) snap installations =
      replayRecord (reservedState s snap) snap installations := by
    funext replay r
    simp only [replayRecord, h.candidate, h.reserved.records r.id, hbusiness]
  simp only [DirectTrade.validateRecords, hrecord]

theorem Reorders.validateProfileAt [Primitives] :
    DirectTrade.validateProfileAt (reservedState t snap) snap =
      DirectTrade.validateProfileAt (reservedState s snap) snap := by
  funext r p
  simp only [DirectTrade.validateProfileAt, h.candidate, h.reserved.profiles p.digest]

theorem Reorders.validateRelease [Primitives] {m n : ReleaseReplay} {r : Release}
    (valid : validateRelease (reservedState s snap) snap m r = .ok n) :
    DirectTrade.validateRelease (reservedState t snap) snap m r = .ok n := by
  simpa only [DirectTrade.validateRelease, Outcome.bind_eq_ok, invalidSnapshot_eq_ok,
    demand_eq_ok, h.candidate, h.reserved.releases r.digest, h.reserved.releases.mem_values]
    using valid

theorem Reorders.otherChecks [Primitives] [Reducers] (checks : OtherChecks s snap) :
    OtherChecks t snap := by
  obtain ⟨replay, claimed, policyIds, opened, judged⟩ := checks
  refine ⟨replay, claimed, policyIds, opened, ?_⟩
  constructor
  · exact judged.header
  · exact judged.persons
  · exact judged.organization
  · intro c hc p payload org horg
    exact judged.installations c hc p payload org (h.reserved.organizations.mem_values.mp horg)
  · rw [h.validateProfileAt]
    exact judged.profiles
  · rw [h.validateDependencies]
    exact judged.dependencies
  · rw [h.validatePolicies]
    exact judged.policies
  · rw [h.validateOpenings]
    exact judged.openings
  · rw [h.validateRecords]
    exact judged.records
  · obtain ⟨r, hfold⟩ := judged.releases
    exact ⟨r, Outcome.foldlM_of_steps (fun _ _ _ _ hstep => h.validateRelease hstep) hfold⟩
  · rw [h.reserved.organizations]
    exact judged.absent

end

section

variable {L β : Type} [DecidableEq L] {label : β → L} {digest : β → Digest}

/-- Labels filled in from two enumerations of the same values: of two values with the label of
a carried one, both are the carried one or neither is. -/
theorem spares_of_same {carried values values' : List β} (same : ∀ v, v ∈ values' ↔ v ∈ values)
    (alone : ∀ p ∈ carried, ∀ q ∈ values, ∀ r ∈ values, label q = label p →
      label r = label p → digest q = digest p → digest r = digest p) :
    ∀ p ∈ carried, Spares label digest (labels label digest values) p →
      Spares label digest (labels label digest values') p := by
  have hpairs : ∀ l : List β, l.foldl (fun names v => names.set (label v) (digest v)) ∅ =
      (l.map fun v => (label v, digest v)).foldl (fun (d : Dict L Digest) e => d.set e.1 e.2) ∅ :=
    fun l => by rw [List.foldl_map]
  have hentry : ∀ (l : List β) (a : L) (d : Digest),
      (a, d) ∈ l.map (fun v => (label v, digest v)) ↔ ∃ v ∈ l, label v = a ∧ digest v = d :=
    fun l a d => by simp only [List.mem_map, Prod.mk.injEq]
  intro p hp hspares
  unfold Spares labels at hspares ⊢
  rw [hpairs] at hspares ⊢
  rcases Dict.get?_foldl_pairs_cases (values'.map fun v => (label v, digest v)) ∅ (label p) with
    ⟨d, hd, hget⟩ | ⟨hnone, hget⟩
  · obtain ⟨r, hr, hlabel, rfl⟩ := (hentry _ _ _).mp hd
    have hr : r ∈ values := (same r).mp hr
    rcases Dict.get?_foldl_pairs_cases (values.map fun v => (label v, digest v)) ∅ (label p) with
      ⟨e, he, hget'⟩ | ⟨hnone, -⟩
    · obtain ⟨q, hq, hlabel', rfl⟩ := (hentry _ _ _).mp he
      rw [hget'] at hspares
      have hdigest : digest q = digest p := of_decide_eq_true hspares
      rw [hget]
      exact decide_eq_true (alone p hp q hq r hr hlabel' hlabel hdigest)
    · exact absurd ((hentry _ _ _).mpr ⟨r, hr, hlabel, rfl⟩) (hnone _)
  · rw [hget]
    rfl

end

/-- Where nothing is mixed, no order decides anything. -/
theorem Reorders.orderedChecks {s t : State} {snap : Snapshot} (h : Reorders s t snap)
    (unmixed : Unmixed s snap) (checks : OrderedChecks s snap) : OrderedChecks t snap where
  claims key owner hclaim := by
    have hfree := checks.claims key owner hclaim
    rcases List.mem_append.mp hclaim with hperson | hinstalled
    · obtain ⟨p, hp, hmem⟩ := List.mem_flatMap.mp hperson
      obtain ⟨key', hkey, heq⟩ := List.mem_map.mp hmem
      obtain ⟨rfl, rfl⟩ := Prod.mk.inj heq
      exact free_person h.same h.reserved h.named h.namedThere unmixed hp hkey hfree
    · obtain ⟨⟨id, key'⟩, hmem, heq⟩ := List.mem_map.mp hinstalled
      obtain ⟨rfl, rfl⟩ := Prod.mk.inj heq
      exact free_installation h.same h.reserved h.named h.namedThere unmixed hmem hfree
  acting p hp := diverges_same h.same h.named h.namedThere unmixed hp (checks.acting p hp)
  profiles p hp := spares_of_same (fun _ => h.reserved.profiles.mem_values) unmixed.profiles p hp
    (checks.profiles p hp)
  releases r hr := spares_of_same (fun _ => h.reserved.releases.mem_values) unmixed.releases r hr
    (checks.releases r hr)

theorem Found.same {s t : State} (h : SameTables s t) {snap : Snapshot} {q : Person} :
    Found t snap q ↔ Found s snap q :=
  ⟨Found.of_same h, Found.of_same h.symm⟩

theorem Unmixed.of_same {s t : State} {snap : Snapshot} (h : SameTables s t)
    (same : SameReserved (reservedState s snap) (reservedState t snap))
    (unmixed : Unmixed s snap) : Unmixed t snap := by
  have hbound : ∀ e, e ∈ installationBindings (reservedState t snap) ↔
      e ∈ installationBindings (reservedState s snap) :=
    installationBindings_same same.organizations
  constructor
  · intro key owner claimed uninstalled q r hq hr hid hother hheld
    exact unmixed.copies key owner claimed
      (fun o ho => uninstalled o ((hbound _).mpr ho)) q r ((Found.same h).mp hq)
      ((Found.same h).mp hr) hid hother hheld
  · intro p hp hcurrent q r hq hr
    exact unmixed.acting p hp hcurrent q r ((Found.same h).mp hq) ((Found.same h).mp hr)
  · intro p hp key hkey uninstalled q r hq hr
    exact unmixed.people p hp key hkey (fun o ho => uninstalled o ((hbound _).mpr ho)) q r
      ((Found.same h).mp hq) ((Found.same h).mp hr)
  · intro id key hkey i j hi hj
    exact unmixed.installations id key hkey i j ((hbound _).mp hi) ((hbound _).mp hj)
  · intro p hp q hq r hr
    exact unmixed.profiles p hp q (same.profiles.mem_values.mp hq) r
      (same.profiles.mem_values.mp hr)
  · intro p hp q hq r hr
    exact unmixed.releases p hp q (same.releases.mem_values.mp hq) r
      (same.releases.mem_values.mp hr)

theorem StagesAgree.of_same {s t : State} {snap : Snapshot} (h : SameTables s t)
    (agree : StagesAgree s snap) : StagesAgree t snap where
  organizations := Reservation.Agree.of_same h h.organizations agree.organizations
  policies := Reservation.Agree.of_same h h.policies agree.policies
  profiles := Reservation.Agree.of_same h h.profiles agree.profiles
  releases := Reservation.Agree.of_same h h.releases agree.releases
  records := Reservation.Agree.of_same h h.records agree.records

theorem Reorders.symm {s t : State} {snap : Snapshot} (h : Reorders s t snap) :
    Reorders t s snap where
  same := h.same.symm
  agree := h.agree.of_same h.same
  named := h.namedThere

/-- The verdicts of an import at a reachable host and at a host that has its tables in another
order are the same exactly when the snapshot fails a check that no order decides, or both
orders pass those that an order decides or neither does; and they do where nothing is mixed
that the import decides by. -/
theorem import_order_free [Primitives] [Reducers] {s t : State} {snap : Snapshot}
    (reached : Reachable s) (same : SameTables s t) :
    ((validateSnapshot s snap = .ok () ↔ validateSnapshot t snap = .ok ()) ↔
      (OtherChecks s snap → (OrderedChecks s snap ↔ OrderedChecks t snap))) ∧
    (Unmixed s snap → (OrderedChecks s snap ↔ OrderedChecks t snap)) := by
  have h : Reorders s t snap := ⟨same, reached.stagesAgree snap, reached.keyed.persons⟩
  have hother : OtherChecks t snap ↔ OtherChecks s snap :=
    ⟨h.symm.otherChecks, h.otherChecks⟩
  constructor
  · rw [validateSnapshot_iff_ordered, validateSnapshot_iff_ordered, hother]
    exact and_congr_right_iff
  · intro unmixed
    exact ⟨h.orderedChecks unmixed,
      h.symm.orderedChecks (unmixed.of_same same h.reserved)⟩

/-- The same host with its people in the opposite order. -/
def State.reversed (s : State) : State :=
  { s with
    persons := s.persons.reordered s.persons.entries.reverse
      (List.reverse_perm s.persons.entries).symm }

theorem sameTables_reversed (s : State) : SameTables s s.reversed where
  persons := Dict.same_reordered _ (List.reverse_perm s.persons.entries).symm
  organizations := .refl _
  policies := .refl _
  profiles := .refl _
  releases := .refl _
  records := .refl _
  incoming := .refl _

/-- The people that an import may find, listed. -/
def foundPeople (s : State) (snap : Snapshot) : List Person :=
  s.persons.values ++ Reservation.persons.others s snap

theorem Found.listed {s : State} {snap : Snapshot} {q : Person} (h : Found s snap q) :
    q ∈ foundPeople s snap := by
  cases h with
  | inl hhost => exact List.mem_append_left _ (Dict.mem_values_of_get? hhost)
  | inr hother => exact List.mem_append_right _ hother.2

/-- The person 10 comes to host `b` with the retired key 11, under which the person 20 acts
there; the other company still has the key 11 as a current key of the person 10. Once the first
company is taken over, the other one is accepted with the people in the order in which they
came, and refused with them in the opposite order. -/
theorem current_verdicts :
    letI := twoSources
    letI := sampleReducers
    let s := finalState (run emptyState (bothReady ++ [finishRetired]))
    validateSnapshot s currentSnapshot = .ok () ∧
      validateSnapshot s.reversed currentSnapshot ≠ .ok () := by
  let := twoSources
  let := sampleReducers
  constructor
  · have haccepted : (validateSnapshot (finalState (run emptyState
        (bothReady ++ [finishRetired]))) currentSnapshot).toBool = true := by
      decide +kernel
    cases hverdict : validateSnapshot (finalState (run emptyState
        (bothReady ++ [finishRetired]))) currentSnapshot with
    | ok u => rfl
    | error e =>
      rw [hverdict] at haccepted
      cases haccepted
  · have hrefused : (validateSnapshot (finalState (run emptyState
        (bothReady ++ [finishRetired]))).reversed currentSnapshot).toBool = false := by
      decide +kernel
    intro haccepted
    rw [haccepted] at hrefused
    cases hrefused

/-- While both companies are ready, no order of the people decides over the one in which the
person 10 has retired the key 11. Once that company is taken over, the order is all that
decides over the other one. -/
theorem import_order_free_sample :
    letI := twoSources
    letI := sampleReducers
    let s := finalState (run emptyState bothReady)
    let t := finalState (run emptyState (bothReady ++ [finishRetired]))
    (validateSnapshot s retiredSnapshot = .ok () ↔
        validateSnapshot s.reversed retiredSnapshot = .ok ()) ∧
      OtherChecks t currentSnapshot ∧
      ¬ (OrderedChecks t currentSnapshot ↔ OrderedChecks t.reversed currentSnapshot) := by
  let := twoSources
  let := sampleReducers
  have hreached : Reachable (finalState (run emptyState bothReady)) :=
    Reachable.finalState (by decide)
  have hcopies : ∀ e ∈ retiredSnapshot.claims,
      ∀ q ∈ foundPeople (finalState (run emptyState bothReady)) retiredSnapshot,
      ∀ r ∈ foundPeople (finalState (run emptyState bothReady)) retiredSnapshot,
        q.id = r.id → e.2 ≠ .person q.id → e.1 ∈ q.held → e.1 ∈ r.held := by
    decide
  have hacting : ∀ p ∈ retiredSnapshot.persons,
      currentPerson retiredSnapshot.organization p.id = true →
      ∀ q ∈ foundPeople (finalState (run emptyState bothReady)) retiredSnapshot,
      ∀ r ∈ foundPeople (finalState (run emptyState bothReady)) retiredSnapshot,
        q.id = p.id → r.id = p.id → sameKeys q p = true → sameKeys r p = true := by
    decide
  have hpeople : ∀ p ∈ retiredSnapshot.persons, ∀ key ∈ p.keys,
      ∀ q ∈ foundPeople (finalState (run emptyState bothReady)) retiredSnapshot,
      ∀ r ∈ foundPeople (finalState (run emptyState bothReady)) retiredSnapshot,
        key ∈ q.held → key ∈ r.held → q.id = p.id → r.id = p.id := by
    decide
  have hnothing : retiredSnapshot.installed = [] ∧ retiredSnapshot.profiles = [] ∧
      retiredSnapshot.releases = [] := by
    decide
  have hunmixed : Unmixed (finalState (run emptyState bothReady)) retiredSnapshot := by
    constructor
    · intro key owner claimed _ q r hq hr
      exact hcopies (key, owner) claimed q hq.listed r hr.listed
    · intro p hp hcurrent q r hq hr
      exact hacting p hp hcurrent q hq.listed r hr.listed
    · intro p hp key hkey _ q r hq hr
      exact hpeople p hp key hkey q hq.listed r hr.listed
    · intro id key hkey
      rw [hnothing.1] at hkey
      exact nomatch hkey
    · intro p hp
      rw [hnothing.2.1] at hp
      exact nomatch hp
    · intro p hp
      rw [hnothing.2.2] at hp
      exact nomatch hp
  have hfree := @import_order_free _ _ _ _ retiredSnapshot hreached
    (sameTables_reversed (finalState (run emptyState bothReady)))
  refine ⟨hfree.1.mpr fun _ => hfree.2 hunmixed, ?_⟩
  have hlater : Reachable (finalState (run emptyState (bothReady ++ [finishRetired]))) :=
    Reachable.finalState (by decide)
  have hdiffer : ¬ (validateSnapshot (finalState (run emptyState
        (bothReady ++ [finishRetired]))) currentSnapshot = .ok () ↔
      validateSnapshot (finalState (run emptyState
        (bothReady ++ [finishRetired]))).reversed currentSnapshot = .ok ()) := fun h =>
    current_verdicts.2 (h.mp current_verdicts.1)
  rw [(import_order_free hlater (sameTables_reversed _)).1] at hdiffer
  exact Classical.not_imp.mp hdiffer

/-- An accepted snapshot is refused at the same host with its people in another order. -/
theorem import_depends_on_order :
    letI := twoSources
    letI := sampleReducers
    ∃ s t : State, Reachable s ∧ SameTables s t ∧
      validateSnapshot s currentSnapshot = .ok () ∧
      validateSnapshot t currentSnapshot ≠ .ok () := by
  let := twoSources
  let := sampleReducers
  exact ⟨finalState (run emptyState (bothReady ++ [finishRetired])),
    (finalState (run emptyState (bothReady ++ [finishRetired]))).reversed,
    Reachable.finalState (by decide), sameTables_reversed _, current_verdicts.1,
    current_verdicts.2⟩

end DirectTrade
