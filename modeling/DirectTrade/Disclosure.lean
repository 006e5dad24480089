import DirectTrade.Stages
import DirectTrade.Independence

/-!
Disclosure from one host to another. What a host stores under signed commands is what a
recipient inspects: every stored profile and record repeats the fields that its command signs.
The two halves meet there. The issuer's tables consist of such entries only, and a disclosure
of such entries, with all the profiles that its profiles depend on, passes the inspection.
-/

namespace DirectTrade

open Library

variable [Primitives]

/-- A profile that passes inspection where its dependencies are. -/
def Attested (p : Profile) : Prop := inspectProfile (fun _ => some p) p = .ok ()

/-- A record that repeats its signed payload, under a contract of its digest that its body
satisfies. -/
structure Evident [Reducers] (r : BusinessRecord) : Prop where
  verified : ∃ signed, verifyStored r.command = .ok signed
  payload : r.command.payload = .recordAppend r.toRecordPayload
  organization : r.command.organizationId = some r.organizationId
  contract : ∃ contract : ProfileContract,
    Primitives.digestContract contract = r.profileDigest ∧
      validateShape contract.schema r.body = true ∧
      (contract.semantics = .invoiceV1 →
        (Reducers.validateInvoice r.body fun _ _ => .unknown).valid = true)

theorem verifyStored_keep {c : Command} {audience : String} {now : Instant}
    {signed : List KeyId} {m : Mutation} (payload : c.payload = .mutation m)
    (valid : validateCommand c audience now = .ok ()) (verified : verifyCommand c = .ok signed) :
    verifyStored (c.keep m) = .ok signed := by
  have hsame : (c.keep m).signedForm = c := CommandOf.signedForm_keep c m payload
  simp only [validateCommand, Outcome.bind_eq_ok, demand_eq_ok] at valid
  obtain ⟨_, hconforms, _, -, _, hkey, _, ⟨-, -, hlater, hwindow⟩, hnul⟩ := valid
  have hstart : c.issuedAt ≤ c.issuedAt + 30000 := Int.le_add_of_nonneg_right (by decide)
  have hstored : validateCommand c c.audience c.issuedAt = .ok () := by
    simp only [validateCommand, Outcome.bind_eq_ok, demand_eq_ok]
    exact ⟨(), hconforms, (), trivial, (), hkey, (), ⟨hstart, hlater, hlater, hwindow⟩, hnul⟩
  simp only [verifyStored, hsame, Outcome.bind_eq_ok]
  exact ⟨(), hstored, verified⟩

/-- The dependencies of a profile matter to its inspection by being there only. -/
theorem inspectProfile_of_dependencies {f g : Digest → Option Profile} {p : Profile}
    (h : inspectProfile f p = .ok ()) (there : ∀ d ∈ p.dependencies, (g d).isSome = true) :
    inspectProfile g p = .ok () := by
  simp only [inspectProfile, validateProfile, Outcome.bind_eq_ok, demand_eq_ok] at h ⊢
  obtain ⟨_, ⟨_, hschema, _, hname, _, ⟨hsize, hdistinct, -⟩, hdigest⟩, hrest⟩ := h
  exact ⟨(), ⟨(), hschema, (), hname, (), ⟨hsize, hdistinct, there⟩, hdigest⟩, hrest⟩

theorem Attested.of_inspected {f : Digest → Option Profile} {p : Profile}
    (h : inspectProfile f p = .ok ()) : Attested p :=
  inspectProfile_of_dependencies h fun _ _ => rfl

theorem Attested.digest {p : Profile} (h : Attested p) :
    p.digest = Primitives.digestContract p.toProfileContract := by
  simp only [Attested, inspectProfile, validateProfile, Outcome.bind_eq_ok, demand_eq_ok] at h
  obtain ⟨_, ⟨_, -, _, -, _, -, hdigest⟩, -⟩ := h
  exact hdigest

/-- A profile that an import accepts repeats what was signed. -/
theorem attested_of_valid {s : State} {snap : Snapshot} {u : Unit}
    (h : validateProfiles s snap = .ok u) {p : Profile} (hp : p ∈ snap.profiles) :
    Attested p := by
  simp only [validateProfiles, Outcome.bind_eq_ok] at h
  obtain ⟨_, hfold, -⟩ := h
  obtain ⟨_, _, hstep⟩ := Outcome.foldlM_each hfold p hp
  simp only [validateProfileAt, Outcome.bind_eq_ok] at hstep
  obtain ⟨_, -, _, hshape, _, hprovenance, -⟩ := hstep
  apply Attested.of_inspected (f := candidateProfile s snap)
  simp only [inspectProfile, Outcome.bind_eq_ok, demand_eq_ok]
  refine ⟨(), hshape, (), ?_⟩
  unfold profileProvenance at hprovenance
  cases hpublisher : p.publisherId with
  | dtp =>
    simp only [hpublisher, Outcome.bind_eq_ok, invalidSnapshot_eq_ok] at hprovenance
    obtain ⟨signed, hverified, hlabel, hvisible, hreaders, hpayload⟩ := hprovenance
    exact ⟨hlabel, signed, hverified, (demand_eq_ok _ _ _ _ _).mpr ⟨hpayload, hvisible, hreaders⟩⟩
  | organization publisherId =>
    simp only [hpublisher, historicalPerson, Outcome.bind_eq_ok, invalidSnapshot_eq_ok,
      require_eq_ok, Outcome.pure_eq_ok] at hprovenance
    obtain ⟨_, ⟨signed, hverified, _, hcontext, -⟩, _, -, _, hlabel, published, hpublished, _, -,
      hsame⟩ := hprovenance
    have hpayload : p.command.payload = .profilePublish p.publication := by
      rw [← hsame]
      cases hcommand : p.command.payload with
      | profilePublish profile =>
        rw [hcommand] at hpublished
        exact congrArg _ (Option.some.inj hpublished)
      | _ =>
        rw [hcommand] at hpublished
        exact nomatch hpublished
    exact ⟨hlabel, signed, hverified, (demand_eq_ok _ _ _ _ _).mpr ⟨hcontext.2.1, hpayload⟩⟩

variable [Reducers]

omit [Primitives] [Reducers] in
/-- A new number or a lost head changes nothing that was signed. -/
theorem Evident.of_same [Primitives] [Reducers] {r r' : BusinessRecord} (h : Evident r)
    (command : r'.command = r.command) (payload : r'.toRecordPayload = r.toRecordPayload) :
    Evident r' where
  verified := by
    rw [command]
    exact h.verified
  payload := by
    rw [command, payload]
    exact h.payload
  organization := by
    have horg : r'.organizationId = r.organizationId :=
      congrArg RecordPayload.organizationId payload
    rw [command, horg]
    exact h.organization
  contract := by
    have hdigest : r'.profileDigest = r.profileDigest :=
      congrArg RecordPayload.profileDigest payload
    have hbody : r'.body = r.body := congrArg RecordPayload.body payload
    rw [hdigest, hbody]
    exact h.contract

/-- A record that an import accepts repeats what was signed, where the contracts that it can use
do. -/
theorem evident_of_valid {s : State} {snap : Snapshot} {installations : Table Uuid Installation}
    {opened : Inventory} {u : Unit} (h : validateRecords s snap installations opened = .ok u)
    (contracts : ∀ d p, candidateProfile s snap d = some p →
      Primitives.digestContract p.toProfileContract = d)
    {r : BusinessRecord} (hr : r ∈ snap.records) : Evident r := by
  simp only [validateRecords, Outcome.bind_eq_ok] at h
  obtain ⟨_, hfold, -⟩ := h
  obtain ⟨_, _, hstep⟩ := Outcome.foldlM_each hfold r hr
  simp only [replayRecord, Outcome.bind_eq_ok, invalidSnapshot_eq_ok, require_eq_ok] at hstep
  obtain ⟨_, -, profile, hprofile, signed, hverified, _, -, _, ⟨-, -, horg⟩, _, -, _, hshape, _,
    hpayload, ⟨expected, replay⟩, hbusiness, -⟩ := hstep
  refine ⟨⟨signed, hverified⟩, hpayload, horg, profile.toProfileContract, contracts _ _ hprofile,
    hshape, ?_⟩
  intro hsemantics
  rw [hsemantics] at hbusiness
  simp only [replayBusiness, Outcome.bind_eq_ok, invalidSnapshot_eq_ok] at hbusiness
  obtain ⟨_, -, _, hinvoice, -⟩ := hbusiness
  exact hinvoice

/-- Every record and profile of a host, and every profile that a ready stage carries, repeats
what was signed. -/
structure Evidenced (s : State) : Prop where
  records : ∀ id r, s.records.get? id = some r → Evident r
  profiles : ∀ d p, s.profiles.get? d = some p → Attested p
  stages : ∀ i a snap, s.incoming.get? i = some a → a.ready? = some snap →
    ∀ p ∈ snap.profiles, Attested p

theorem evidenced_empty : Evidenced emptyState := by
  constructor
  · intro id r hr
    exact nomatch hr
  · intro d p hp
    exact nomatch hp
  · intro i a snap ha
    exact nomatch ha

theorem Evidenced.candidate {s : State} (h : Evidenced s) (keyed : Keyed s) {snap : Snapshot}
    {claimed : Unit} (valid : validateProfiles (reservedState s snap) snap = .ok claimed)
    {d : Digest} {p : Profile} (hp : candidateProfile (reservedState s snap) snap d = some p) :
    Primitives.digestContract p.toProfileContract = d := by
  unfold candidateProfile at hp
  rcases Option.or_eq_some_iff.mp hp with hcarried | ⟨-, hstored⟩
  · have hdigest : p.digest = d := by simpa using List.find?_some hcarried
    rw [← hdigest]
    exact (attested_of_valid valid (List.mem_of_find?_eq_some hcarried)).digest.symm
  · have hget := Reservation.profiles.get?_reservedState s snap d
    have hstored : (Reservation.profiles.table (reservedState s snap)).get? d = some p := hstored
    rw [hstored] at hget
    rcases Option.or_eq_some_iff.mp hget.symm with hhost | ⟨-, hother⟩
    · have hdigest : p.digest = d := keyed.profiles d p hhost
      rw [← hdigest]
      exact (h.profiles d p hhost).digest.symm
    · have hfound := List.find?_some hother
      have hdigest : p.digest = d := of_decide_eq_true hfound
      obtain ⟨x, hx, hp⟩ := List.mem_flatMap.mp (List.mem_of_find?_eq_some hother)
      obtain ⟨i, a, ha, -, hready⟩ := mem_reservedSnapshots.mp hx
      rw [← hdigest]
      exact (h.stages i a x ha hready p hp).digest.symm

/-- The tables of a host with an accepted snapshot taken over. -/
theorem Evidenced.takeOver {s : State} (h : Evidenced s) (keyed : Keyed s) {snap : Snapshot}
    (valid : validateSnapshot s snap = .ok ()) :
    (∀ id r, (takeOver s snap).records.get? id = some r → Evident r) ∧
      ∀ d p, (takeOver s snap).profiles.get? d = some p → Attested p := by
  obtain ⟨_, _, _, _, validated⟩ := (validateSnapshot_eq_ok s snap ()).mp valid
  constructor
  · intro id r hr
    rcases takeOver_cases hr with ⟨i, old, hold, -, rfl⟩ | hold
    · have hevident := evident_of_valid validated.records
        (fun d p hp => h.candidate keyed validated.profiles hp) (List.mem_of_getElem? hold)
      exact hevident.of_same rfl rfl
    · exact h.records id r hold
  · intro d p hp
    have hget := (Dict.get?_foldl_set Profile.digest snap.profiles s.profiles d).symm.trans hp
    rcases Option.or_eq_some_iff.mp hget with hnew | ⟨-, hold⟩
    · have hmem := List.mem_reverse.mp (List.mem_of_find?_eq_some hnew)
      exact attested_of_valid validated.profiles hmem
    · exact h.profiles d p hold

omit [Primitives] [Reducers] in
theorem Call.Inside.names {s : State} {c : Command} {ctx : Context} {signed : List KeyId}
    {o : Organization} (keyed : Keyed s) (h : (callOf s c ctx signed).Inside o) :
    c.organizationId = some o.id := by
  obtain ⟨id, hid, ho⟩ := h.named
  rw [hid, keyed.organizations id o ho]

section

variable {s : State} {c : Command} {ctx : Context} {signed : List KeyId} {reply : Reply}

theorem Accepted.stored (h : Accepted s c ctx signed reply) {m : Mutation}
    (payload : c.payload = .mutation m) : verifyStored (c.keep m) = .ok signed :=
  verifyStored_keep payload h.valid h.verified

theorem Accepted.published (keyed : Keyed s) (h : Accepted s c ctx signed reply)
    {o : Organization} {p : ProfilePayload} (payload : c.payload = .mutation (.profilePublish p))
    (publishes : (callOf s c ctx signed).Publishes o p) :
    Attested ((callOf s c ctx signed).published o p) := by
  apply Attested.of_inspected (f := s.profiles.get?)
  simp only [inspectProfile, Outcome.bind_eq_ok, demand_eq_ok]
  refine ⟨(), publishes.valid, (), rfl, signed, h.stored payload, ?_⟩
  exact (demand_eq_ok _ _ _ _ _).mpr ⟨publishes.inside.names keyed, rfl⟩

theorem Accepted.admits (h : Accepted s c ctx signed reply) {o : Organization} {d : Digest}
    {contract : ProfileContract} (payload : c.payload = .mutation (.profileAdmit d))
    (admits : (callOf s c ctx signed).Admits o d contract) :
    Attested (Call.protocolProfile contract d (c.keep (.profileAdmit d))) := by
  apply Attested.of_inspected (f := s.profiles.get?)
  simp only [inspectProfile, Outcome.bind_eq_ok, demand_eq_ok]
  refine ⟨(), admits.valid, (), rfl, signed, h.stored payload, ?_⟩
  exact (demand_eq_ok _ _ _ _ _).mpr ⟨rfl, rfl, rfl⟩

theorem Accepted.appended (keyed : Keyed s) (evidenced : Evidenced s)
    (h : Accepted s c ctx signed reply) {o : Organization} {p : RecordPayload}
    {profile : Profile} {before : Option BusinessRecord} {t : State} {company : Option Inventory}
    {validation : Validation} (payload : c.payload = .mutation (.recordAppend p))
    (appends : (callOf s c ctx signed).Appends o p profile before t)
    (assessed : (callOf s c ctx signed).assess t o profile p before =
      .ok (.validated company validation)) :
    Evident ((callOf s c ctx signed).appended o p validation) := by
  have hpinned : s.profiles.get? p.profileDigest = some profile := appends.pinned
  have hdigest : profile.digest = p.profileDigest := keyed.profiles _ _ hpinned
  have hattested := evidenced.profiles _ _ hpinned
  refine ⟨⟨signed, h.stored payload⟩, rfl, ?_, profile.toProfileContract,
    hattested.digest.symm.trans hdigest, appends.shaped, ?_⟩
  · have horg : p.organizationId = o.id := appends.own.1
    show c.organizationId = some p.organizationId
    rw [horg]
    exact appends.inside.names keyed
  · intro hsemantics
    have hsemantics : profile.semantics = .invoiceV1 := hsemantics
    simp only [Call.assess, hsemantics, Outcome.bind_eq_ok, demand_eq_ok] at assessed
    obtain ⟨_, -, _, hinvoice, -⟩ := assessed
    exact hinvoice

theorem Accepted.evidenced (keyed : Keyed s) (evidenced : Evidenced s)
    (h : Accepted s c ctx signed reply) : Evidenced (reply.next c) := by
  have hstages : ∀ i a snap, (reply.next c).incoming.get? i = some a → a.ready? = some snap →
      ∀ p ∈ snap.profiles, Attested p := by
    intro i a snap ha hready p hp
    cases h.stageMove keyed ha (InboundMigration.pending_of_ready hready) with
    | kept old found pending manifest ready =>
      exact evidenced.stages i old snap found (ready ▸ hready) p hp
    | opened unready unreserved others =>
      rw [unready] at hready
      exact nomatch hready
    | readied old snap' found pending manifest ready company valid others =>
      obtain rfl := Option.some.inj (hready.symm.trans ready)
      obtain ⟨_, _, _, _, validated⟩ := (validateSnapshot_eq_ok s snap ()).mp valid
      exact attested_of_valid validated.profiles hp
  have hkept : (reply.next c).records = s.records → (reply.next c).profiles = s.profiles →
      Evidenced (reply.next c) := by
    intro hrecords hprofiles
    refine ⟨?_, ?_, hstages⟩
    · rw [hrecords]
      exact evidenced.records
    · rw [hprofiles]
      exact evidenced.profiles
  have hwritten : ∀ {d p}, Attested p → ∀ d' q,
      (s.profiles.set d p).get? d' = some q → Attested q := by
    intro d p hp d' q hq
    rw [Dict.get?_set] at hq
    by_cases heq : d' = d
    · rw [if_pos heq] at hq
      exact Option.some.inj hq ▸ hp
    · rw [if_neg heq] at hq
      exact evidenced.profiles d' q hq
  have hcompany : ∀ o : Organization,
      (pushHistory ((callOf s c ctx signed).setOrg o) c).records = s.records ∧
        (pushHistory ((callOf s c ctx signed).setOrg o) c).profiles = s.profiles := by
    intro o
    obtain ⟨organizations, heq⟩ := pushHistory_setOrg (callOf s c ctx signed) o c
    rw [heq]
    exact ⟨rfl, rfl⟩
  cases h.effect with
  | found orgId name nonce controllers threshold payload founds =>
    obtain ⟨hrecords, hprofiles⟩ := hcompany (Call.founded orgId name controllers threshold)
    exact hkept hrecords hprofiles
  | company o o' m result payload fresh inside change =>
    obtain ⟨hrecords, hprofiles⟩ := hcompany o'
    exact hkept hrecords hprofiles
  | publish o p payload publishes =>
    exact ⟨evidenced.records, hwritten (h.published keyed payload publishes), hstages⟩
  | admitContract o digest contract payload admits absent =>
    exact ⟨evidenced.records, hwritten (h.admits payload admits), hstages⟩
  | append o p profile before t company validation payload appends assessed =>
    have hnew := h.appended keyed evidenced payload appends assessed
    obtain rfl : s = t := (counterparties_eq keyed.remoteAuthorities appends.attested).symm
    have hinsert : ∀ u : State, u.records = s.records → ∀ id r,
        (Call.insertRecord u o.id ((callOf s c ctx signed).appended o p validation)).records.get?
          id = some r → Evident r := by
      intro u hu id r hr
      rcases insertRecord_cases hr with ⟨-, rfl⟩ | ⟨-, old, hold, rfl⟩
      · exact hnew
      · rw [hu] at hold
        exact (evidenced.records id old hold).of_same rfl rfl
    cases company with
    | none => exact ⟨hinsert s rfl, evidenced.profiles, hstages⟩
    | some company => exact ⟨hinsert (s.setInventory o.id company) rfl, evidenced.profiles, hstages⟩
  | duplicate o p profile before t company recordId recorded payload appends assessed known =>
    obtain rfl : s = t := (counterparties_eq keyed.remoteAuthorities appends.attested).symm
    exact hkept rfl rfl
  | finalize migrationId token stage ready body snapshot payload stages binds inactive held
      absent digest valid activates =>
    obtain ⟨hrecords, hprofiles⟩ := evidenced.takeOver keyed valid
    exact ⟨hrecords, hprofiles, hstages⟩
  | _ => exact hkept rfl rfl

end

theorem Reachable.evidenced {s : State} (h : Reachable s) : Evidenced s := by
  induction h with
  | empty => exact evidenced_empty
  | step before accepted ih =>
    obtain ⟨signed, reply, haccepted, rfl, -⟩ := execute_eq_ok accepted
    have hnext := haccepted.evidenced before.keyed ih
    exact ⟨hnext.records, hnext.profiles, hnext.stages⟩

section

omit [Primitives] [Reducers]

/-- A walk that started from `needed` reached `reached`: it kept what it had, and every profile
that it added is stored and has its dependencies among the reached ones. -/
structure Covers (s : State) (needed reached : List Digest) : Prop where
  kept : needed ⊆ reached
  distinct : needed.Nodup → reached.Nodup
  small : needed.length ≤ 32 → reached.length ≤ 32
  added : ∀ d ∈ reached, d ∉ needed →
    ∃ p, s.profiles.get? d = some p ∧ ∀ x ∈ p.dependencies, x ∈ reached

theorem Covers.refl (s : State) (needed : List Digest) : Covers s needed needed :=
  ⟨fun _ h => h, id, id, fun _ h hn => absurd h hn⟩

theorem Covers.trans {s : State} {a b c : List Digest} (hab : Covers s a b) (hbc : Covers s b c) :
    Covers s a c where
  kept := fun _ h => hbc.kept (hab.kept h)
  distinct h := hbc.distinct (hab.distinct h)
  small h := hbc.small (hab.small h)
  added := by
    intro d hd hn
    by_cases hb : d ∈ b
    · obtain ⟨p, hp, hdeps⟩ := hab.added d hb hn
      exact ⟨p, hp, fun x hx => hbc.kept (hdeps x hx)⟩
    · exact hbc.added d hd hb

/-- A walk over several profiles covers each of them, where each step does. -/
theorem covers_foldlM {s : State} {f : List Digest → Digest → Attempt (List Digest)}
    (hstep : ∀ needed d reached, f needed d = .ok reached → Covers s needed reached ∧ d ∈ reached)
    {ds needed reached : List Digest} (h : ds.foldlM f needed = .ok reached) :
    Covers s needed reached ∧ ∀ d ∈ ds, d ∈ reached := by
  refine Outcome.foldlM_prefix
    (fun pre reached => Covers s needed reached ∧ ∀ d ∈ pre, d ∈ reached) ?_ ?_ h
  · intro pre d m n ⟨hcovers, hpre⟩ hf
    obtain ⟨hnext, hmem⟩ := hstep m d n hf
    refine ⟨hcovers.trans hnext, ?_⟩
    intro x hx
    rcases List.mem_append.mp hx with hx | hx
    · exact hnext.kept (hpre x hx)
    · exact List.mem_singleton.mp hx ▸ hmem
  · exact ⟨Covers.refl s needed, fun d hd => nomatch hd⟩

theorem includeProfile_covers {s : State} (fuel : ℕ) (needed : List Digest) (d : Digest)
    (reached : List Digest) (h : includeProfile s fuel needed d = .ok reached) :
    Covers s needed reached ∧ d ∈ reached := by
  induction fuel generalizing needed d reached with
  | zero => exact nomatch h
  | succ fuel ih =>
    unfold includeProfile at h
    by_cases hmem : d ∈ needed
    · rw [if_pos hmem, Outcome.pure_eq_ok] at h
      subst h
      exact ⟨Covers.refl s needed, hmem⟩
    · simp only [if_neg hmem, Outcome.bind_eq_ok, demand_eq_ok, access_eq_ok] at h
      obtain ⟨_, hsmall, p, hp, hfold⟩ := h
      obtain ⟨hrest, hdeps⟩ := covers_foldlM ih hfold
      have hreached : d ∈ reached :=
        hrest.kept (List.mem_append.mpr (Or.inr (List.mem_singleton_self d)))
      refine ⟨⟨?_, ?_, ?_, ?_⟩, hreached⟩
      · intro x hx
        exact hrest.kept (List.mem_append.mpr (Or.inl hx))
      · intro hnodup
        apply hrest.distinct
        exact List.nodup_append.mpr ⟨hnodup, List.nodup_singleton d, by
          intro x hx y hy heq
          rw [List.mem_singleton.mp hy] at heq
          exact hmem (heq ▸ hx)⟩
      · intro _
        exact hrest.small hsmall
      · intro x hx hn
        by_cases heq : x = d
        · subst heq
          exact ⟨p, hp, hdeps⟩
        · refine hrest.added x hx ?_
          intro hin
          rcases List.mem_append.mp hin with hin | hin
          · exact hn hin
          · exact heq (List.mem_singleton.mp hin)

end

/-- The disclosure carries the profile of each record, and with a profile its dependencies. -/
structure Closed (records : List BusinessRecord) (profiles : List Profile) : Prop where
  pinned : ∀ r ∈ records, ∃ p ∈ profiles, p.digest = r.profileDigest
  dependencies : ∀ p ∈ profiles, ∀ d ∈ p.dependencies, ∃ q ∈ profiles, q.digest = d

/-- What the body of an issued token consists of: entries of the issuer, with all profiles that
they depend on. -/
structure Discloses (s : State) (recordIds : List Uuid) (b : EvidenceBody) : Prop where
  records : recordIds.map s.records.get? = b.records.map some
  source : ∀ r ∈ b.records, r.organizationId = b.sourceOrganization
  count : 0 < b.records.length ∧ b.records.length ≤ 20
  profiles : ∀ p ∈ b.profiles, s.profiles.get? p.digest = some p
  distinct : (b.profiles.map (·.digest)).Nodup
  bounded : b.profiles.length ≤ 32
  closed : Closed b.records b.profiles
  purpose : text b.purpose 200 = .ok ()
  size : Primitives.evidenceBytes b ≤ 512 * 1024

omit [Reducers] in
theorem Discloses.stored {s : State} {recordIds : List Uuid} {b : EvidenceBody}
    (h : Discloses s recordIds b) (r : BusinessRecord) (hr : r ∈ b.records) :
    ∃ id ∈ recordIds, s.records.get? id = some r := by
  have hmem : some r ∈ recordIds.map s.records.get? := by
    rw [h.records]
    exact List.mem_map_of_mem hr
  exact List.mem_map.mp hmem

omit [Primitives] [Reducers] in
/-- The profiles that the walk reached are those that the disclosure needs. -/
theorem closed_of_covers {s : State} (keyed : Keyed s) {records : List BusinessRecord}
    {reached : List Digest} {profiles : List Profile}
    (walk : (records.map (·.profileDigest)).foldlM (includeProfile s 33) [] = .ok reached)
    (found : reached.mapM (fun d => access (s.profiles.get? d)) = .ok profiles) :
    (∀ p ∈ profiles, s.profiles.get? p.digest = some p) ∧
      (profiles.map (·.digest)).Nodup ∧ profiles.length ≤ 32 ∧ Closed records profiles := by
  obtain ⟨hcovers, hroots⟩ := covers_foldlM (includeProfile_covers 33) walk
  have hget : ∀ d p, access (s.profiles.get? d) = .ok p → s.profiles.get? d = some p :=
    fun d p hp => (access_eq_ok _ _).mp hp
  have hdigests : profiles.map (·.digest) = reached.map id :=
    Outcome.map_of_mapM (fun d p hp => keyed.profiles d p (hget d p hp)) found
  rw [List.map_id] at hdigests
  obtain ⟨hfrom, hinto⟩ := Outcome.exists_of_mapM found
  have hthere : ∀ d ∈ reached, ∃ p ∈ profiles, p.digest = d := by
    intro d hd
    obtain ⟨p, hp, hfound⟩ := hinto d hd
    exact ⟨p, hp, keyed.profiles d p (hget d p hfound)⟩
  refine ⟨?_, ?_, ?_, ?_, ?_⟩
  · intro p hp
    obtain ⟨d, hd, hfound⟩ := hfrom p hp
    have hstored := hget d p hfound
    rw [keyed.profiles d p hstored]
    exact hstored
  · rw [hdigests]
    exact hcovers.distinct List.nodup_nil
  · have hlength : profiles.length = reached.length := by
      rw [← hdigests, List.length_map]
    rw [hlength]
    exact hcovers.small (by decide)
  · intro r hr
    exact hthere _ (hroots _ (List.mem_map_of_mem hr))
  · intro p hp d hd
    obtain ⟨x, hx, hfound⟩ := hfrom p hp
    obtain ⟨q, hq, hdeps⟩ := hcovers.added x hx List.not_mem_nil
    obtain rfl := Option.some.inj ((hget x p hfound).symm.trans hq)
    exact hthere d (hdeps d hd)

omit [Primitives] [Reducers] in
theorem Call.disclosed_eq_ok {k : Call} {o : Organization} {id : Uuid} {r : BusinessRecord}
    (h : k.disclosed o id = .ok r) :
    k.s.records.get? id = some r ∧ r.organizationId = o.id := by
  simp only [Call.disclosed, Outcome.bind_eq_ok, require_eq_ok, Outcome.pure_eq_ok,
    Option.filter_eq_some_iff, decide_eq_true_eq] at h
  obtain ⟨_, ⟨hr, horg⟩, _, -, _, -, _, -, _, -, rfl⟩ := h
  exact ⟨hr, horg⟩

omit [Reducers] in
/-- An issued token holds a disclosure for the named recipient, signed by the host. -/
theorem Call.discloses_of_issue {k : Call} (keyed : Keyed k.s) {recordIds : List Uuid}
    {recipient : Recipient} {purpose : String} {expiresAt : Instant} {reply : Reply}
    (h : k.evidenceIssue recordIds recipient purpose expiresAt = .ok reply) :
    ∃ b : EvidenceBody, Discloses k.s recordIds b ∧
      reply.result = some (.token (⟨.evidence b, k.ctx.storeKey,
        Primitives.sign k.ctx.storeKey (.evidence b)⟩)) ∧
      b.toStamp = ⟨k.ctx.audience, k.ctx.now, expiresAt⟩ ∧ b.recipient = recipient ∧
      b.purpose = purpose ∧ recipient.audience ≠ k.ctx.audience ∧ k.ctx.now < expiresAt ∧
      expiresAt ≤ k.ctx.now + 60000 := by
  simp only [Call.evidenceIssue, Outcome.bind_eq_ok, demand_eq_ok, ids_eq_ok,
    Outcome.pure_eq_ok] at h
  obtain ⟨_, ⟨hsome, hmany, -⟩, _, hpurpose, _, -, o, -, _, ⟨-, -, hother, -⟩, _, hwindow, records,
    hrecords, reached, hwalk, profiles, hprofiles, _, -, _, hsize, token, hsigned, rfl⟩ := h
  obtain ⟨hstored, hdistinct, hbounded, hclosed⟩ := closed_of_covers keyed hwalk hprofiles
  obtain rfl := signToken_eq_ok hsigned
  have hmap : records.map some = recordIds.map k.s.records.get? :=
    Outcome.map_of_mapM (fun id r hr => (Call.disclosed_eq_ok hr).1.symm) hrecords
  have hlength : records.length = recordIds.length := by
    have h := congrArg List.length hmap
    rwa [List.length_map, List.length_map] at h
  refine ⟨_, ⟨hmap.symm, ?_, ?_, hstored, hdistinct, hbounded, hclosed, hpurpose, hsize⟩, rfl, rfl,
    rfl, rfl, hother, hwindow.1, hwindow.2⟩
  · intro r hr
    obtain ⟨id, hid, hfound⟩ := (Outcome.exists_of_mapM hrecords).1 r hr
    exact (Call.disclosed_eq_ok hfound).2
  · rw [hlength]
    exact ⟨hsome, hmany⟩

/-- No contract but its own has the digest of a stored profile. -/
def UniqueContracts (s : State) : Prop :=
  ∀ d p, s.profiles.get? d = some p → ∀ contract : ProfileContract,
    Primitives.digestContract contract = d → contract = p.toProfileContract

omit [Reducers] in
/-- A disclosed profile that repeats what was signed is refused neither for its dependencies,
which the disclosure carries, nor for anything else. -/
theorem Discloses.inspectProfile {s : State} {recordIds : List Uuid} {b : EvidenceBody}
    (h : Discloses s recordIds b) {own : Digest → Option Profile} {p : Profile}
    (hp : p ∈ b.profiles) (attested : Attested p) :
    inspectProfile (fun d => (b.profiles.find? fun pr => pr.digest = d).or (own d)) p =
      .ok () := by
  refine inspectProfile_of_dependencies attested ?_
  intro d hd
  obtain ⟨q, hq, hdigest⟩ := h.closed.dependencies p hp d hd
  have hfound : (b.profiles.find? fun pr => pr.digest = d).isSome = true :=
    List.find?_isSome.mpr ⟨q, hq, decide_eq_true hdigest⟩
  rw [Option.isSome_or, hfound]
  rfl

/-- A disclosed record that repeats what was signed passes where its profile is accepted. -/
theorem Discloses.inspectRecord {k : Call} {s : State} {recordIds : List Uuid} {b : EvidenceBody}
    (h : Discloses s recordIds b)
    (unique : UniqueContracts s) {accepted : List Digest} {own : Digest → Option Profile}
    {r : BusinessRecord}
    (hr : r ∈ b.records) (evident : Evident r) (lists : r.profileDigest ∈ accepted)
    (understood : k.understands r.profileDigest = .ok true) :
    ∃ x, k.inspectRecord b.sourceOrganization accepted
      (fun d => (b.profiles.find? fun pr => pr.digest = d).or (own d)) r = .ok x := by
  obtain ⟨p, hp, hdigest⟩ := h.closed.pinned r hr
  have hsource := h.source r hr
  obtain ⟨signed, hverified⟩ := evident.verified
  obtain ⟨contract, hcontract, hshape, hinvoice⟩ := evident.contract
  cases hfound : b.profiles.find? fun pr => pr.digest = r.profileDigest with
  | none =>
    have hnone := List.find?_eq_none.mp hfound p hp
    exact absurd (decide_eq_true hdigest) hnone
  | some q =>
    have hq : q.digest = r.profileDigest := by simpa using List.find?_some hfound
    have hstored := h.profiles q (List.mem_of_find?_eq_some hfound)
    rw [hq] at hstored
    -- The contract under which the record was written is that of the disclosed profile.
    obtain rfl := unique _ _ hstored contract hcontract
    have hchecked : ∃ checked, Call.inspectBody q r = .ok checked := by
      unfold Call.inspectBody
      cases hsemantics : q.semantics with
      | invoiceV1 =>
        have hvalid := hinvoice hsemantics
        refine ⟨.invoice (Reducers.validateInvoice r.body fun _ _ => .unknown), ?_⟩
        simp only [Outcome.bind_eq_ok, demand_eq_ok]
        exact ⟨(), hvalid, rfl⟩
      | _ => exact ⟨_, rfl⟩
    obtain ⟨checked, hchecked⟩ := hchecked
    refine ⟨⟨r.toRecordPayload, r.command, checked, r.seq, r.isHead, r.acceptedAt,
      r.validation⟩, ?_⟩
    simp only [Call.inspectRecord, Outcome.bind_eq_ok, demand_eq_ok, require_eq_ok]
    refine ⟨(), ⟨hsource, lists⟩, true, understood, (), rfl, signed, hverified, (),
      ⟨evident.payload, hsource ▸ evident.organization⟩, q, ?_, (), hshape, checked, hchecked, rfl⟩
    rw [hfound]
    rfl

omit [Reducers] in
/-- What an inspection shows of a record is its signed payload and its command. -/
theorem Call.inspectRecord_shows {k : Call} {source : Uuid} {accepted : List Digest}
    {profiles : Digest → Option Profile} {r : BusinessRecord} {x : InspectedRecord}
    [Reducers] (h : k.inspectRecord source accepted profiles r = .ok x) :
    (x.record, x.command) = (r.toRecordPayload, r.command) := by
  simp only [Call.inspectRecord, Outcome.bind_eq_ok, Outcome.pure_eq_ok] at h
  obtain ⟨_, -, _, -, _, -, _, -, _, -, _, -, _, -, _, -, rfl⟩ := h
  rfl

/-- A call that may inspect what `issuer` disclosed to `recipient`: the recipient's host admits
it and pins the issuer, and its caller reads the recipient's compartment and accepts the
profiles, as a person or as an installation whose release declares them. -/
structure Inspects (t : State) (c : Command) (ctx : Context) (signed : List KeyId)
    (o : Organization) (issuer : HostRef) (recipient : Recipient) (digests : List Digest)
    (accepted : List Digest) : Prop where
  admitted : admission t c ctx = .ok signed
  host : ctx.audience = recipient.audience
  pinned : ctx.pins issuer.audience = some issuer.keyId
  inside : (callOf t c ctx signed).Inside o
  company : o.id = recipient.organizationId
  reads : (callOf t c ctx signed).can recipient.policyId recipient.resourceId .read = .ok true
  lists : ∀ d ∈ digests, d ∈ accepted
  declares : c.actor.kind = .person ∨ ∃ inst release, o.installations[c.actor.id]? = some inst ∧
    t.releases.get? inst.releaseDigest = some release ∧ ∀ d ∈ digests, d ∈ release.profiles

section

variable {t : State} {c : Command} {ctx : Context} {signed : List KeyId} {o : Organization}
  {issuer : HostRef} {recipient : Recipient} {digests accepted : List Digest}

omit [Reducers] in
theorem Inspects.understands (h : Inspects t c ctx signed o issuer recipient digests accepted)
    {d : Digest} (hd : d ∈ digests) : (callOf t c ctx signed).understands d = .ok true := by
  cases hkind : c.actor.kind with
  | person =>
    have hkind : (callOf t c ctx signed).c.actor.kind = .person := hkind
    simp only [Call.understands, hkind]
    rfl
  | installation =>
    rcases h.declares with hperson | ⟨inst, release, hinst, hrelease, hdeclared⟩
    · rw [hperson] at hkind
      cases hkind
    · have hkind : (callOf t c ctx signed).c.actor.kind = .installation := hkind
      have hprofiles : (callOf t c ctx signed).moduleProfiles o = .ok release.profiles := by
        simp only [Call.moduleProfiles, Outcome.bind_eq_ok, access_eq_ok, Outcome.pure_eq_ok]
        exact ⟨inst, hinst, release, hrelease, rfl⟩
      simp only [Call.understands, hkind, (Call.currentOrg_eq_ok _ o).mpr h.inside, Outcome.ok_bind,
        hprofiles, Outcome.pure_eq_ok, decide_eq_true_eq]
      exact hdeclared d hd

/-- A token that a host issued for a recipient passes inspection there while it lives. -/
theorem Inspects.inspects {s : State} {recordIds : List Uuid} {b : EvidenceBody}
    (h : Inspects t c ctx signed o issuer recipient (b.records.map (·.profileDigest)) accepted)
    (discloses : Discloses s recordIds b) (evidenced : Evidenced s) (unique : UniqueContracts s)
    (signs : ∀ key body, Primitives.verifyToken key body (Primitives.sign key body) = true)
    (bound : b.recipient = recipient) (named : b.issuer = issuer.audience)
    (apart : recipient.audience ≠ issuer.audience) (brief : b.expiresAt ≤ b.issuedAt + 60000)
    (begun : b.issuedAt ≤ ctx.now) (live : ctx.now < b.expiresAt) (few : accepted.length ≤ 32) :
    ∃ inspected, (callOf t c ctx signed).evidenceInspect
        ⟨.evidence b, issuer.keyId, Primitives.sign issuer.keyId (.evidence b)⟩ accepted =
      .ok ((callOf t c ctx signed).answer (some (.evidence b.sourceOrganization b.purpose
        b.expiresAt inspected b.profiles))) ∧
      inspected.map (fun x => (x.record, x.command)) =
        b.records.map fun r => (r.toRecordPayload, r.command) := by
  subst bound
  have hverified : verifyToken TokenBody.evidence?
      ⟨.evidence b, issuer.keyId, Primitives.sign issuer.keyId (.evidence b)⟩ ctx = .ok b := by
    have hpinned : (if b.issuer = ctx.audience then some ctx.storeKey else ctx.pins b.issuer) =
        some issuer.keyId := by
      rw [if_neg (by rw [named, h.host]; exact apart.symm), named, h.pinned]
    have hstart : b.issuedAt ≤ ctx.now + 30000 :=
      Int.le_trans begun (Int.le_add_of_nonneg_right (by decide))
    simp only [verifyToken, Outcome.bind_eq_ok, require_eq_ok, demand_eq_ok, Outcome.pure_eq_ok]
    exact ⟨b, rfl, (), hpinned, (), signs _ _, (), ⟨hstart, live, Int.lt_of_le_of_lt begun live⟩,
      rfl⟩
  have hlifetime : b.expiresAt - b.issuedAt ≤ 60000 := Int.sub_left_le_of_le_add brief
  have hvisible : (callOf t c ctx signed).visible b.recipient.policyId b.recipient.resourceId =
      .ok () := by
    simp only [Call.visible, Outcome.bind_eq_ok, demand_eq_ok]
    exact ⟨true, h.reads, rfl⟩
  have hprofiles : Outcome.each (inspectProfile
      (fun d => (b.profiles.find? fun pr => pr.digest = d).or (t.profiles.get? d))) b.profiles =
      .ok () := by
    apply (Outcome.each_eq_ok _ _ _).mpr
    intro p hp
    exact discloses.inspectProfile hp (evidenced.profiles _ _ (discloses.profiles p hp))
  have hrecords : ∃ inspected, b.records.mapM ((callOf t c ctx signed).inspectRecord
      b.sourceOrganization accepted
      (fun d => (b.profiles.find? fun pr => pr.digest = d).or (t.profiles.get? d))) =
      .ok inspected := by
    apply Outcome.mapM_total
    intro r hr
    have hdigest : r.profileDigest ∈ b.records.map (·.profileDigest) := List.mem_map_of_mem hr
    obtain ⟨id, -, hstored⟩ := discloses.stored r hr
    exact discloses.inspectRecord unique hr (evidenced.records id r hstored)
      (h.lists _ hdigest) (h.understands hdigest)
  obtain ⟨inspected, hinspected⟩ := hrecords
  refine ⟨inspected, ?_, Outcome.map_of_mapM (fun r x hx => Call.inspectRecord_shows hx) hinspected⟩
  simp only [Call.evidenceInspect, Outcome.bind_eq_ok, demand_eq_ok, Outcome.pure_eq_ok]
  exact ⟨o, (Call.currentOrg_eq_ok _ o).mpr h.inside, b, hverified, (), discloses.size, (),
    discloses.purpose, (), ⟨hlifetime, h.company.symm, h.host.symm⟩, (), hvisible, (),
    ⟨discloses.count.1, discloses.count.2, discloses.bounded, few⟩, (), discloses.distinct, (),
    hprofiles, inspected, hinspected, rfl⟩

end

/-- The signed command of the record says what the record says. -/
def BusinessRecord.AsSigned (r : BusinessRecord) : Prop :=
  r.command.payload = .recordAppend r.toRecordPayload ∧
    r.command.organizationId = some r.organizationId

/-- The signed publication or admission of the profile says what the profile says. -/
def Profile.AsSigned (p : Profile) : Prop :=
  match p.publisherId with
  | .dtp => p.command.payload = .profileAdmit p.digest ∧ p.visibility = .community ∧ p.readers = []
  | .organization publisherId => p.command.organizationId = some publisherId ∧
      p.command.payload = .profilePublish p.publication

omit [Reducers] in
theorem Profile.asSigned_of_inspected {f : Digest → Option Profile} {p : Profile}
    (h : inspectProfile f p = .ok ()) : p.AsSigned := by
  simp only [inspectProfile, Outcome.bind_eq_ok] at h
  obtain ⟨_, -, _, -, _, -, hsigned⟩ := h
  unfold Profile.AsSigned
  cases hpublisher : p.publisherId with
  | dtp =>
    rw [hpublisher] at hsigned
    exact (demand_eq_ok _ _ _ _ _).mp hsigned
  | organization publisherId =>
    rw [hpublisher] at hsigned
    exact (demand_eq_ok _ _ _ _ _).mp hsigned

theorem Call.asSigned_of_inspected {k : Call} {source : Uuid} {accepted : List Digest}
    {profiles : Digest → Option Profile} {r : BusinessRecord} {x : InspectedRecord}
    (h : k.inspectRecord source accepted profiles r = .ok x) : r.AsSigned := by
  simp only [Call.inspectRecord, Outcome.bind_eq_ok, demand_eq_ok] at h
  obtain ⟨_, ⟨hsource, -⟩, _, -, _, -, _, -, _, ⟨hpayload, horg⟩, -⟩ := h
  exact ⟨hpayload, hsource ▸ horg⟩

/-- What is inspected was signed as it stands. -/
theorem Call.evidenceInspect_asSigned {k : Call} {token : SignedToken} {accepted : List Digest}
    {reply : Reply} {b : EvidenceBody} (body : token.body = .evidence b)
    (h : k.evidenceInspect token accepted = .ok reply) :
    (∀ r ∈ b.records, r.AsSigned) ∧ ∀ p ∈ b.profiles, p.AsSigned := by
  simp only [Call.evidenceInspect, Outcome.bind_eq_ok, Outcome.each_eq_ok] at h
  obtain ⟨o, -, b', hverified, _, -, _, -, _, -, _, -, _, -, _, -, _, hprofiles, inspected,
    hinspected, -⟩ := h
  have hselect : TokenBody.evidence? token.body = some b' := verifyToken_select hverified
  rw [body] at hselect
  obtain rfl := Option.some.inj hselect
  constructor
  · intro r hr
    obtain ⟨x, -, hx⟩ := (Outcome.exists_of_mapM hinspected).2 r hr
    exact Call.asSigned_of_inspected hx
  · intro p hp
    exact Profile.asSigned_of_inspected (hprofiles p hp)

theorem Call.dispatch_inspect {k : Call} {token : SignedToken} {accepted : List Digest}
    (payload : k.c.payload = .evidenceInspect token accepted) :
    k.dispatch = k.evidenceInspect token accepted := by
  rw [Call.dispatch, payload]

omit [Reducers] in
/-- The shape of an inspecting command bounds the profiles that it lists. -/
theorem accepted_few {c : Command} {audience : String} {now : Instant} {token : SignedToken}
    {accepted : List Digest} (valid : validateCommand c audience now = .ok ())
    (payload : c.payload = .evidenceInspect token accepted) : accepted.length ≤ 32 := by
  simp only [validateCommand, Outcome.bind_eq_ok, demand_eq_ok] at valid
  obtain ⟨_, hconforms, -⟩ := valid
  simp only [Command.conforms, payload, Payload.conforms, arrayOf, Bool.and_eq_true,
    decide_eq_true_eq] at hconforms
  exact hconforms.2.2

theorem execute_eq_ok_iff (s s' : State) (c : Command) (ctx : Context) (result : Option Result) :
    execute s c ctx = .ok (s', result) ↔ ∃ signed reply, admission s c ctx = .ok signed ∧
      (callOf s c ctx signed).dispatch = .ok reply ∧ s' = settle c ctx reply ∧
      result = reply.result := by
  rw [execute_eq]
  simp only [Outcome.bind_eq_ok, Outcome.pure_eq_ok, Prod.mk.injEq]
  constructor
  · rintro ⟨signed, hadmitted, reply, hdispatch, hstate, hresult⟩
    exact ⟨signed, reply, hadmitted, hdispatch, hstate.symm, hresult.symm⟩
  · rintro ⟨signed, reply, hadmitted, hdispatch, hstate, hresult⟩
    exact ⟨signed, hadmitted, reply, hdispatch, hstate.symm, hresult.symm⟩

/-- What a host discloses to a recipient is accepted there while the token lives, whatever the
recipient holds itself, and shows the issued records as they were signed; and no inspection
accepts a record or a profile that its command does not say. -/
theorem evidence_round_trip
    (signs : ∀ key body, Primitives.verifyToken key body (Primitives.sign key body) = true) :
    (∀ s s' c ctx recordIds recipient purpose expiresAt token, Reachable s → UniqueContracts s →
      c.payload = .evidenceIssue recordIds recipient purpose expiresAt →
      execute s c ctx = .ok (s', some (.token token)) →
      ∃ (source : Uuid) (records : List BusinessRecord) (profiles : List Profile),
        recordIds.map s.records.get? = records.map some ∧ Closed records profiles ∧
        ∀ t c' ctx' signed o accepted,
          Inspects t c' ctx' signed o ctx.host recipient (records.map (·.profileDigest)) accepted →
          c'.payload = .evidenceInspect token accepted → ctx.now ≤ ctx'.now →
          ctx'.now < expiresAt →
          ∃ t' inspected, execute t c' ctx' =
              .ok (t', some (.evidence source purpose expiresAt inspected profiles)) ∧
            inspected.map (fun x => (x.record, x.command)) =
              records.map fun r => (r.toRecordPayload, r.command)) ∧
    ∀ t c ctx token accepted b, c.payload = .evidenceInspect token accepted →
      token.body = .evidence b →
      ((∃ r ∈ b.records, ¬ r.AsSigned) ∨ ∃ p ∈ b.profiles, ¬ p.AsSigned) →
      ∃ refusal, execute t c ctx = .error refusal := by
  constructor
  · intro s s' c ctx recordIds recipient purpose expiresAt token reached unique payload issued
    obtain ⟨signed, reply, -, hdispatch, -, hresult⟩ := (execute_eq_ok_iff _ _ _ _ _).mp issued
    have hissue : (callOf s c ctx signed).evidenceIssue recordIds recipient purpose expiresAt =
        .ok reply := by
      have hpayload : (callOf s c ctx signed).c.payload =
        .evidenceIssue recordIds recipient purpose expiresAt := payload
      simpa only [Call.dispatch, hpayload] using hdispatch
    obtain ⟨b, discloses, htoken, hstamp, hrecipient, hpurpose, hother, hlater, hbrief⟩ :=
      Call.discloses_of_issue reached.keyed hissue
    rw [htoken] at hresult
    obtain rfl : token = _ := Result.token.inj (Option.some.inj hresult)
    have hissuer : b.issuer = ctx.audience := congrArg Stamp.issuer hstamp
    have hissued : b.issuedAt = ctx.now := congrArg Stamp.issuedAt hstamp
    have hexpires : b.expiresAt = expiresAt := congrArg Stamp.expiresAt hstamp
    refine ⟨b.sourceOrganization, b.records, b.profiles, discloses.records, discloses.closed, ?_⟩
    intro t c' ctx' signed' o accepted inspects payload' begun live
    obtain ⟨valid, -, -⟩ := admission_eq_ok inspects.admitted
    have few : accepted.length ≤ 32 := accepted_few valid payload'
    obtain ⟨inspected, hinspect, hshows⟩ := inspects.inspects discloses reached.evidenced unique
      signs hrecipient hissuer hother (hexpires ▸ hissued ▸ hbrief) (hissued ▸ begun)
      (hexpires ▸ live) few
    have hdispatch' :=
      (Call.dispatch_inspect (k := callOf t c' ctx' signed') payload').trans hinspect
    refine ⟨_, inspected, (execute_eq_ok_iff _ _ _ _ _).mpr
      ⟨signed', _, inspects.admitted, hdispatch', rfl, ?_⟩, hshows⟩
    rw [← hpurpose, ← hexpires]
    rfl
  · intro t c ctx token accepted b payload body differs
    cases hrun : execute t c ctx with
    | error refusal => exact ⟨refusal, rfl⟩
    | ok changed =>
      obtain ⟨signed, reply, -, hdispatch, -⟩ := (execute_eq_ok_iff _ _ _ _ _).mp hrun
      have hinspect := (Call.dispatch_inspect (k := callOf t c ctx signed) payload).symm.trans
        hdispatch
      obtain ⟨hrecords, hprofiles⟩ := Call.evidenceInspect_asSigned body hinspect
      rcases differs with ⟨r, hr, hnot⟩ | ⟨p, hp, hnot⟩
      · exact absurd (hrecords r hr) hnot
      · exact absurd (hprofiles p hp) hnot

def noteContract : ProfileContract :=
  ⟨.organization 1005, "note", "1.0.0", sampleSchema, .structural, []⟩

/-- The sample primitives, where one contract alone has the digest of the sample profile. -/
@[reducible] def disclosurePrimitives : Primitives :=
  { samplePrimitives none with digestContract := fun p => if p = noteContract then 704 else 0 }

/-- A company at host `a` writes a record that it may export. -/
def issuerCommands : List (Command × Context) :=
  [(none, .personRegister [1]), (some 1005, .organizationCreate "acme" 5 [1] 1),
    (some 1005, .policyCreate
      ⟨21, 0, .business, [1], 1, [⟨1, [.read, .write, .export], .all, 31536000000⟩]⟩),
    (some 1005, .profilePublish
      ⟨"note", "1.0.0", sampleSchema, .structural, [], .privateOnly, [], 704⟩),
    (some 1005, .recordAppend (sampleRecord 31 31 none))].mapIdx fun i m =>
    (sampleCommand "a" 0 (i + 1) m.1 (.mutation m.2), sampleContext "a" 0)

/-- A company at host `b` has a compartment for it. -/
def recipientCommands : List (Command × Context) :=
  [(none, .personRegister [1]), (some 1006, .organizationCreate "bolt" 6 [1] 1),
    (some 1006, .policyCreate
      ⟨22, 0, .business, [1], 1, [⟨1, [.read], .all, 31536000000⟩]⟩)].mapIdx fun i m =>
    (sampleCommand "b" 0 (i + 1) m.1 (.mutation m.2), sampleContext "b" 0)

def issuing : Command × Context :=
  (sampleCommand "a" 0 9 (some 1005) (.evidenceIssue [31] ⟨1006, "b", 22, 41⟩ "order" 60000),
    sampleContext "a" 0)

omit [Primitives] [Reducers] in
/-- The token that host `a` issues. -/
def issuedToken : SignedToken :=
  letI := disclosurePrimitives
  letI := sampleReducers
  match (after (pathOf issuerCommands).2 issuing).2 with
  | some (.token token) => token
  | _ => disclosure

def inspecting : Command × Context :=
  (sampleCommand "b" 0 9 (some 1006) (.evidenceInspect issuedToken [704]), sampleContext "b" 0)

omit [Primitives] [Reducers] in
theorem evidence_round_trip_sample :
    letI := disclosurePrimitives
    letI := sampleReducers
    ∃ t' source inspected profiles,
      execute (pathOf recipientCommands).2 inspecting.1 inspecting.2 =
        .ok (t', some (.evidence source "order" 60000 inspected profiles)) ∧
      inspected.map (·.record) = [sampleRecord 31 31 none] := by
  let := disclosurePrimitives
  let := sampleReducers
  have hissuer : Reachable (pathOf issuerCommands).2 :=
    (Path.of_pathOf (by decide)).reachable
  have hrecipient : Reachable (pathOf recipientCommands).2 :=
    (Path.of_pathOf (by decide)).reachable
  have hissued := execute_after (pathOf issuerCommands).2 issuing (by decide)
  have htoken : (after (pathOf issuerCommands).2 issuing).2 = some (.token issuedToken) := by
    decide
  rw [htoken] at hissued
  have hsigns : ∀ key body, Primitives.verifyToken key body (Primitives.sign key body) = true :=
    fun _ _ => decide_eq_true rfl
  have hunique : UniqueContracts (pathOf issuerCommands).2 := by
    have honly : ∀ p ∈ (pathOf issuerCommands).2.profiles.values,
      p.digest = 704 ∧ p.toProfileContract = noteContract := by decide
    intro d p hp contract hcontract
    obtain ⟨hdigest, hnote⟩ := honly p (Dict.mem_values_of_get? hp)
    have hd : d = 704 := (hissuer.keyed.profiles d p hp).symm.trans hdigest
    have hfound : (if contract = noteContract then 704 else 0) = 704 := hcontract.trans hd
    rw [hnote]
    by_contra hother
    rw [if_neg hother] at hfound
    exact nomatch hfound
  obtain ⟨source, records, profiles, hrecords, -, haccepts⟩ := (evidence_round_trip hsigns).1 _ _ _
    _ [31] ⟨1006, "b", 22, 41⟩ "order" 60000 issuedToken hissuer hunique rfl hissued
  have hstored : ((pathOf issuerCommands).2.records.get? 31).map (fun r =>
      (r.toRecordPayload, r.profileDigest)) = some (sampleRecord 31 31 none, 704) := by
    decide
  have hreads : (callOf (pathOf recipientCommands).2 inspecting.1 inspecting.2 [1]).can 22 41
      .read = .ok true := by decide
  have hadmitted : admission (pathOf recipientCommands).2 inspecting.1 inspecting.2 = .ok [1] := by
    decide
  obtain ⟨o, hinside, -⟩ := (Call.can_eq_ok _ _ _ _ _).mp hreads
  have hcompany : o.id = 1006 := by
    have hnamed := hinside.names hrecipient.keyed
    exact (Option.some.inj hnamed).symm
  obtain ⟨r, hr, hshown⟩ := Option.map_eq_some_iff.mp hstored
  have hone : records = [r] := by
    apply List.map_injective_iff.mpr (Option.some_injective _)
    exact hrecords.symm.trans (congrArg (fun x => [x]) hr)
  subst hone
  have hdigests : ∀ d ∈ [r].map (·.profileDigest), d ∈ [704] := by
    intro d hd
    rw [List.mem_singleton.mp hd]
    exact List.mem_singleton.mpr (congrArg Prod.snd hshown)
  have hinspects : Inspects (pathOf recipientCommands).2 inspecting.1 inspecting.2 [1] o
      (sampleContext "a" 0).host ⟨1006, "b", 22, 41⟩ ([r].map (·.profileDigest)) [704] :=
    ⟨hadmitted, rfl, rfl, hinside, hcompany, hreads, hdigests, .inl rfl⟩
  obtain ⟨t', inspected, haccepted, hshows⟩ := haccepts _ _ _ _ _ _ hinspects rfl (Int.le_refl _)
    (by decide)
  refine ⟨t', source, inspected, profiles, haccepted, ?_⟩
  have hrecord := congrArg (List.map Prod.fst) hshows
  rw [List.map_map, List.map_map] at hrecord
  exact hrecord.trans (congrArg (fun x => [x]) (congrArg Prod.fst hshown))

end DirectTrade
