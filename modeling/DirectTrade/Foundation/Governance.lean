import DirectTrade.Foundation.Organization
import DirectTrade.Foundation.Sizes
import DirectTrade.Library.HashChain
import Mathlib.Data.Set.Function

/-!
Forks of governance are attributable. Every head of an accepted history is consented to by
the people entitled to consent, and two histories of one organization part, if at all, at
two transitions of one head, each with a quorum of the controllers of that head.
-/

namespace DirectTrade.Foundation

open Library Outcome

section
variable [GovernanceCrypto]

omit [GovernanceCrypto] in
theorem nodup_of_controllers {value : List Uuid} {u : Unit} (h : controllers value = .ok u) :
    value.Nodup := by
  simp only [controllers, bind_eq_ok, demand_eq_ok] at h
  obtain ⟨_, -, hchain⟩ := h
  exact (List.isChain_iff_pairwise.mp hchain).imp fun hlt => Nat.ne_of_lt hlt

/-- A consent to exactly one act, signed by the operational quorum of a control head of its
author that the lookup vouches for. -/
structure ConsentsTo (heads : ControlLookup) (act : Act) (signed : Signed OrganizationConsent) :
    Prop where
  names : signed.body.toAct = act
  vouched : ∃ h, heads signed.body.personId signed.body.headDigest = some h ∧
    h.identityId = signed.body.personId ∧
    signed.body.headDigest = Crypto.digest (.control h) ∧
    (signed.signatures.map Signature.keyId).Nodup ∧
    h.operational.threshold ≤ signed.signatures.length ∧
    ∀ s ∈ signed.signatures, s.keyId ∈ h.operational.keys ∧
      GovernanceCrypto.verifyConsent s.keyId signed.body s.signature = true

/-- The authors of a set of consents. -/
def authors (consents : List (Signed OrganizationConsent)) : List Uuid :=
  consents.map (·.body.personId)

theorem quorum_of_verify {signed : Signed OrganizationConsent} {expected : Act} {person : Uuid}
    {h : Control} {now : Option ℤ}
    (hok : verifyOrganizationConsent signed expected person h now = .ok ()) :
    signed.body.toAct = expected ∧ h.identityId = signed.body.personId ∧
      signed.body.headDigest = Crypto.digest (.control h) ∧
      (signed.signatures.map Signature.keyId).Nodup ∧
      h.operational.threshold ≤ signed.signatures.length ∧
      ∀ s ∈ signed.signatures, s.keyId ∈ h.operational.keys ∧
        GovernanceCrypto.verifyConsent s.keyId signed.body s.signature = true := by
  simp only [verifyOrganizationConsent, bind_eq_ok, demand_eq_ok] at hok
  obtain ⟨_, -, _, ⟨hact, -⟩, _, ⟨hid, hdigest⟩, _, -, _, -, signers, hsigners, hthreshold⟩ := hok
  have hcollect := foldlM_collect Signature.keyId
    (P := fun s => s.keyId ∈ h.operational.keys ∧
      GovernanceCrypto.verifyConsent s.keyId signed.body s.signature = true) ?_ hsigners
  · obtain ⟨rfl, hnodup, hall⟩ := hcollect
    refine ⟨hact, hid, hdigest, hnodup, ?_, hall⟩
    simpa using hthreshold
  · intro seen s out hs
    simp only [consentSigner, bind_eq_ok, demand_eq_ok, pure_eq_ok] at hs
    obtain ⟨_, hfresh, _, hkey, _, hverify, rfl⟩ := hs
    exact ⟨rfl, hfresh, hkey, hverify⟩

theorem consentsTo_of_consentsFrom {consents : List (Signed OrganizationConsent)}
    {required seen : List Uuid} {act : Act} {heads : ControlLookup} {now : Option ℤ}
    (h : consentsFrom consents required act heads now = .ok seen) :
    seen = authors consents ∧ seen.Nodup ∧ (∀ c ∈ seen, c ∈ required) ∧
      ∀ c ∈ consents, ConsentsTo heads act c := by
  simp only [consentsFrom, bind_eq_ok, demand_eq_ok] at h
  obtain ⟨_, -, h⟩ := h
  have hcollect := foldlM_collect (fun c : Signed OrganizationConsent => c.body.personId)
    (P := fun c => c.body.personId ∈ required ∧ ConsentsTo heads act c) ?_ h
  · obtain ⟨rfl, hnodup, hall⟩ := hcollect
    refine ⟨rfl, hnodup, ?_, fun c hc => (hall c hc).2⟩
    intro person hperson
    obtain ⟨c, hc, rfl⟩ := List.mem_map.mp hperson
    exact (hall c hc).1
  · intro seen c out hc
    simp only [consentFrom, bind_eq_ok, demand_eq_ok, require_eq_ok, pure_eq_ok] at hc
    obtain ⟨_, ⟨hasked, hfresh⟩, head, hhead, _, hverify, rfl⟩ := hc
    obtain ⟨hact, hquorum⟩ := quorum_of_verify hverify
    exact ⟨rfl, hfresh, hasked, hact, head, hhead, hquorum⟩

/-- How a head follows another: the transition names it, and is consented to by a quorum of
its controllers and by every controller that is new. -/
structure Succeeds (heads : ControlLookup) (prior : VerifiedGovernance) (e : GovernanceEntry)
    (next : VerifiedGovernance) : Prop where
  expected : e.transition.expectedDigest = prior.headDigest
  leads : next = ⟨e.transition.head, governanceHeadDigest e.transition.head⟩
  consents : ∀ c ∈ e.consents, ConsentsTo heads
    ⟨prior.head.organizationId, .transition, governanceTransitionDigest e.transition⟩ c
  distinct : (authors e.consents).Nodup
  quorum : prior.head.threshold ≤
    (prior.head.controllers.filter (· ∈ authors e.consents)).length
  added : ∀ c ∈ next.head.controllers, c ∉ prior.head.controllers → c ∈ authors e.consents
  people : next.head.controllers.Nodup

theorem succeeds_of_apply {cur next : VerifiedGovernance} {e : GovernanceEntry}
    {heads : ControlLookup} {now : Option ℤ}
    (h : applyGovernanceTransition cur e heads now = .ok next) : Succeeds heads cur e next := by
  simp only [applyGovernanceTransition, bind_eq_ok, demand_eq_ok, pure_eq_ok] at h
  obtain ⟨_, -, _, hparse, _, ⟨horganization, hexpected, -⟩, _, -, _, -, consented, hconsents, _,
    hquorum, _, hadded, rfl⟩ := h
  simp only [parseTransition, bind_eq_ok] at hparse
  obtain ⟨_, -, _, hcontrollers, -⟩ := hparse
  obtain ⟨rfl, hdistinct, -, hall⟩ := consentsTo_of_consentsFrom hconsents
  rw [horganization] at hall
  refine ⟨hexpected, rfl, hall, hdistinct, hquorum, ?_, nodup_of_controllers hcontrollers⟩
  intro c hc hnew
  refine hadded c (List.mem_filter.mpr ⟨hc, ?_⟩)
  simpa using hnew

/-- The heads of a replay are the heads of its transitions, each following the one before. -/
theorem replayGovernance_eq_ok {heads : ControlLookup} {current : VerifiedGovernance}
    {entries : List GovernanceEntry} {later : List VerifiedGovernance}
    (h : replayGovernance heads current entries = .ok later) :
    later = entries.map (fun e => ⟨e.transition.head, governanceHeadDigest e.transition.head⟩) ∧
      ∀ (n : ℕ) e, entries[n]? = some e → ∃ prior next, (current :: later)[n]? = some prior ∧
        later[n]? = some next ∧ Succeeds heads prior e next := by
  induction entries generalizing current later with
  | nil =>
    obtain rfl := Except.ok.inj h
    exact ⟨rfl, nofun⟩
  | cons e rest ih =>
    simp only [replayGovernance, bind_eq_ok, pure_eq_ok] at h
    obtain ⟨next, hnext, tail, htail, rfl⟩ := h
    obtain ⟨hheads, hfollows⟩ := ih htail
    have hfirst := succeeds_of_apply hnext
    refine ⟨?_, ?_⟩
    · rw [List.map_cons, ← hheads, hfirst.leads]
    · intro n e' he'
      cases n with
      | zero =>
        obtain rfl : e = e' := Option.some.inj he'
        exact ⟨current, next, rfl, rfl, hfirst⟩
      | succ n => exact hfollows n e' he'

/-- Who stands behind an accepted history. -/
structure Attributable (heads : ControlLookup) (log : GovernanceLog) (v : VerifiedGovernanceLog) :
    Prop where
  organization : v.organizationId = organizationId log.genesis
  first : ∃ g, v.heads[0]? = some g ∧ g.head =
    ⟨v.organizationId, 0, none, log.genesis.controllers, log.genesis.threshold⟩ ∧
    g.headDigest = governanceHeadDigest g.head
  consents : ∀ c ∈ log.consents, ConsentsTo heads
    ⟨v.organizationId, .genesis, organizationGenesisDigest log.genesis⟩ c
  genesis : ∀ c ∈ log.genesis.controllers, c ∈ authors log.consents
  people : ∀ g ∈ v.heads, g.head.controllers.Nodup
  length : v.heads.length = log.entries.length + 1
  later : ∀ n prior next, v.heads[n]? = some prior → v.heads[n + 1]? = some next →
    ∃ e, log.entries[n]? = some e ∧ Succeeds heads prior e next

theorem verifyGovernanceLog_eq_ok {log : GovernanceLog} {heads : ControlLookup}
    {v : VerifiedGovernanceLog} (h : verifyGovernanceLog log heads = .ok v) :
    ∃ first later, verifyOrganizationGenesis log.genesis log.consents heads none = .ok first ∧
      replayGovernance heads first log.entries = .ok later ∧ v.heads = first :: later ∧
      v.organizationId = organizationId log.genesis := by
  simp only [verifyGovernanceLog, bind_eq_ok, pure_eq_ok] at h
  obtain ⟨_, -, _, -, _, -, first, hfirst, later, hlater, rfl⟩ := h
  exact ⟨first, later, hfirst, hlater, rfl, rfl⟩

/-- A log that may be copied is verified by the replay of its entries. -/
theorem verifyGovernanceLog_of_replay {log : GovernanceLog} {heads : ControlLookup}
    {first : VerifiedGovernance} {later : List VerifiedGovernance}
    (hcopy : copyIdentityData log.json = .ok ()) (hformat : log.format = governanceLogFormat)
    (hlength : log.entries.length ≤ maxGovernanceEntries)
    (hfirst : verifyOrganizationGenesis log.genesis log.consents heads none = .ok first)
    (hlater : replayGovernance heads first log.entries = .ok later) :
    ∃ v, verifyGovernanceLog log heads = .ok v ∧ v.organizationId = organizationId log.genesis ∧
      v.heads = first :: later := by
  refine ⟨⟨organizationId log.genesis, organizationGenesisDigest log.genesis, first :: later,
    later.getLastD first, governanceOf (later.getLastD first).head⟩, ?_, rfl, rfl⟩
  rw [verifyGovernanceLog, hcopy, demand_true _ _ hformat, demand_true _ _ hlength, hfirst]
  simp only [ok_bind, hlater, pure_eq]

theorem genesis_eq_ok {g : OrganizationGenesis} {consents : List (Signed OrganizationConsent)}
    {heads : ControlLookup} {now : Option ℤ} {first : VerifiedGovernance}
    (h : verifyOrganizationGenesis g consents heads now = .ok first) :
    first.head = ⟨organizationId g, 0, none, g.controllers, g.threshold⟩ ∧
      first.headDigest = governanceHeadDigest first.head ∧
      (∀ c ∈ consents, ConsentsTo heads
        ⟨organizationId g, .genesis, organizationGenesisDigest g⟩ c) ∧
      (∀ c ∈ g.controllers, c ∈ authors consents) ∧ g.controllers.Nodup := by
  simp only [verifyOrganizationGenesis, bind_eq_ok, demand_eq_ok, pure_eq_ok] at h
  obtain ⟨_, hparse, consented, hconsents, _, hall, rfl⟩ := h
  obtain ⟨rfl, -, -, heach⟩ := consentsTo_of_consentsFrom hconsents
  simp only [parseOrganizationGenesis, bind_eq_ok] at hparse
  obtain ⟨_, hcontrollers, -⟩ := hparse
  exact ⟨rfl, rfl, heach, hall, nodup_of_controllers hcontrollers⟩

theorem attributable_of_verified {log : GovernanceLog} {heads : ControlLookup}
    {v : VerifiedGovernanceLog} (h : verifyGovernanceLog log heads = .ok v) :
    Attributable heads log v := by
  obtain ⟨first, later, hgenesis, hreplay, hheads, horganization⟩ := verifyGovernanceLog_eq_ok h
  obtain ⟨hhead, hdigest, hconsents, hall, hpeople⟩ := genesis_eq_ok hgenesis
  obtain ⟨hlater, hfollows⟩ := replayGovernance_eq_ok hreplay
  have hlength : later.length = log.entries.length := by rw [hlater, List.length_map]
  refine ⟨horganization, ⟨first, by rw [hheads]; rfl, ?_, hdigest⟩, ?_, hall, ?_, ?_, ?_⟩
  · rw [horganization, hhead]
  · rw [horganization]
    exact hconsents
  · intro g hg
    rw [hheads] at hg
    rcases List.mem_cons.mp hg with rfl | hg
    · rw [hhead]
      exact hpeople
    · obtain ⟨n, hn⟩ := List.getElem?_of_mem hg
      have hentry : n < log.entries.length := hlength ▸ (List.getElem?_eq_some_iff.mp hn).1
      obtain ⟨prior, next, -, hnext, hsucceeds⟩ := hfollows n _ (List.getElem?_eq_getElem hentry)
      obtain rfl := Option.some.inj (hn.symm.trans hnext)
      exact hsucceeds.people
  · rw [hheads, List.length_cons, hlength]
  · intro n prior next hprior hnext
    rw [hheads] at hprior hnext
    have hn : n < log.entries.length := by
      have hbound := (List.getElem?_eq_some_iff.mp hnext).1
      rw [List.length_cons] at hbound
      omega
    have he := List.getElem?_eq_getElem hn
    obtain ⟨prior', next', hprior', hnext', hsucceeds⟩ := hfollows n _ he
    obtain rfl := Option.some.inj (hprior.symm.trans hprior')
    obtain rfl := Option.some.inj (hnext.symm.trans hnext')
    exact ⟨_, he, hsucceeds⟩

/-- The documents that the digests of a history stand for. -/
def GovernanceLog.documents (log : GovernanceLog) : Set GovernanceDocument :=
  {.genesis log.genesis} ∪
    {d | ∃ e ∈ log.entries, d = .transition e.transition ∨ d = .head e.transition.head}

/-- Digests tell the documents of a set apart, and 128 bits of them the geneses. -/
structure CollisionFree (D : Set GovernanceDocument) : Prop where
  digests : D.InjOn GovernanceCrypto.digestOf
  identifiers : {g | GovernanceDocument.genesis g ∈ D}.InjOn organizationId

/-- Two histories agree up to a head and leave it by two transitions, each of which names
that head and has the consent of a quorum of its controllers. -/
def Forks (heads heads' : ControlLookup) (log log' : GovernanceLog)
    (v v' : VerifiedGovernanceLog) : Prop :=
  ∃ n prior e e' next next', v.heads.take (n + 1) = v'.heads.take (n + 1) ∧
    v.heads[n]? = some prior ∧ log.entries[n]? = some e ∧ log'.entries[n]? = some e' ∧
    v.heads[n + 1]? = some next ∧ v'.heads[n + 1]? = some next' ∧
    e.transition ≠ e'.transition ∧ next.headDigest ≠ next'.headDigest ∧
    Succeeds heads prior e next ∧ Succeeds heads' prior e' next'

theorem mem_of_entry {log : GovernanceLog} {n : ℕ} {e : GovernanceEntry}
    (h : log.entries[n]? = some e) :
    .transition e.transition ∈ log.documents ∧ .head e.transition.head ∈ log.documents :=
  ⟨.inr ⟨e, List.mem_of_getElem? h, .inl rfl⟩, .inr ⟨e, List.mem_of_getElem? h, .inr rfl⟩⟩

/-- Different transitions lead to heads with different digests. -/
theorem headDigest_ne {D : Set GovernanceDocument} (hD : CollisionFree D)
    {t t' : GovernanceTransition} (ht : .transition t ∈ D) (ht' : .transition t' ∈ D)
    (hhead : .head t.head ∈ D) (hhead' : .head t'.head ∈ D) (hne : t ≠ t') :
    governanceHeadDigest t.head ≠ governanceHeadDigest t'.head := by
  intro hdigest
  have heads := GovernanceDocument.head.inj (hD.digests hhead hhead' hdigest)
  have hprevious : governanceTransitionDigest t = governanceTransitionDigest t' :=
    Option.some.inj (congrArg GovernanceHead.previousDigest heads)
  exact hne (GovernanceDocument.transition.inj (hD.digests ht ht' hprevious))

/-- Histories of one organization start at one head. -/
theorem first_eq {D : Set GovernanceDocument} (hD : CollisionFree D) {log log' : GovernanceLog}
    (hlog : log.documents ⊆ D) (hlog' : log'.documents ⊆ D)
    (hid : organizationId log.genesis = organizationId log'.genesis)
    {heads heads' : ControlLookup} {first first' : VerifiedGovernance}
    (h : verifyOrganizationGenesis log.genesis log.consents heads none = .ok first)
    (h' : verifyOrganizationGenesis log'.genesis log'.consents heads' none = .ok first') :
    first = first' := by
  have hgenesis := hD.identifiers (hlog (.inl rfl)) (hlog' (.inl rfl)) hid
  obtain ⟨hhead, hdigest, -⟩ := genesis_eq_ok h
  obtain ⟨hhead', hdigest', -⟩ := genesis_eq_ok h'
  have heq : first.head = first'.head := by rw [hhead, hhead', hgenesis]
  obtain ⟨head, digest⟩ := first
  obtain ⟨head', digest'⟩ := first'
  obtain rfl : head = head' := heq
  obtain rfl : digest = digest' := hdigest.trans hdigest'.symm
  rfl

theorem prefix_or_forks {D : Set GovernanceDocument} (hD : CollisionFree D)
    {heads heads' : ControlLookup} {log log' : GovernanceLog} {v v' : VerifiedGovernanceLog}
    (h : verifyGovernanceLog log heads = .ok v) (h' : verifyGovernanceLog log' heads' = .ok v')
    (hlog : log.documents ⊆ D) (hlog' : log'.documents ⊆ D)
    (hid : v.organizationId = v'.organizationId) :
    v.heads <+: v'.heads ∨ v'.heads <+: v.heads ∨ Forks heads heads' log log' v v' := by
  obtain ⟨first, later, hgenesis, hreplay, hheads, horganization⟩ := verifyGovernanceLog_eq_ok h
  obtain ⟨first', later', hgenesis', hreplay', hheads', horganization'⟩ :=
    verifyGovernanceLog_eq_ok h'
  rw [horganization, horganization'] at hid
  obtain rfl := first_eq hD hlog hlog' hid hgenesis hgenesis'
  obtain ⟨hlater, hfollows⟩ := replayGovernance_eq_ok hreplay
  obtain ⟨hlater', hfollows'⟩ := replayGovernance_eq_ok hreplay'
  -- the heads after the first are the heads of the transitions, so the transitions decide
  let headOf : GovernanceTransition → VerifiedGovernance := fun t =>
    ⟨t.head, governanceHeadDigest t.head⟩
  have hmap : later = (log.entries.map GovernanceEntry.transition).map headOf := by
    rw [hlater, List.map_map]
    rfl
  have hmap' : later' = (log'.entries.map GovernanceEntry.transition).map headOf := by
    rw [hlater', List.map_map]
    rfl
  rw [Forks, hheads, hheads']
  rcases HashChain.prefix_or_parts (log.entries.map GovernanceEntry.transition)
    (log'.entries.map GovernanceEntry.transition) with hextends | hextends | hparts
  · refine .inl (List.cons_prefix_cons.mpr ⟨rfl, ?_⟩)
    rw [hmap, hmap']
    exact hextends.map headOf
  · refine .inr (.inl (List.cons_prefix_cons.mpr ⟨rfl, ?_⟩))
    rw [hmap, hmap']
    exact hextends.map headOf
  · obtain ⟨n, t, t', ht, ht', hne, htake⟩ := hparts
    rw [List.getElem?_map, Option.map_eq_some_iff] at ht ht'
    obtain ⟨e, he, rfl⟩ := ht
    obtain ⟨e', he', rfl⟩ := ht'
    obtain ⟨prior, next, hprior, hnext, hsucceeds⟩ := hfollows n e he
    obtain ⟨prior', next', hprior', hnext', hsucceeds'⟩ := hfollows' n e' he'
    have hagree : (first :: later).take (n + 1) = (first :: later').take (n + 1) := by
      rw [List.take_succ_cons, List.take_succ_cons, hmap, hmap', ← List.map_take, htake,
        List.map_take]
    have hsame : prior = prior' := by
      have hat : (first :: later)[n]? = (first :: later')[n]? := by
        rw [← List.getElem?_take_of_lt (Nat.lt_succ_self n), hagree,
          List.getElem?_take_of_lt (Nat.lt_succ_self n)]
      rw [hprior, hprior'] at hat
      exact Option.some.inj hat
    subst hsame
    have hmem := mem_of_entry he
    have hmem' := mem_of_entry he'
    refine .inr (.inr ⟨n, prior, e, e', next, next', hagree, hprior, he, he', hnext, hnext',
      hne, ?_, hsucceeds, hsucceeds'⟩)
    rw [hsucceeds.leads, hsucceeds'.leads]
    exact headDigest_ne hD (hlog hmem.1) (hlog' hmem'.1) (hlog hmem.2) (hlog' hmem'.2) hne

/-- Whoever is entitled to consent has consented to every head of an accepted history, and
two accepted histories of one organization are one a prefix of the other or fork at a head
whose own controllers let it be left twice. -/
theorem governance_forks_attributable :
    (∀ heads log v, verifyGovernanceLog log heads = .ok v → Attributable heads log v) ∧
    ∀ D, CollisionFree D → ∀ heads heads' log log' v v',
      verifyGovernanceLog log heads = .ok v → verifyGovernanceLog log' heads' = .ok v' →
      log.documents ⊆ D → log'.documents ⊆ D → v.organizationId = v'.organizationId →
      v.heads.map VerifiedGovernance.headDigest <+: v'.heads.map VerifiedGovernance.headDigest ∨
        v'.heads.map VerifiedGovernance.headDigest <+: v.heads.map VerifiedGovernance.headDigest ∨
        Forks heads heads' log log' v v' := by
  refine ⟨fun heads log v h => attributable_of_verified h, ?_⟩
  intro D hD heads heads' log log' v v' h h' hlog hlog' hid
  rcases prefix_or_forks hD h h' hlog hlog' hid with hextends | hextends | hforks
  · exact .inl (hextends.map _)
  · exact .inr (.inl (hextends.map _))
  · exact .inr (.inr hforks)

end

/-- A signature names its key, and a digest the people and the place of its document. -/
@[reducible] def sampleGovernanceCrypto : GovernanceCrypto :=
  { sampleCrypto with
    digestOf := fun
      | .genesis g => 2 ^ 128 * (g.nonce + 1)
      | .transition t => 64 * (64 * t.controllers.sum + t.sequence) + 6
      | .head b => 64 * (64 * b.controllers.sum + b.sequence) + 7
    verifyConsent := fun k _ s => s == k }

def sampleOrganization : OrganizationGenesis := ⟨77, 7, [7], 1⟩

/-- A control head of a person, which has one operational key. -/
def samplePersonHead (person : Uuid) : Control := ⟨person, 0, none, ⟨[person], 1⟩, ⟨[99], 1⟩, 0⟩

/-- The founder adds a second person. -/
def sampleAddition (person : Uuid) : GovernanceTransition :=
  ⟨78, 64 * (64 * 7 + 0) + 7, 1, [7, person], 1, 0, 1000⟩

def sampleConsent (act : Act) (person : Uuid) : Signed OrganizationConsent :=
  letI := sampleGovernanceCrypto
  ⟨⟨act, person, Crypto.digest (.control (samplePersonHead person)), 0, 1000⟩, [⟨person, person⟩]⟩

/-- The history in which the founder adds a person. -/
def sampleGovernanceLog (person : Uuid) : GovernanceLog :=
  letI := sampleGovernanceCrypto
  let t := sampleAddition person
  let act : Act := ⟨78, .transition, governanceTransitionDigest t⟩
  { format := governanceLogFormat, genesis := sampleOrganization
    consents := [sampleConsent ⟨78, .genesis, 2 ^ 128 * 78⟩ 7]
    entries := [⟨t, [sampleConsent act 7, sampleConsent act person]⟩] }

/-- The documents of the histories in which the founder adds one person and another. -/
def sampleDocuments : List GovernanceDocument :=
  letI := sampleGovernanceCrypto
  [.genesis sampleOrganization, .transition (sampleAddition 8), .head (sampleAddition 8).head,
    .transition (sampleAddition 9), .head (sampleAddition 9).head]

theorem sampleDocuments_collisionFree :
    letI := sampleGovernanceCrypto
    CollisionFree {d | d ∈ sampleDocuments} := by
  let := sampleGovernanceCrypto
  have hdigests : ∀ a ∈ sampleDocuments, ∀ b ∈ sampleDocuments,
      GovernanceCrypto.digestOf a = GovernanceCrypto.digestOf b → a = b := by decide
  refine ⟨fun a ha b hb => hdigests a ha b hb, fun g hg g' hg' _ => ?_⟩
  have honly : ∀ g, GovernanceDocument.genesis g ∈ sampleDocuments → g = sampleOrganization := by
    intro g hg
    simpa [sampleDocuments] using hg
  exact (honly g hg).trans (honly g' hg').symm

/-- The sample histories are small enough to be copied. -/
theorem copy_sampleGovernanceLog (person : Uuid) :
    letI := sampleGovernanceCrypto
    copyIdentityData (sampleGovernanceLog person).json = .ok () := by
  let := sampleGovernanceCrypto
  have hkey : ∀ k : KeyId, Crypto.keyText k = "ed25519:key" := fun _ => rfl
  have hsignature : ∀ k : DirectTrade.Signature, Crypto.signatureText k = "ed25519:signature" :=
    fun _ => rfl
  simp only [copyIdentityData, bind_eq_ok, demand_eq_ok, GovernanceLog.json, sampleGovernanceLog,
    GovernanceEntry.json, consentsJson, Signed.json, sampleConsent, OrganizationConsent.json,
    GovernanceTransition.json, OrganizationGenesis.json, Signature.json, keyJson,
    sampleOrganization, sampleAddition, List.map_cons, List.map_nil, hkey, hsignature]
  refine ⟨(), ⟨by simp, by simp⟩, (), ?_, ?_⟩
  · simp [textLength, governanceLogFormat, ConsentSubject.text]
  · simp only [Json.bytes_obj, Json.bytes_arr, Json.bytes_str, Json.bytes_num, bytes_uuidJson,
      bytes_digestJson, List.map_cons, List.map_nil, List.length_cons, List.length_nil]
    decide

/-- The founder signs two transitions of the first head. -/
theorem governance_forks_attributable_sample :
    letI := sampleGovernanceCrypto
    let heads : ControlLookup := fun person _ => some (samplePersonHead person)
    ∃ v v', verifyGovernanceLog (sampleGovernanceLog 8) heads = .ok v ∧
      verifyGovernanceLog (sampleGovernanceLog 9) heads = .ok v' ∧
      Forks heads heads (sampleGovernanceLog 8) (sampleGovernanceLog 9) v v' := by
  let := sampleGovernanceCrypto
  intro heads
  have hrun : ∀ person ∈ [8, 9], (do
      let log := sampleGovernanceLog person
      let first ← verifyOrganizationGenesis log.genesis log.consents heads none
      let later ← replayGovernance heads first log.entries
      pure ((first :: later).map VerifiedGovernance.headDigest)) =
      Except.ok [28679, 64 * (64 * (7 + person) + 1) + 7] := by decide
  have hverified : ∀ person ∈ [8, 9], ∃ v,
      verifyGovernanceLog (sampleGovernanceLog person) heads = .ok v ∧ v.organizationId = 78 ∧
      v.heads.map VerifiedGovernance.headDigest = [28679, 64 * (64 * (7 + person) + 1) + 7] := by
    intro person hperson
    have hrun := hrun person hperson
    simp only [bind_eq_ok, pure_eq_ok] at hrun
    obtain ⟨first, hfirst, later, hlater, hdigests⟩ := hrun
    obtain ⟨v, hv, hid, hheads⟩ := verifyGovernanceLog_of_replay (copy_sampleGovernanceLog person)
      rfl (by decide : 1 ≤ maxGovernanceEntries) hfirst hlater
    have horganization : organizationId sampleOrganization = 78 := by decide
    exact ⟨v, hv, hid.trans horganization, hheads ▸ hdigests⟩
  obtain ⟨v, hv, hid, hdigests⟩ := hverified 8 (by simp)
  obtain ⟨v', hv', hid', hdigests'⟩ := hverified 9 (by simp)
  refine ⟨v, v', hv, hv', ?_⟩
  have hsub : ∀ person ∈ [8, 9],
      (sampleGovernanceLog person).documents ⊆ {d | d ∈ sampleDocuments} := by
    intro person hperson d hd
    rcases hd with rfl | ⟨e, he, hd⟩
    · exact List.mem_cons_self ..
    · obtain rfl := List.mem_singleton.mp he
      simp only [List.mem_cons, List.not_mem_nil, or_false] at hperson
      rcases hperson with rfl | rfl <;> rcases hd with rfl | rfl <;> simp [sampleDocuments]
  rcases governance_forks_attributable.2 _ sampleDocuments_collisionFree heads heads _ _ v v' hv hv'
    (hsub 8 (by simp)) (hsub 9 (by simp)) (hid.trans hid'.symm) with hextends | hextends | hforks
  · rw [hdigests, hdigests'] at hextends
    exact absurd hextends (by decide)
  · rw [hdigests, hdigests'] at hextends
    exact absurd hextends (by decide)
  · exact hforks

end DirectTrade.Foundation
