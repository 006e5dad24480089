import DirectTrade.Foundation.Governance
import DirectTrade.Foundation.Weights

/-!
A governance history accepted entry by entry, and the log that presents it. The host detaches
each entry on its own; the verifier of the log detaches the log as one value, so a history is
presentable exactly as long as the whole log lies within the limits of one copy.
-/

namespace DirectTrade.Foundation

open Library Outcome Json

section
variable [GovernanceCrypto]

/-- Head 0 at a host: the genesis and every consent are detached before they are judged. -/
def acceptGenesis (g : OrganizationGenesis) (consents : List (Signed OrganizationConsent))
    (heads : ControlLookup) (now : ℤ) : Checked VerifiedGovernance := do
  copyIdentityData g.json
  each (fun c => copyIdentityData (c.json OrganizationConsent.json)) consents
  verifyOrganizationGenesis g consents heads now

/-- The next head at a host. -/
def acceptTransition (cur : VerifiedGovernance) (e : GovernanceEntry) (heads : ControlLookup)
    (now : ℤ) : Checked VerifiedGovernance := do
  copyIdentityData e.json
  applyGovernanceTransition cur e heads now

/-- A later lookup vouches for every head that an earlier one did. -/
def Vouches (heads vouched : ControlLookup) : Prop :=
  ∀ person digest h, vouched person digest = some h → heads person digest = some h

/-- A history of governance that hosts accepted one entry after the other, each at its own
clock and with the control heads established then. -/
inductive LiveGovernance (heads : ControlLookup) (g : OrganizationGenesis)
    (consents : List (Signed OrganizationConsent)) :
    List GovernanceEntry → List VerifiedGovernance → Prop where
  | genesis {vouched : ControlLookup} {now : ℤ} {first : VerifiedGovernance}
      (vouches : Vouches heads vouched)
      (accepted : acceptGenesis g consents vouched now = .ok first) :
      LiveGovernance heads g consents [] [first]
  | transition {entries : List GovernanceEntry} {states : List VerifiedGovernance}
      {cur next : VerifiedGovernance} {e : GovernanceEntry} {vouched : ControlLookup} {now : ℤ}
      (earlier : LiveGovernance heads g consents entries states)
      (current : states.getLast? = some cur) (vouches : Vouches heads vouched)
      (accepted : acceptTransition cur e vouched now = .ok next) :
      LiveGovernance heads g consents (entries ++ [e]) (states ++ [next])

/-- The log that presents a history. -/
def presented (g : OrganizationGenesis) (consents : List (Signed OrganizationConsent))
    (entries : List GovernanceEntry) : GovernanceLog :=
  ⟨governanceLogFormat, g, consents, entries⟩

omit [GovernanceCrypto] in
theorem window_timeless {issuedAt expiresAt now : ℤ} {what : String} {u : Unit}
    (h : Organization.window issuedAt expiresAt (some now) what = .ok u) :
    Organization.window issuedAt expiresAt none what = .ok () := by
  simp only [Organization.window, bind_eq_ok, demand_eq_ok] at h ⊢
  obtain ⟨_, hwindow, -⟩ := h
  refine ⟨(), hwindow, (), ?_, ?_⟩ <;>
    · intro at_ hnone
      cases hnone

variable {heads vouched : ControlLookup}

theorem consent_timeless {signed : Signed OrganizationConsent} {expected : Act} {person : Uuid}
    {h : Control} {now : ℤ} {u : Unit}
    (hok : verifyOrganizationConsent signed expected person h (some now) = .ok u) :
    verifyOrganizationConsent signed expected person h none = .ok () := by
  simp only [verifyOrganizationConsent, bind_eq_ok, demand_eq_ok] at hok ⊢
  obtain ⟨_, hparse, _, hact, _, hhead, _, hwindow, hrest⟩ := hok
  exact ⟨(), hparse, (), hact, (), hhead, (), window_timeless hwindow, hrest⟩

theorem consentsFrom_timeless (hv : Vouches heads vouched)
    {consents : List (Signed OrganizationConsent)} {required seen : List Uuid} {act : Act} {now : ℤ}
    (h : consentsFrom consents required act vouched (some now) = .ok seen) :
    consentsFrom consents required act heads none = .ok seen := by
  simp only [consentsFrom, bind_eq_ok] at h ⊢
  obtain ⟨_, hbound, h⟩ := h
  refine ⟨(), hbound, foldlM_of_steps ?_ h⟩
  intro c _ m n hc
  simp only [consentFrom, bind_eq_ok, require_eq_ok] at hc ⊢
  obtain ⟨_, hasked, head, hhead, _, hverify, hn⟩ := hc
  exact ⟨(), hasked, head, hv _ _ _ hhead, (), consent_timeless hverify, hn⟩

theorem genesis_timeless (hv : Vouches heads vouched) {g : OrganizationGenesis}
    {consents : List (Signed OrganizationConsent)} {now : ℤ} {first : VerifiedGovernance}
    (h : verifyOrganizationGenesis g consents vouched (some now) = .ok first) :
    verifyOrganizationGenesis g consents heads none = .ok first := by
  simp only [verifyOrganizationGenesis, bind_eq_ok] at h ⊢
  obtain ⟨_, hparse, consented, hconsents, hrest⟩ := h
  exact ⟨(), hparse, consented, consentsFrom_timeless hv hconsents, hrest⟩

theorem transition_timeless (hv : Vouches heads vouched) {cur next : VerifiedGovernance}
    {e : GovernanceEntry} {now : ℤ}
    (h : applyGovernanceTransition cur e vouched (some now) = .ok next) :
    applyGovernanceTransition cur e heads none = .ok next := by
  simp only [applyGovernanceTransition, bind_eq_ok] at h ⊢
  obtain ⟨_, hdigest, _, hparse, _, hstale, _, hwindow, _, hchange, consented, hconsents,
    hrest⟩ := h
  exact ⟨(), hdigest, (), hparse, (), hstale, (), window_timeless hwindow, (), hchange, consented,
    consentsFrom_timeless hv hconsents, hrest⟩

theorem replayGovernance_append {first next : VerifiedGovernance} {entries : List GovernanceEntry}
    {later : List VerifiedGovernance} {e : GovernanceEntry}
    (h : replayGovernance heads first entries = .ok later)
    (hnext : applyGovernanceTransition (later.getLastD first) e heads none = .ok next) :
    replayGovernance heads first (entries ++ [e]) = .ok (later ++ [next]) := by
  induction entries generalizing first later with
  | nil =>
    obtain rfl := Except.ok.inj h
    have hfirst : applyGovernanceTransition first e heads none = .ok next := hnext
    simp [replayGovernance, hfirst, pure_eq]
  | cons f rest ih =>
    simp only [replayGovernance, bind_eq_ok, pure_eq_ok] at h
    obtain ⟨second, hsecond, tail, htail, rfl⟩ := h
    have hlast : (second :: tail).getLastD first = tail.getLastD second := by
      rw [List.getLastD_cons]
    rw [hlast] at hnext
    rw [List.cons_append, replayGovernance, hsecond, ok_bind, ih htail hnext]
    rfl

/-- A replay reproduces a live history. -/
theorem replay_of_live {g : OrganizationGenesis} {consents : List (Signed OrganizationConsent)}
    {entries : List GovernanceEntry} {states : List VerifiedGovernance}
    (h : LiveGovernance heads g consents entries states) :
    ∃ first later, states = first :: later ∧
      verifyOrganizationGenesis g consents heads none = .ok first ∧
      replayGovernance heads first entries = .ok later := by
  induction h with
  | @genesis vouched now first hvouches haccepted =>
    simp only [acceptGenesis, bind_eq_ok] at haccepted
    obtain ⟨_, -, _, -, hgenesis⟩ := haccepted
    exact ⟨first, [], rfl, genesis_timeless hvouches hgenesis, rfl⟩
  | @transition entries states cur next e vouched now _ hcurrent hvouches haccepted ih =>
    obtain ⟨first, later, rfl, hgenesis, hreplay⟩ := ih
    simp only [acceptTransition, bind_eq_ok] at haccepted
    obtain ⟨_, -, htransition⟩ := haccepted
    refine ⟨first, later ++ [next], rfl, hgenesis, replayGovernance_append hreplay ?_⟩
    have hlast : later.getLastD first = cur := by
      rw [List.getLast?_cons, ← List.getLastD_eq_getLast?] at hcurrent
      exact Option.some.inj hcurrent
    rw [hlast]
    exact transition_timeless hvouches htransition

omit [GovernanceCrypto] in
theorem copyIdentityData_eq_ok (value : Json) (u : Unit) :
    copyIdentityData value = .ok u ↔
      (value.nodes ≤ 16384 ∧ value.depth ≤ 16) ∧ value.plain = true ∧
        value.bytes ≤ 1024 * 1024 := by
  simp only [copyIdentityData, bind_eq_ok, demand_eq_ok, exists_const]

theorem depth_consents (consents : List (Signed OrganizationConsent)) :
    (consentsJson consents).depth ≤ 4 := by
  refine depth_arr_le fun j hj => ?_
  obtain ⟨c, -, rfl⟩ := List.mem_map.mp hj
  have hbody : c.body.json.depth = 1 := by simp [OrganizationConsent.json]
  have hsignatures : (Json.arr (c.signatures.map Signature.json)).depth ≤ 2 := by
    refine depth_arr_le fun j hj => ?_
    obtain ⟨s, -, rfl⟩ := List.mem_map.mp hj
    simp [Signature.json, keyJson]
  rw [Signed.json, depth_obj]
  simp only [List.map_cons, List.map_nil, List.foldr_cons, List.foldr_nil, hbody]
  omega

omit [GovernanceCrypto] in
theorem bytes_transition (t : GovernanceTransition) :
    t.json.bytes = 210 + (Json.arr (t.controllers.map uuidJson)).bytes +
      (Json.num t.sequence).bytes + (Json.num t.threshold).bytes + (Json.num t.issuedAt).bytes +
      (Json.num t.expiresAt).bytes := by
  simp [-bytes_arr, -bytes_num, GovernanceTransition.json, textBytes, charBytes]
  omega

theorem bytes_governanceEntry (e : GovernanceEntry) :
    e.json.bytes = 27 + e.transition.json.bytes + (consentsJson e.consents).bytes := by
  simp [-bytes_arr, GovernanceEntry.json, textBytes, charBytes]
  omega

omit [GovernanceCrypto] in
theorem bytes_genesis (g : OrganizationGenesis) :
    g.json.bytes = 125 + (Json.arr (g.controllers.map uuidJson)).bytes +
      (Json.num g.threshold).bytes := by
  simp [-bytes_arr, -bytes_num, OrganizationGenesis.json, textBytes, charBytes]
  omega

theorem bytes_log (l : GovernanceLog) :
    l.json.bytes = 45 + textBytes l.format + l.genesis.json.bytes +
      (consentsJson l.consents).bytes +
      (Json.arr (l.entries.map GovernanceEntry.json)).bytes := by
  simp [-bytes_arr, GovernanceLog.json, textBytes, charBytes]
  omega

theorem depth_entry (e : GovernanceEntry) : e.json.depth ≤ 5 := by
  have hconsents := depth_consents e.consents
  have hcontrollers : (Json.arr (e.transition.controllers.map uuidJson)).depth ≤ 1 := by
    refine depth_arr_le fun j hj => ?_
    obtain ⟨id, -, rfl⟩ := List.mem_map.mp hj
    exact Nat.le_refl _
  have htransition : e.transition.json.depth ≤ 2 := by
    rw [GovernanceTransition.json, depth_obj]
    simp only [List.map_cons, List.map_nil, List.foldr_cons, List.foldr_nil, depth_uuidJson,
      depth_digestJson, depth_num]
    omega
  rw [GovernanceEntry.json, depth_obj]
  simp only [List.map_cons, List.map_nil, List.foldr_cons, List.foldr_nil]
  omega

theorem depth_log (log : GovernanceLog) : log.json.depth ≤ 7 := by
  have hconsents := depth_consents log.consents
  have hcontrollers : (Json.arr (log.genesis.controllers.map uuidJson)).depth ≤ 1 := by
    refine depth_arr_le fun j hj => ?_
    obtain ⟨id, -, rfl⟩ := List.mem_map.mp hj
    exact Nat.le_refl _
  have hgenesis : log.genesis.json.depth ≤ 2 := by
    rw [OrganizationGenesis.json, depth_obj]
    simp only [List.map_cons, List.map_nil, List.foldr_cons, List.foldr_nil, depth_uuidJson,
      depth_num]
    omega
  have hentries : (Json.arr (log.entries.map GovernanceEntry.json)).depth ≤ 6 := by
    refine depth_arr_le fun j hj => ?_
    obtain ⟨e, -, rfl⟩ := List.mem_map.mp hj
    exact depth_entry e
  rw [GovernanceLog.json, depth_obj]
  simp only [List.map_cons, List.map_nil, List.foldr_cons, List.foldr_nil, depth_str]
  omega

/-- Every part of a live history was detached on its own. -/
theorem plain_of_live {g : OrganizationGenesis} {consents : List (Signed OrganizationConsent)}
    {entries : List GovernanceEntry} {states : List VerifiedGovernance}
    (h : LiveGovernance heads g consents entries states) :
    g.json.plain = true ∧ (consentsJson consents).plain = true ∧
      ∀ e ∈ entries, e.json.plain = true := by
  induction h with
  | @genesis vouched now first _ haccepted =>
    simp only [acceptGenesis, bind_eq_ok, each_eq_ok, copyIdentityData_eq_ok] at haccepted
    obtain ⟨_, ⟨-, hgenesis, -⟩, _, hconsents, haccepted⟩ := haccepted
    simp only [verifyOrganizationGenesis, consentsFrom, bind_eq_ok, demand_eq_ok] at haccepted
    obtain ⟨_, -, _, ⟨_, hlength, -⟩, -⟩ := haccepted
    refine ⟨hgenesis, ?_, List.forall_mem_nil _⟩
    rw [consentsJson, plain_arr, Bool.and_eq_true]
    refine ⟨decide_eq_true (by rw [List.length_map]; omega), List.all_eq_true.mpr ?_⟩
    intro j hj
    obtain ⟨c, hc, rfl⟩ := List.mem_map.mp hj
    exact (hconsents c hc).2.1
  | @transition entries states cur next e vouched now _ _ _ haccepted ih =>
    simp only [acceptTransition, bind_eq_ok, copyIdentityData_eq_ok] at haccepted
    obtain ⟨_, ⟨-, hplain, -⟩, -⟩ := haccepted
    refine ⟨ih.1, ih.2.1, fun f hf => ?_⟩
    rcases List.mem_append.mp hf with hold | hnew
    · exact ih.2.2 f hold
    · exact List.mem_singleton.mp hnew ▸ hplain

theorem plain_presented {g : OrganizationGenesis} {consents : List (Signed OrganizationConsent)}
    {entries : List GovernanceEntry} {states : List VerifiedGovernance}
    (h : LiveGovernance heads g consents entries states)
    (hlength : entries.length ≤ maxGovernanceEntries) :
    (presented g consents entries).json.plain = true := by
  obtain ⟨hgenesis, hconsents, hentries⟩ := plain_of_live h
  have hbound : entries.length ≤ 4096 := hlength
  have harr : (Json.arr (entries.map GovernanceEntry.json)).plain = true := by
    rw [plain_arr, Bool.and_eq_true]
    refine ⟨decide_eq_true (by rw [List.length_map]; omega), List.all_eq_true.mpr ?_⟩
    intro j hj
    obtain ⟨e, he, rfl⟩ := List.mem_map.mp hj
    exact hentries e he
  have hformat : textLength governanceLogFormat ≤ 4096 := by decide
  simp [presented, GovernanceLog.json, hgenesis, hconsents, harr, hformat, -plain_arr]

/-- A live history within the stated bound on entries is presentable, with the heads that the
hosts formed, exactly when the whole log lies within the nodes and the bytes of one copy. -/
theorem presentable_iff_small {g : OrganizationGenesis}
    {consents : List (Signed OrganizationConsent)} {entries : List GovernanceEntry}
    {states : List VerifiedGovernance} (h : LiveGovernance heads g consents entries states)
    (hlength : entries.length ≤ maxGovernanceEntries) :
    (∃ v, verifyGovernanceLog (presented g consents entries) heads = .ok v ∧ v.heads = states) ↔
      (presented g consents entries).json.nodes ≤ 16384 ∧
        (presented g consents entries).json.bytes ≤ 1024 * 1024 := by
  constructor
  · rintro ⟨v, hv, -⟩
    simp only [verifyGovernanceLog, bind_eq_ok, copyIdentityData_eq_ok] at hv
    obtain ⟨_, ⟨⟨hnodes, -⟩, -, hbytes⟩, -⟩ := hv
    exact ⟨hnodes, hbytes⟩
  · rintro ⟨hnodes, hbytes⟩
    obtain ⟨first, later, rfl, hfirst, hlater⟩ := replay_of_live h
    have hdepth := depth_log (presented g consents entries)
    have hcopy : copyIdentityData (presented g consents entries).json = .ok () :=
      (copyIdentityData_eq_ok _ _).mpr
        ⟨⟨hnodes, by omega⟩, plain_presented h hlength, hbytes⟩
    obtain ⟨v, hv, -, hheads⟩ := verifyGovernanceLog_of_replay hcopy rfl hlength hfirst hlater
    exact ⟨v, hv, hheads⟩

end
def sampleLookup : ControlLookup := fun person _ => some (samplePersonHead person)

/-- Two controllers, of whom one is enough. -/
def pairGenesis : OrganizationGenesis := ⟨77, 7, [7, 8], 1⟩

def pairConsents (act : Act) : List (Signed OrganizationConsent) :=
  [sampleConsent act 7, sampleConsent act 8]

/-- The pair asks for both of them where one was enough, and for one where both were. -/
def thresholdEntry (cur : VerifiedGovernance) : GovernanceEntry :=
  letI := sampleGovernanceCrypto
  let t : GovernanceTransition :=
    ⟨78, cur.headDigest, cur.head.sequence + 1, [7, 8], 3 - cur.head.threshold, 0, 1000⟩
  ⟨t, pairConsents ⟨78, .transition, governanceTransitionDigest t⟩⟩

def thresholdHead (cur : VerifiedGovernance) : VerifiedGovernance :=
  letI := sampleGovernanceCrypto
  ⟨(thresholdEntry cur).transition.head, governanceHeadDigest (thresholdEntry cur).transition.head⟩

/-- A head of the pair. -/
structure Paired (n : ℕ) (cur : VerifiedGovernance) : Prop where
  organization : cur.head.organizationId = 78
  sequence : cur.head.sequence = n
  controllers : cur.head.controllers = [7, 8]
  threshold : cur.head.threshold = 1 ∨ cur.head.threshold = 2
  digest : letI := sampleGovernanceCrypto; cur.headDigest = governanceHeadDigest cur.head

theorem pair_consents (act : Act) (required : List Uuid) (h : 7 ∈ required) (h' : 8 ∈ required) :
    letI := sampleGovernanceCrypto
    consentsFrom (pairConsents act) required act sampleLookup (some 0) = .ok [7, 8] := by
  let := sampleGovernanceCrypto
  have hsigned : ∀ k b, GovernanceCrypto.verifyConsent k b k = true :=
    fun k _ => beq_self_eq_true k
  have hverified : ∀ person, verifyOrganizationConsent (sampleConsent act person) act person
      (samplePersonHead person) (some 0) = .ok () := by
    intro person
    simp [verifyOrganizationConsent, parseConsentBody, Organization.window, isInstant,
      maxSafeInteger, organizationWindowMs, sampleConsent, samplePersonHead, consentSigner, demand,
      pure_eq, hsigned]
  have hperson : ∀ person, (sampleConsent act person).body.personId = person := fun _ => rfl
  simp [consentsFrom, pairConsents, consentFrom, hperson, sampleLookup, h, h', hverified, pure_eq]

/-- A sample consent is small enough to be copied on its own. -/
theorem fits_sampleConsent (act : Act) (person : Uuid) :
    letI := sampleGovernanceCrypto
    let value := (sampleConsent act person).json OrganizationConsent.json
    value.nodes = 13 ∧ value.bytes ≤ 900 ∧ value.plain = true ∧
      copyIdentityData value = .ok () := by
  let := sampleGovernanceCrypto
  intro value
  have hkey : Crypto.keyText (person : KeyId) = "ed25519:key" := rfl
  have hsignature : Crypto.signatureText (person : DirectTrade.Signature) =
      "ed25519:signature" := rfl
  have hvalue : value = (sampleConsent act person).json OrganizationConsent.json := rfl
  obtain ⟨organization, subject, digest⟩ := act
  simp only [Signed.json, sampleConsent, OrganizationConsent.json, Signature.json, keyJson,
    List.map_cons, List.map_nil, hkey, hsignature] at hvalue
  have hnodes : value.nodes = 13 := by simp [hvalue]
  have hdepth : value.depth ≤ 16 := by simp [hvalue]
  have hbytes : value.bytes ≤ 900 := by
    rw [hvalue]
    simp only [bytes_obj, bytes_arr, bytes_str, bytes_num, bytes_uuidJson, bytes_digestJson,
      List.map_cons, List.map_nil, List.length_cons, List.length_nil]
    have hlength : (Nat.toDigits 10 1000).length = 4 := by decide
    cases subject <;> simp [textBytes, charBytes, ConsentSubject.text, hlength]
  have hplain : value.plain = true := by
    rw [hvalue]
    cases subject <;> simp [textLength, ConsentSubject.text]
  exact ⟨hnodes, hbytes, hplain,
    (copyIdentityData_eq_ok _ _).mpr ⟨⟨by omega, hdepth⟩, hplain, by omega⟩⟩

theorem fits_pairConsents (act : Act) :
    letI := sampleGovernanceCrypto
    (consentsJson (pairConsents act)).nodes = 27 ∧ (consentsJson (pairConsents act)).bytes ≤ 2000 ∧
      (consentsJson (pairConsents act)).plain = true := by
  let := sampleGovernanceCrypto
  obtain ⟨hnodes, hbytes, hplain, -⟩ := fits_sampleConsent act 7
  obtain ⟨hnodes', hbytes', hplain', -⟩ := fits_sampleConsent act 8
  refine ⟨?_, ?_, ?_⟩
  · simp [consentsJson, pairConsents, hnodes, hnodes']
  · simp only [consentsJson, pairConsents, bytes_arr, List.map_cons, List.map_nil, List.sum_cons,
      List.sum_nil, List.length_cons, List.length_nil]
    omega
  · simp [consentsJson, pairConsents, hplain, hplain']

/-- An entry of the pair is small enough to be copied on its own. -/
theorem fits_thresholdEntry (cur : VerifiedGovernance) (hsequence : cur.head.sequence ≤ 4096) :
    letI := sampleGovernanceCrypto
    (thresholdEntry cur).json.nodes = 38 ∧ (thresholdEntry cur).json.bytes ≤ 2427 ∧
      copyIdentityData (thresholdEntry cur).json = .ok () := by
  let := sampleGovernanceCrypto
  have hdepth := depth_entry (thresholdEntry cur)
  obtain ⟨hnodes, hbytes, hplain⟩ := fits_pairConsents ⟨78, .transition,
    governanceTransitionDigest (thresholdEntry cur).transition⟩
  have hconsents : consentsJson (thresholdEntry cur).consents = consentsJson (pairConsents
    ⟨78, .transition, governanceTransitionDigest (thresholdEntry cur).transition⟩) := rfl
  rw [← hconsents] at hnodes hbytes hplain
  have htransition : (thresholdEntry cur).transition = ⟨78, cur.headDigest,
    cur.head.sequence + 1, [7, 8], 3 - cur.head.threshold, 0, 1000⟩ := rfl
  have hn : (thresholdEntry cur).json.nodes = 38 := by
    simp [GovernanceEntry.json, GovernanceTransition.json, htransition, hnodes]
  have hb : (thresholdEntry cur).json.bytes ≤ 2427 := by
    have hnumber := bytes_num_le (n := (cur.head.sequence + 1 : ℕ)) (by omega)
    have hother := bytes_num_le (n := (3 - cur.head.threshold : ℕ)) (by omega)
    have hsize : (thresholdEntry cur).transition.json.bytes ≤ 400 := by
      rw [bytes_transition, htransition]
      have hpair : (Json.arr ([7, 8].map uuidJson)).bytes = 79 := by simp
      have htimes : (Json.num 0).bytes = 1 ∧ (Json.num 1000).bytes = 4 := by decide
      simp only [hpair, htimes]
      omega
    rw [bytes_governanceEntry]
    omega
  refine ⟨hn, hb, (copyIdentityData_eq_ok _ _).mpr ⟨⟨by omega, by omega⟩, ?_, by omega⟩⟩
  simp [GovernanceEntry.json, GovernanceTransition.json, htransition, hplain]
  omega

theorem pair_window : Organization.window 0 1000 none "transition" = .ok () ∧
    Organization.window 0 1000 (some 0) "transition" = .ok () := by
  decide

theorem pair_controllers : controllers [7, 8] = .ok () := by decide

theorem pair_step {n : ℕ} {cur : VerifiedGovernance} (h : Paired n cur) (hn : n < 4096) :
    letI := sampleGovernanceCrypto
    acceptTransition cur (thresholdEntry cur) sampleLookup 0 = .ok (thresholdHead cur) ∧
      Paired (n + 1) (thresholdHead cur) := by
  let := sampleGovernanceCrypto
  obtain ⟨horganization, hsequence, hcontrollers, hthreshold, hdigest⟩ := h
  have hbounds : 1 ≤ 3 - cur.head.threshold ∧ 3 - cur.head.threshold ≤ 2 ∧
      3 - cur.head.threshold ≠ cur.head.threshold := by omega
  have hconsents := pair_consents
    ⟨78, .transition, governanceTransitionDigest (thresholdEntry cur).transition⟩
    (cur.head.controllers ++ (thresholdEntry cur).transition.added cur.head)
    (by simp [hcontrollers]) (by simp [hcontrollers])
  have hcopy := (fits_thresholdEntry cur (by omega)).2.2
  refine ⟨?_, ?_⟩
  · rw [acceptTransition, hcopy, ok_bind]
    have hparse : parseTransition (thresholdEntry cur).transition = .ok () := by
      show parseTransition ⟨78, cur.headDigest, cur.head.sequence + 1, [7, 8],
        3 - cur.head.threshold, 0, 1000⟩ = .ok ()
      have hmax : maxSafeInteger = 9007199254740991 := rfl
      simp only [parseTransition, bind_eq_ok, demand_eq_ok]
      exact ⟨(), ⟨by omega, by omega⟩, (), pair_controllers, (), ⟨hbounds.1, hbounds.2.1⟩,
        pair_window.1⟩
    simp only [applyGovernanceTransition, bind_eq_ok, demand_eq_ok, pure_eq_ok]
    refine ⟨(), hdigest, (), hparse, (), ⟨horganization.symm, rfl, rfl⟩, (), pair_window.2, (),
      .inr hbounds.2.2, [7, 8], hconsents, (), ?_, (), ?_, rfl⟩
    · rw [hcontrollers]
      show cur.head.threshold ≤ 2
      omega
    · intro c hc
      exact (List.mem_filter.mp hc).1
  · refine ⟨rfl, ?_, rfl, ?_, rfl⟩
    · show cur.head.sequence + 1 = n + 1
      omega
    · show 3 - cur.head.threshold = 1 ∨ 3 - cur.head.threshold = 2
      omega

def pairFirst : VerifiedGovernance :=
  letI := sampleGovernanceCrypto
  let head : GovernanceHead := ⟨78, 0, none, [7, 8], 1⟩
  ⟨head, governanceHeadDigest head⟩

def pairGenesisConsents : List (Signed OrganizationConsent) :=
  pairConsents ⟨78, .genesis, 2 ^ 128 * 78⟩

/-- The entries and the heads of so many changes of the threshold. -/
def pairHistory : ℕ → List GovernanceEntry × List VerifiedGovernance × VerifiedGovernance
  | 0 => ([], [pairFirst], pairFirst)
  | n + 1 =>
    let (entries, states, cur) := pairHistory n
    (entries ++ [thresholdEntry cur], states ++ [thresholdHead cur], thresholdHead cur)

theorem pairFirst_accepted :
    letI := sampleGovernanceCrypto
    acceptGenesis pairGenesis pairGenesisConsents sampleLookup 0 = .ok pairFirst := by
  let := sampleGovernanceCrypto
  have hid : organizationId pairGenesis = 78 := by decide
  have hdigest : organizationGenesisDigest pairGenesis = 2 ^ 128 * 78 := by decide
  have hconsents := pair_consents ⟨78, .genesis, 2 ^ 128 * 78⟩ [7, 8] (by simp) (by simp)
  have hparse : parseOrganizationGenesis pairGenesis = .ok () := by decide
  have hgenesis : copyIdentityData pairGenesis.json = .ok () := by
    refine (copyIdentityData_eq_ok _ _).mpr ⟨?_, ?_, ?_⟩
    · simp [pairGenesis, OrganizationGenesis.json]
    · simp [pairGenesis, OrganizationGenesis.json]
    · simp only [pairGenesis, OrganizationGenesis.json, bytes_obj, bytes_arr, bytes_uuidJson,
        List.map_cons, List.map_nil]
      have hlength : (Nat.toDigits 10 1).length = 1 := by decide
      simp [textBytes, charBytes, hlength]
  have hcopies : each (fun c => copyIdentityData (c.json OrganizationConsent.json))
      pairGenesisConsents = .ok () := by
    rw [each_eq_ok]
    intro c hc
    simp only [pairGenesisConsents, pairConsents, List.mem_cons, List.not_mem_nil, or_false] at hc
    rcases hc with rfl | rfl
    · exact (fits_sampleConsent _ 7).2.2.2
    · exact (fits_sampleConsent _ 8).2.2.2
  rw [acceptGenesis, hgenesis, hcopies, ok_bind, ok_bind]
  simp only [verifyOrganizationGenesis, hid, hdigest, bind_eq_ok, demand_eq_ok, pure_eq_ok]
  exact ⟨(), hparse, [7, 8], hconsents, (), fun c hc => hc, rfl⟩

theorem pairHistory_live (n : ℕ) (hn : n ≤ 4096) :
    letI := sampleGovernanceCrypto
    LiveGovernance sampleLookup pairGenesis pairGenesisConsents (pairHistory n).1
        (pairHistory n).2.1 ∧
      (pairHistory n).2.1.getLast? = some (pairHistory n).2.2 ∧ Paired n (pairHistory n).2.2 ∧
      (pairHistory n).1.length = n ∧
      ((pairHistory n).1.map fun e => e.json.nodes).sum = 38 * n ∧
      ((pairHistory n).1.map fun e => e.json.bytes).sum ≤ 2427 * n := by
  let := sampleGovernanceCrypto
  have hvouches : Vouches sampleLookup sampleLookup := fun _ _ _ h => h
  induction n with
  | zero =>
    exact ⟨.genesis hvouches pairFirst_accepted, rfl, ⟨rfl, rfl, rfl, .inl rfl, rfl⟩, rfl, rfl,
      Nat.le_refl 0⟩
  | succ n ih =>
    obtain ⟨hlive, hlast, hpaired, hlength, hnodes, hbytes⟩ := ih (by omega)
    obtain ⟨haccepted, hnext⟩ := pair_step hpaired (by omega)
    have hsequence := hpaired.sequence
    obtain ⟨hentry, hsize, -⟩ := fits_thresholdEntry (pairHistory n).2.2 (by omega)
    refine ⟨.transition hlive hlast hvouches haccepted, ?_, hnext, ?_, ?_, ?_⟩
    · simp [pairHistory]
    · simp [pairHistory, hlength]
    · simp only [pairHistory, List.map_append, List.sum_append, hnodes, List.map_cons, List.map_nil,
        List.sum_cons, List.sum_nil, hentry]
      omega
    · have hstep : ∀ size ≤ 2427, ((pairHistory n).1.map fun e => e.json.bytes).sum + size ≤
          2427 * (n + 1) := by
        intro size hle
        omega
      simp only [pairHistory, List.map_append, List.sum_append, List.map_cons, List.map_nil,
        List.sum_cons, List.sum_nil, Nat.add_zero]
      exact hstep _ hsize

/-- A history of the pair as it is presented has 38 nodes an entry, and 37 around them. -/
theorem nodes_pairHistory {n : ℕ} (hn : n ≤ 4096) :
    letI := sampleGovernanceCrypto
    (presented pairGenesis pairGenesisConsents (pairHistory n).1).json.nodes = 38 * n + 37 := by
  let := sampleGovernanceCrypto
  obtain ⟨-, -, -, -, hnodes, -⟩ := pairHistory_live n hn
  have hentries : (Json.arr ((pairHistory n).1.map GovernanceEntry.json)).nodes = 1 + 38 * n := by
    rw [nodes_arr, List.map_map, ← hnodes]
    rfl
  have hconsents : (consentsJson pairGenesisConsents).nodes = 27 := (fits_pairConsents _).1
  have hgenesis : pairGenesis.json.nodes = 7 := by simp [pairGenesis, OrganizationGenesis.json]
  simp only [presented, GovernanceLog.json, nodes_obj, nodes_str, List.map_cons, List.map_nil,
    List.sum_cons, List.sum_nil, hentries, hconsents, hgenesis]
  omega

/-- Of the pair's histories those of more than 430 changes are not presentable. -/
theorem pairHistory_unpresentable {n : ℕ} (hn : n ≤ 4096) (hlong : 430 < n) :
    letI := sampleGovernanceCrypto
    LiveGovernance sampleLookup pairGenesis pairGenesisConsents (pairHistory n).1
        (pairHistory n).2.1 ∧
      (pairHistory n).1.length ≤ maxGovernanceEntries ∧
      ¬∃ v, verifyGovernanceLog (presented pairGenesis pairGenesisConsents (pairHistory n).1)
        sampleLookup = .ok v ∧ v.heads = (pairHistory n).2.1 := by
  let := sampleGovernanceCrypto
  obtain ⟨hlive, -, -, hlength, -⟩ := pairHistory_live n hn
  refine ⟨hlive, ?_, ?_⟩
  · show (pairHistory n).1.length ≤ 4096
    omega
  · rintro ⟨v, hv, -⟩
    simp only [verifyGovernanceLog, bind_eq_ok, copyIdentityData_eq_ok] at hv
    obtain ⟨_, ⟨⟨hbound, -⟩, -⟩, -⟩ := hv
    rw [nodes_pairHistory hn] at hbound
    omega

/-- Five hundred changes of the threshold, each accepted by a host, make a log that no
verifier copies. -/
theorem long_history_unpresentable :
    letI := sampleGovernanceCrypto
    LiveGovernance sampleLookup pairGenesis pairGenesisConsents (pairHistory 500).1
        (pairHistory 500).2.1 ∧
      (pairHistory 500).1.length ≤ maxGovernanceEntries ∧
      ¬∃ v, verifyGovernanceLog (presented pairGenesis pairGenesisConsents (pairHistory 500).1)
        sampleLookup = .ok v ∧ v.heads = (pairHistory 500).2.1 :=
  pairHistory_unpresentable (by omega) (by omega)

/-- The longest history of the pair that is presentable, with all of its heads. -/
theorem presentable_iff_small_sample :
    letI := sampleGovernanceCrypto
    (pairHistory 430).1.length = 430 ∧
      ∃ v, verifyGovernanceLog (presented pairGenesis pairGenesisConsents (pairHistory 430).1)
        sampleLookup = .ok v ∧ v.heads = (pairHistory 430).2.1 := by
  let := sampleGovernanceCrypto
  obtain ⟨hlive, -, -, hlength, -, hsum⟩ := pairHistory_live 430 (by omega)
  have hbound : (pairHistory 430).1.length ≤ maxGovernanceEntries := by
    show (pairHistory 430).1.length ≤ 4096
    omega
  refine ⟨hlength, (presentable_iff_small hlive hbound).mpr ⟨?_, ?_⟩⟩
  · rw [nodes_pairHistory (by omega)]
    omega
  · have hbytes : (consentsJson pairGenesisConsents).bytes ≤ 2000 := (fits_pairConsents _).2.1
    have hgenesis : pairGenesis.json.bytes = 205 := by
      have hpair : (Json.arr ([7, 8].map uuidJson)).bytes = 79 := by simp
      have hone : (Json.num (1 : ℕ)).bytes = 1 := by decide
      rw [bytes_genesis]
      simp only [pairGenesis, hpair, hone]
    have hformat : textBytes governanceLogFormat = 22 := by decide
    have hentries : (Json.arr ((pairHistory 430).1.map GovernanceEntry.json)).bytes ≤
        2427 * 430 + 432 := by
      rw [bytes_arr, List.map_map, List.length_map, hlength]
      have hmap : ((pairHistory 430).1.map (Json.bytes ∘ GovernanceEntry.json)).sum ≤
          2427 * 430 := hsum
      omega
    rw [bytes_log]
    simp only [presented, hgenesis, hformat]
    omega

end DirectTrade.Foundation
