import DirectTrade.Confinement

/-!
What an installation's command depends on. The body of a record that the installation does
not reach changes nothing, except where a stock fact is checked against the product that
published its packaging.
-/

namespace DirectTrade

open Library

def BusinessRecord.withBody (r : BusinessRecord) (body : Json) : BusinessRecord :=
  { r with body := body }

/-- A state with another body in one record. -/
def State.withBody (s : State) (id : Uuid) (body : Json) : State :=
  { s with records := s.records.modify id (·.withBody body) }

theorem get?_withBody {s : State} {id : Uuid} {body : Json} (other : Uuid) (h : other ≠ id) :
    (s.withBody id body).records.get? other = s.records.get? other :=
  Dict.get?_modify_of_ne _ _ h

theorem get?_withBody_self {s : State} {id : Uuid} {body : Json} {r : BusinessRecord}
    (h : s.records.get? id = some r) :
    (s.withBody id body).records.get? id = some (r.withBody body) := by
  simp [State.withBody, h]

theorem values_withBody {s : State} (keyed : Keyed s) (id : Uuid) (body : Json) :
    (s.withBody id body).records.values =
      s.records.values.map fun r => if r.id = id then r.withBody body else r :=
  keyed.records.values_modify id _

theorem Keyed.withBody {s : State} (h : Keyed s) (id : Uuid) (body : Json) :
    Keyed (s.withBody id body) :=
  { h with records := h.records.modify id _ fun _ => rfl }

theorem Hosted.withBody {s : State} (h : Hosted s) (id : Uuid) (body : Json) :
    Hosted (s.withBody id body) := by
  have hold : ∀ {other : Uuid} {x : BusinessRecord},
      (s.withBody id body).records.get? other = some x →
      ∃ r, s.records.get? other = some r ∧ r.organizationId = x.organizationId ∧
        r.policyId = x.policyId ∧ r.seq = x.seq := by
    intro other x hx
    by_cases hid : other = id
    · subst hid
      obtain ⟨r, hr, rfl⟩ := Option.map_eq_some_iff.mp
        ((Dict.get?_modify_self s.records other _).symm.trans hx)
      exact ⟨r, hr, rfl, rfl, rfl⟩
    · rw [get?_withBody other hid] at hx
      exact ⟨x, hx, rfl, rfl, rfl⟩
  refine ⟨h.named.modify id _ fun _ => rfl, fun other x hx => ?_, ?_⟩
  · obtain ⟨r, hr, horg, hpolicy, -⟩ := hold hx
    rw [← horg, ← hpolicy]
    exact h.governed other r hr
  · intro a x hx b y hy horg hseq
    obtain ⟨r, hr, hro, -, hrs⟩ := hold hx
    obtain ⟨q, hq, hqo, -, hqs⟩ := hold hy
    exact h.numbered a r hr b q hq (hro.trans (horg.trans hqo.symm))
      (hrs.trans (hseq.trans hqs.symm))

section

variable {s : State} {c : Command} {ctx : Context} {signed : List KeyId} {id : Uuid}
  {body : Json} {r : BusinessRecord}

/-- Who may read a record depends neither on its body nor on the keys that signed. -/
theorem mayRead_body (body : Json) (signed' : List KeyId) :
    (callOf s c ctx signed').MayRead (r.withBody body) ↔
      (callOf s c ctx signed).MayRead r := by
  simp only [Call.MayRead, ← Call.currentOrg_eq_ok]
  exact Iff.rfl

theorem ReadersAgree.withBody (found : s.records.get? id = some r)
    (hidden : ¬ (callOf s c ctx signed).MayRead r) : ReadersAgree s (s.withBody id body) c ctx := by
  refine ⟨rfl, rfl, rfl, rfl, rfl, rfl, fun signed' other x hmay => ?_⟩
  by_cases hid : other = id
  · subst hid
    constructor
    · intro hx
      obtain rfl := Option.some.inj (found.symm.trans hx)
      exact absurd ((mayRead_body r.body signed').mp hmay) hidden
    · intro hx
      rw [get?_withBody_self found] at hx
      obtain rfl := Option.some.inj hx
      exact absurd ((mayRead_body body signed').mp hmay) hidden
  · rw [get?_withBody other hid]

theorem ReadersAgree.understandsAll_withBody (keyed : Keyed s)
    (agree : ReadersAgree s (s.withBody id body) c ctx) (o : Organization) (resource : Uuid)
    (semantics : Semantics) :
    ((callOf s c ctx signed).on (s.withBody id body)).understandsAll o resource semantics =
      (callOf s c ctx signed).understandsAll o resource semantics := by
  let rewrite := fun r : BusinessRecord => if r.id = id then r.withBody body else r
  have hvalues : (s.withBody id body).records.values = s.records.values.map rewrite :=
    values_withBody keyed id body
  have hsame : ∀ {α : Type} (f : Uuid → Uuid → Digest → α) (r : BusinessRecord),
      f (rewrite r).organizationId (rewrite r).resourceId (rewrite r).profileDigest =
        f r.organizationId r.resourceId r.profileDigest := by
    intro α f r
    by_cases hid : r.id = id <;> simp [rewrite, hid, BusinessRecord.withBody]
  unfold Call.understandsAll
  simp only [Call.on_s, callOf_s, hvalues, List.filter_map, agree.understands]
  rw [Outcome.every_map fun r => hsame (fun _ _ d => (callOf s c ctx signed).understands d) r]
  congr 1
  apply List.filter_congr
  intro r _
  exact hsame (fun org at_ d => decide (org = o.id) && decide (at_ = resource) &&
    (s.profiles.get? d).any (·.semantics = semantics)) r

variable [Primitives] [Reducers]

omit [Primitives] [Reducers] in
theorem ReadersAgree.readStock_withBody {σ : Type} (keyed : Keyed s)
    (agree : ReadersAgree s (s.withBody id body) c ctx) (o : Organization) (value : Option σ)
    (policyOf : σ → Uuid) (policyId resource : Uuid) (semantics : Semantics) (message : String) :
    ((callOf s c ctx signed).on (s.withBody id body)).readStock o value policyOf policyId resource
        semantics message =
      (callOf s c ctx signed).readStock o value policyOf policyId resource semantics message := by
  simp only [Call.readStock, agree.understandsAll_withBody keyed, agree.can]
  rfl

/-- The reads of an installation answer the same. -/
theorem Call.Runs.dispatch_withBody {o : Organization} {inst : Installation} {release : Release}
    (runs : (callOf s c ctx signed).Runs o inst release) (keyed : Keyed s) (hosted : Hosted s)
    (agree : ReadersAgree s (s.withBody id body) c ctx) (reads : c.payload.observes = true)
    (inside : (callOf s c ctx signed).Inside o) :
    Reply.result <$> ((callOf s c ctx signed).on (s.withBody id body)).dispatch =
      Reply.result <$> (callOf s c ctx signed).dispatch := by
  have staffed : (callOf s c ctx signed).Staffed := by
    intro _ o' ho'
    obtain rfl := Option.some.inj (runs.org.symm.trans ho')
    exact ⟨inst, release, runs.found, runs.released⟩
  have haction : c.payload.forInstallation = true := runs.action
  cases hpayload : c.payload with
  | mutation m => simp [hpayload, Payload.observes, Payload.isRead] at reads
  | recordGet id d =>
    rw [Call.dispatch_recordGet (k := callOf s c ctx signed) hpayload,
      Call.dispatch_recordGet (k := (callOf s c ctx signed).on _) hpayload]
    exact agree.recordGet hosted (hosted.withBody _ _) staffed inside id d
  | recordsList page =>
    have hpage : c.payload.page? = some (page, false) := by simp [hpayload, Payload.page?]
    rw [Call.dispatch_page (k := callOf s c ctx signed) hpage,
      Call.dispatch_page (k := (callOf s c ctx signed).on _) hpage]
    exact agree.recordsPage hosted (hosted.withBody _ _) staffed page false
  | recordsExport page =>
    have hpage : c.payload.page? = some (page, true) := by simp [hpayload, Payload.page?]
    rw [Call.dispatch_page (k := callOf s c ctx signed) hpage,
      Call.dispatch_page (k := (callOf s c ctx signed).on _) hpage]
    exact agree.recordsPage hosted (hosted.withBody _ _) staffed page true
  | inventoryGet policyId poolId =>
    have hk : (callOf s c ctx signed).c.payload = .inventoryGet policyId poolId := hpayload
    simp only [Call.dispatch, Call.on_c, hk, Call.inventoryGet, agree.currentOrg,
      agree.readStock_withBody keyed, map_bind, map_pure, Call.answer]
    rfl
  | inventoryLedger policyId productId =>
    have hk : (callOf s c ctx signed).c.payload = .inventoryLedger policyId productId := hpayload
    simp only [Call.dispatch, Call.on_c, hk, Call.inventoryLedger, agree.currentOrg,
      agree.readStock_withBody keyed, map_bind, map_pure, Call.answer]
    rfl
  | flowBook policyId bookId =>
    have hk : (callOf s c ctx signed).c.payload = .flowBook policyId bookId := hpayload
    simp only [Call.dispatch, Call.on_c, hk, Call.flowBook, agree.currentOrg,
      agree.readStock_withBody keyed, map_bind, map_pure, Call.answer]
    rfl
  | profileGet digest =>
    have hk : (callOf s c ctx signed).c.payload = .profileGet digest := hpayload
    simp only [Call.dispatch, Call.on_c, hk, Call.profileGet, agree.currentOrg,
      agree.understands, map_bind, map_pure, Call.answer]
    rfl
  | evidenceInspect token accepted =>
    have hk : (callOf s c ctx signed).c.payload = .evidenceInspect token accepted := hpayload
    simp only [Call.dispatch, Call.on_c, hk, Call.evidenceInspect, Call.visible,
      agree.currentOrg, agree.can, map_bind, map_pure, Call.answer]
    rfl
  | _ =>
    rw [hpayload] at haction
    cases haction

omit [Reducers] in
theorem requireRemoteAuthority_withBody (s : State) (party : Uuid) :
    requireRemoteAuthority (s.withBody id body) party ctx =
      (State.withBody · id body) <$> requireRemoteAuthority s party ctx := by
  have hremote : (s.withBody id body).remoteAuthorities = s.remoteAuthorities := rfl
  simp only [requireRemoteAuthority, authorityAccept, acceptAuthority, map_bind, map_pure,
    bind_assoc, hremote]
  refine bind_congr fun stored => bind_congr fun b => bind_congr fun _ => bind_congr fun _ =>
    bind_congr fun _ => bind_congr fun _ => ?_
  cases s.remoteAuthorities.get? b.organizationId with
  | none => rfl
  | some old =>
    simp only [Option.map_some, bind_assoc, pure_bind]
    rfl

omit [Reducers] in
theorem counterparties_withBody (k : Call) (parties : List Uuid) :
    (k.on (k.s.withBody id body)).counterparties parties =
      (State.withBody · id body) <$> k.counterparties parties := by
  unfold Call.counterparties
  refine Outcome.foldlM_map_state (g := (State.withBody · id body)) (fun t party => ?_) k.s
  have horgs : (t.withBody id body).organizations = t.organizations := rfl
  rw [horgs]
  split
  · rfl
  · exact requireRemoteAuthority_withBody t party

omit [Primitives] [Reducers] in
theorem nextRecordSeq_withBody (keyed : Keyed s) (org : Uuid) :
    nextRecordSeq (s.withBody id body) org = nextRecordSeq s org := by
  have hrewrite : ∀ r : BusinessRecord,
      (if r.id = id then r.withBody body else r).organizationId = r.organizationId ∧
        (if r.id = id then r.withBody body else r).seq = r.seq := by
    intro r
    by_cases hid : r.id = id <;> simp [hid, BusinessRecord.withBody]
  simp only [nextRecordSeq, values_withBody keyed, List.foldl_map, hrewrite]
  rfl

omit [Primitives] [Reducers] in
/-- A record that another record does not supersede stays out of the continuity rules. -/
theorem predecessor_withBody (k : Call) (o : Organization) {p : RecordPayload}
    (apart : p.supersedes ≠ some id) :
    (k.on (k.s.withBody id body)).predecessor o p = k.predecessor o p := by
  have hget : p.supersedes.bind (k.s.withBody id body).records.get? =
      p.supersedes.bind k.s.records.get? := by
    cases hprev : p.supersedes with
    | none => rfl
    | some other =>
      have hne : other ≠ id := by
        rintro rfl
        exact apart hprev
      exact get?_withBody other hne
  have hcan : ∀ policyId resource action,
      (k.on (k.s.withBody id body)).can policyId resource action = k.can policyId resource action :=
    fun policyId resource action => Call.can_on rfl rfl resource action
  simp only [Call.predecessor, Call.on_s, hget, hcan]

omit [Primitives] [Reducers] in
theorem headRecord_withBody (keyed : Keyed s) (found : s.records.get? id = some r) (org : Uuid)
    (root : Option Uuid) (semantics : Semantics)
    (apart : headRecord s org root semantics ≠ some r) :
    headRecord (s.withBody id body) org root semantics = headRecord s org root semantics := by
  let rewrite := fun x : BusinessRecord => if x.id = id then x.withBody body else x
  have hvalues : (s.withBody id body).records.values = s.records.values.map rewrite :=
    values_withBody keyed id body
  let test := fun x : BusinessRecord => decide (x.organizationId = org) &&
    decide (some x.rootId = root) && x.isHead && hasSemantics s.profiles.get? semantics x
  have htest : test ∘ rewrite = test := by
    funext x
    by_cases hid : x.id = id <;>
      simp [test, rewrite, hid, hasSemantics, BusinessRecord.withBody]
  have hhead : headRecord s org root semantics = s.records.values.find? test := rfl
  have hhead' : headRecord (s.withBody id body) org root semantics =
      (s.records.values.find? test).map rewrite := by
    show (s.withBody id body).records.values.find? test = _
    rw [hvalues, List.find?_map, htest]
  rw [hhead', hhead]
  cases hfind : s.records.values.find? test with
  | none => rfl
  | some x =>
    have hx : s.records.get? x.id = some x :=
      (mem_records keyed).mp (List.mem_of_find?_eq_some hfind)
    have hne : x.id ≠ id := by
      intro hid
      rw [hid] at hx
      obtain rfl := Option.some.inj (found.symm.trans hx)
      exact apart (hhead.trans hfind)
    simp [rewrite, hne]

/-- A record whose body the packaging rule of a stock fact reads. -/
def Call.Consults (k : Call) (o : Organization) (r : BusinessRecord) : Prop :=
  ∃ p profile, k.c.payload = .mutation (.recordAppend p) ∧
    k.s.profiles.get? p.profileDigest = some profile ∧
    (profile.semantics = .inventoryV2 ∨ profile.semantics = .flowV1) ∧
    ∃ root, headRecord k.s o.id (some root) .productV1 = some r

theorem assess_withBody (k : Call) (keyed : Keyed k.s) (found : k.s.records.get? id = some r)
    {o : Organization} {p : RecordPayload} {profile : Profile}
    (payload : k.c.payload = .mutation (.recordAppend p))
    (pinned : k.s.profiles.get? p.profileDigest = some profile) (apart : ¬ k.Consults o r)
    (before : Option BusinessRecord) :
    (k.on (k.s.withBody id body)).assess (k.s.withBody id body) o profile p before =
      k.assess k.s o profile p before := by
  have hhead : profile.semantics = .inventoryV2 ∨ profile.semantics = .flowV1 → ∀ root,
      headRecord (k.s.withBody id body) o.id (some root) .productV1 =
        headRecord k.s o.id (some root) .productV1 := by
    intro hsemantics root
    refine headRecord_withBody keyed found _ _ _ fun hroot => ?_
    exact apart ⟨p, profile, payload, pinned, hsemantics, root, hroot⟩
  unfold Call.assess
  cases hsemantics : profile.semantics with
  | inventoryV2 =>
    simp only [assessFact, hhead (.inl hsemantics)]
    rfl
  | flowV1 =>
    simp only [assessFlowFact, hhead (.inr hsemantics)]
    rfl
  | partyV1 =>
    simp only [Call.assessParty, Call.policy_on (k := k) (t := k.s.withBody id body) rfl rfl]
  | _ => rfl

omit [Primitives] [Reducers] in
theorem insertRecord_withBody (s : State) (org : Uuid) (new : BusinessRecord)
    (apart : id ≠ new.id) (unlinked : new.supersedes ≠ some id) :
    Call.insertRecord (s.withBody id body) org new =
      (Call.insertRecord s org new).withBody id body := by
  have hretire : Call.retire (s.withBody id body).records new.supersedes =
      (Call.retire s.records new.supersedes).modify id (·.withBody body) := by
    cases hprev : new.supersedes with
    | none => rfl
    | some other =>
      have hne : id ≠ other := by
        rintro rfl
        exact unlinked hprev
      exact Dict.modify_comm s.records (·.withBody body) _ hne
  have hset := Dict.set_modify (Call.retire s.records new.supersedes) new
    (·.withBody body) apart
  unfold Call.insertRecord
  rw [hretire, ← hset]
  rfl

omit [Primitives] [Reducers] in
theorem elim_withBody (s : State) (org : Uuid) (company : Option Inventory) :
    company.elim (s.withBody id body) ((s.withBody id body).setInventory org) =
      (company.elim s (s.setInventory org)).withBody id body := by
  cases company <;> rfl

theorem recordAppend_withBody (k : Call) (keyed : Keyed k.s)
    (found : k.s.records.get? id = some r) {p : RecordPayload}
    (payload : k.c.payload = .mutation (.recordAppend p))
    (unlinked : k.previous = none → p.supersedes ≠ some id) {o : Organization}
    (org : k.org = some o) (apart : ¬ k.Consults o r) {reply : Reply}
    (h : k.recordAppend p = .ok reply) :
    (k.on (k.s.withBody id body)).recordAppend p =
      .ok { reply with state := reply.state.withBody id body } := by
  have hcurrent : (k.on (k.s.withBody id body)).currentOrg = k.currentOrg :=
    Call.currentOrg_on rfl
  have hcan : ∀ policyId resource action,
      (k.on (k.s.withBody id body)).can policyId resource action = k.can policyId resource action :=
    fun policyId resource action => Call.can_on rfl rfl resource action
  have hwritable : ∀ message,
      (k.on (k.s.withBody id body)).writable p.policyId p.resourceId message =
        k.writable p.policyId p.resourceId message := by
    intro message
    simp only [Call.writable, Call.visible, hcan]
  simp only [Call.recordAppend, Outcome.bind_eq_ok] at h
  obtain ⟨o', horg, _, hids, _, hown, _, hwrite, profile, hprofile, _, hdeclares, h⟩ := h
  obtain rfl : o' = o := by
    have inside := (Call.currentOrg_eq_ok k o').mp horg
    exact Option.some.inj (inside.org.symm.trans org)
  have hpinned : k.s.profiles.get? p.profileDigest = some profile :=
    (Option.filter_eq_some_iff.mp ((require_eq_ok ..).mp hprofile)).1
  have hdeclares : (k.on (k.s.withBody id body)).declares o' p.profileDigest = .ok () := hdeclares
  have hprofile : require (((k.on (k.s.withBody id body)).s.profiles.get? p.profileDigest).filter
      (accessibleProfile · o'.id)) "unsupported_profile" "pinned profile unavailable" 422 =
      .ok profile := hprofile
  have hprevious : (k.on (k.s.withBody id body)).previous = k.previous := rfl
  simp only [Call.recordAppend, hcurrent, horg, hids, hown, hwritable, hwrite, hprofile,
    hdeclares, hprevious, Outcome.ok_bind]
  cases hreceipt : k.previous with
  | some receipt =>
    simp only [hreceipt, Outcome.pure_eq_ok] at h
    obtain rfl := h
    rfl
  | none =>
    simp only [hreceipt, Outcome.bind_eq_ok] at h
    obtain ⟨_, habsent, _, hcapacity, before, hbefore, _, hcontinues, s, hattested, _, hshaped,
      outcome, hassess, h⟩ := h
    obtain rfl := counterparties_eq keyed.remoteAuthorities hattested
    have hne : id ≠ p.id := by
      rintro rfl
      simp [found, demand_eq_ok] at habsent
    have hfresh : (k.s.withBody id body).records.get? p.id = k.s.records.get? p.id :=
      get?_withBody p.id hne.symm
    have hreserved : recordReserved (k.s.withBody id body) p.id = recordReserved k.s p.id := rfl
    have hnext : nextRecordSeq (k.s.withBody id body) o'.id = nextRecordSeq k.s o'.id :=
      nextRecordSeq_withBody keyed o'.id
    have hparties : (k.on (k.s.withBody id body)).counterparties p.counterpartyIds =
        .ok (k.s.withBody id body) := by
      rw [counterparties_withBody, hattested]
      rfl
    simp only [Call.on_s, hfresh, hreserved, hnext, habsent, hcapacity,
      predecessor_withBody k o' (unlinked hreceipt), hbefore, hcontinues, hparties, hshaped,
      assess_withBody k keyed found payload hpinned apart, hassess, Outcome.ok_bind]
    cases outcome with
    | duplicate company recordId =>
      simp only [Outcome.bind_eq_ok, access_eq_ok, Outcome.pure_eq_ok] at h ⊢
      obtain ⟨recorded, hrecorded, rfl⟩ := h
      by_cases hid : recordId = id
      · subst hid
        obtain rfl := Option.some.inj (found.symm.trans hrecorded)
        exact ⟨_, get?_withBody_self found, rfl⟩
      · exact ⟨recorded, (get?_withBody recordId hid).trans hrecorded, rfl⟩
    | validated company validation =>
      simp only [Outcome.pure_eq_ok] at h
      obtain rfl := h
      simp only [elim_withBody]
      rw [insertRecord_withBody _ _ _ hne (unlinked hreceipt)]
      rfl

end

variable [Primitives] [Reducers]

/-- A read leaves the state as it is. -/
theorem Call.Effect.of_observes {k : Call} {reply : Reply} (h : k.Effect reply)
    (reads : k.c.payload.observes = true) : reply = k.answer reply.result := by
  cases h with
  | read result reads => rfl
  | attest token hop b payload attests =>
    rcases payload with payload | ⟨commit, payload⟩ <;>
      simp [payload, Payload.observes, Payload.isRead] at reads
  | _ => simp_all [Payload.observes, Payload.isRead]

theorem execute_eq (s : State) (c : Command) (ctx : Context) :
    execute s c ctx = (do
      let signed ← admission s c ctx
      let reply ← (callOf s c ctx signed).dispatch
      pure (settle c ctx reply, reply.result)) := by
  simp only [execute, admission, bind_assoc, pure_bind]
  rfl

theorem Call.Within.history {k : Call} {o : Organization} {inst : Installation}
    {release : Release} {reply : Reply} (h : k.Within o inst release reply) :
    reply.history = false := by
  cases h <;> rfl

omit [Reducers] in
theorem settle_withBody (c : Command) (ctx : Context) {reply : Reply}
    (history : reply.history = false) (id : Uuid) (body : Json) :
    settle c ctx { reply with state := reply.state.withBody id body } =
      (settle c ctx reply).withBody id body := by
  simp only [settle, history, Bool.false_eq_true, if_false]
  rfl

section

variable {s : State} {c : Command} {ctx : Context} {signed : List KeyId} {o : Organization}
  {inst : Installation} {release : Release} {reply : Reply} {id : Uuid} {r : BusinessRecord}

/-- A record that an installation does not reach may say anything. -/
theorem Call.Runs.dispatch_body (runs : (callOf s c ctx signed).Runs o inst release)
    (keyed : Keyed s) (hosted : Hosted s) (kept : ObservationsKept s)
    (kind : c.actor.kind = .installation) (found : s.records.get? id = some r)
    (hidden : ¬ (callOf s c ctx signed).Reaches o inst release r .read)
    (apart : ¬ (callOf s c ctx signed).Consults o r) (body : Json)
    (h : (callOf s c ctx signed).dispatch = .ok reply) :
    ((callOf s c ctx signed).on (s.withBody id body)).dispatch =
      .ok { reply with state := reply.state.withBody id body } := by
  have hhidden : ¬ (callOf s c ctx signed).MayRead r :=
    fun hmay => hidden (runs.reaches keyed kind hmay)
  have agree : ReadersAgree s (s.withBody id body) c ctx := .withBody found hhidden
  have hwithin := runs.dispatch keyed kept kind h
  by_cases hreads : c.payload.observes = true
  · have heffect := Call.Effect.of_observes (Call.dispatch_effect h) hreads
    have hresult := runs.dispatch_withBody keyed hosted agree hreads
      (runs.dispatch_inside h)
    rw [h] at hresult
    cases hother : ((callOf s c ctx signed).on (s.withBody id body)).dispatch with
    | error e =>
      rw [hother] at hresult
      exact nomatch hresult
    | ok reply' =>
      rw [hother] at hresult
      have hsame : reply'.result = reply.result := Except.ok.inj hresult
      have heffect' := Call.Effect.of_observes (Call.dispatch_effect hother) hreads
      rw [heffect', heffect, hsame]
      rfl
  · have hpayload : ∃ p, c.payload = .mutation (.recordAppend p) := by
      have haction : c.payload.forInstallation = true := runs.action
      revert haction hreads
      cases c.payload with
      | mutation m => cases m <;> simp [Payload.forInstallation]
      | _ => simp [Payload.observes, Payload.isRead, Payload.forInstallation]
    obtain ⟨p, hpayload⟩ := hpayload
    have hk : (callOf s c ctx signed).c.payload = .mutation (.recordAppend p) := hpayload
    simp only [Call.dispatch, Call.mutate, Call.on_c, hk] at h ⊢
    refine recordAppend_withBody (callOf s c ctx signed) keyed found hk ?_ runs.org apart h
    intro hfresh hlinked
    obtain ⟨prior, hprior, hreaches, -⟩ :=
      runs.predecessor_reached keyed kind hfresh h id hlinked
    obtain rfl := Option.some.inj (found.symm.trans hprior)
    exact hidden hreaches

end

/-- The people, the companies, their rules and the handoffs stay as they are. -/
structure BusinessOnly (s t : State) : Prop where
  persons : t.persons = s.persons
  organizations : t.organizations = s.organizations
  policies : t.policies = s.policies
  profiles : t.profiles = s.profiles
  releases : t.releases = s.releases
  remoteAuthorities : t.remoteAuthorities = s.remoteAuthorities
  outgoing : t.outgoing = s.outgoing
  incoming : t.incoming = s.incoming

theorem Call.Within.businessOnly {k : Call} {o : Organization} {inst : Installation}
    {release : Release} {reply : Reply} (h : k.Within o inst release reply) :
    BusinessOnly k.s (settle k.c k.ctx reply) := by
  have hstate : ∀ t, settle k.c k.ctx reply = recordReceipt t k.c k.ctx.now reply.result →
      BusinessOnly k.s t → BusinessOnly k.s (settle k.c k.ctx reply) := by
    intro t ht hbusiness
    rw [ht]
    exact { hbusiness with }
  cases h with
  | append p company validation payload absent writes predecessor stock =>
    refine hstate _ rfl ?_
    cases company <;> exact ⟨rfl, rfl, rfl, rfl, rfl, rfl, rfl, rfl⟩
  | duplicate p company recorded payload writes known own policy profile stock =>
    exact hstate _ rfl ⟨rfl, rfl, rfl, rfl, rfl, rfl, rfl, rfl⟩
  | _ => exact hstate k.s rfl ⟨rfl, rfl, rfl, rfl, rfl, rfl, rfl, rfl⟩

/-- What holds of an accepted command of an installation: `s'` is the state that it leaves. -/
structure Call.Confined (k : Call) (o : Organization) (inst : Installation) (release : Release)
    (s' : State) (result : Option Result) : Prop where
  runs : k.Runs o inst release
  inside : k.Inside o
  within : ∃ reply, k.Within o inst release reply ∧ s' = settle k.c k.ctx reply ∧
    result = reply.result
  business : BusinessOnly k.s s'
  resolves : ∀ referenceId expectedType, k.resolver referenceId expectedType ≠ .unknown →
    ∃ r, (parseUuid referenceId).bind k.s.records.get? = some r ∧ k.Reaches o inst release r .read
  independent : ∀ id r body, k.s.records.get? id = some r →
    ¬ k.Reaches o inst release r .read → ¬ k.Consults o r →
    execute (k.s.withBody id body) k.c k.ctx = .ok (s'.withBody id body, result)

/-- Only people enroll. -/
theorem Call.not_register {k : Call} {reply : Reply} (kind : k.c.actor.kind = .installation)
    (h : k.dispatch = .ok reply) : k.c.payload.isRegister = false := by
  cases hpayload : k.c.payload with
  | mutation m =>
    cases m with
    | personRegister keys =>
      simp only [Call.dispatch, hpayload, Call.mutate, Call.personRegister, Outcome.bind_eq_ok,
        demand_eq_ok] at h
      obtain ⟨_, hperson, -⟩ := h
      exact absurd (kind.symm.trans hperson.1) (by decide)
    | _ => rfl
  | _ => rfl

/-- Every accepted command of an installation stays within the installation's policies,
actions, profiles and its human's rights. -/
theorem installations_confined {l : List Turn} {s s' : State} {c : Command} {ctx : Context}
    {result : Option Result} (path : Path l s)
    (distinct : ∀ turn ∈ l, DistinctRelease turn.state turn.command)
    (accepted : execute s c ctx = .ok (s', result)) (kind : c.actor.kind = .installation) :
    ∃ signed o inst release,
      (callOf s c ctx signed).Confined o inst release s' result := by
  have hreachable := path.reachable
  rw [execute_eq] at accepted
  simp only [Outcome.bind_eq_ok, Outcome.pure_eq_ok, Prod.mk.injEq] at accepted
  obtain ⟨signed, admitted, reply, hdispatch, rfl, rfl⟩ := accepted
  obtain ⟨o, inst, release, runs⟩ :=
    runs_of_admitted (path.installedWithin distinct) admitted kind
      (Call.not_register kind hdispatch)
  have hwithin := runs.dispatch hreachable.keyed hreachable.observationsKept kind hdispatch
  refine ⟨signed, o, inst, release, runs, runs.dispatch_inside hdispatch,
    ⟨reply, hwithin, rfl, rfl⟩, hwithin.businessOnly, ?_, ?_⟩
  · intro referenceId expectedType hresolved
    by_contra hnone
    refine hresolved (Call.resolver_unknown fun r hr hmay => hnone ⟨r, hr, ?_⟩)
    exact runs.reaches hreachable.keyed kind hmay
  · intro id r body hfound hhidden hapart
    have hadmission : admission (s.withBody id body) c ctx = admission s c ctx := by
      unfold admission
      rfl
    have hother := runs.dispatch_body hreachable.keyed hreachable.hosted
      hreachable.observationsKept kind hfound hhidden hapart body hdispatch
    show execute (s.withBody id body) c ctx = _
    rw [execute_eq, hadmission, admitted, Outcome.ok_bind]
    have hcall : callOf (s.withBody id body) c ctx signed =
        (callOf s c ctx signed).on (s.withBody id body) := rfl
    rw [hcall, hother, Outcome.ok_bind, settle_withBody c ctx hwithin.history]
    rfl

/-- The sample host trusts one assessor of modules. -/
def moduleContext : Context :=
  { sampleContext "a" 0 with
    assessmentPins := fun issuer => if issuer = "assessor" then some 400 else none }

/-- Packaging is unpublished when the product says nothing of its tracking. -/
@[reducible] def packagingReducers : Reducers :=
  { sampleReducers with
    unpublishedPackaging := fun _ product =>
      .ok (product.all fun body => (body.member? "tracking").isNone) }

def textSchema : Json :=
  .obj [("type", .str "string"), ("maxLength", .num 64)]

def objectSchema (properties : List (String × Json)) : Json :=
  .obj [("type", .str "object"), ("properties", .obj properties), ("required", .arr []),
    ("additionalProperties", .bool false)]

def goodsSchema : Json :=
  objectSchema [("base_unit", objectSchema [("system", textSchema), ("code", textSchema)]),
    ("tracking", textSchema), ("product_id", textSchema)]

def goodsBody : Json :=
  .obj [("base_unit", .obj [("system", .str "ucum"), ("code", .str "kg")]),
    ("tracking", .str "none")]

def goods : RecordPayload := ⟨31, 31, none, 1005, 22, 41, 707, [], goodsBody⟩

def fact : RecordPayload :=
  ⟨32, 32, none, 1005, 21, 31, 705, [], .obj [("product_id", idJson 31)]⟩

def assessment : Signed AssessmentBody := ⟨⟨⟨"assessor", 0, 31536000000⟩, 50, true⟩, 400, 400⟩

/-- A company keeps a product under its second policy and installs a module under its first. -/
def moduleMutations : List (Option Uuid × Mutation) :=
  [(none, .personRegister [1]),
    (some 1005, .organizationCreate "acme" 5 [1] 1),
    (some 1005, .policyCreate
      ⟨21, 0, .business, [1], 1, [⟨1, [.read, .write], .all, 31536000000⟩]⟩),
    (some 1005, .policyCreate
      ⟨22, 0, .business, [1], 1, [⟨1, [.read, .write], .all, 31536000000⟩]⟩),
    (some 1005, .profilePublish
      ⟨"product", "1.0.0", goodsSchema, .productV1, [], .privateOnly, [], 707⟩),
    (some 1005, .profilePublish
      ⟨"stock", "1.0.0", goodsSchema, .inventoryV2, [], .privateOnly, [], 705⟩),
    (some 1005, .releasePublish
      ⟨60, "1.0.0", 50, [705], [.read, .write], .privateOnly, some assessment⟩),
    (some 1005, .installationCreate
      ⟨70, 50, 7, [21], [.read, .write], .automation, 31536000000⟩),
    (some 1005, .recordAppend goods),
    (some 1005, .inventoryOpen 21 31)]

def moduleCommands : List (Command × Context) :=
  moduleMutations.mapIdx fun i m =>
    ({ sampleCommand "a" 0 (i + 1) m.1 (.mutation m.2) with signatures := [⟨1, 0⟩, ⟨7, 0⟩] },
      moduleContext)

/-- A command that the installed module signs. -/
def moduleCommand (requestId : Uuid) (payload : Payload) : Command :=
  { sampleCommand "a" 0 requestId (some 1005) payload with
    actor := ⟨.installation, 70, 7⟩, requestedBy := none, signatures := [⟨7, 0⟩] }

def moduleFact : Command := moduleCommand 20 (.mutation (.recordAppend fact))

/-- A record of a company at host `b`, disclosed to the first policy. -/
def foreignPayload : RecordPayload := ⟨81, 81, none, 2006, 99, 31, 705, [], .obj []⟩

def foreignRecord : BusinessRecord :=
  { foreignPayload with
    command := ({ sampleCommand "b" 0 9 (some 2006)
      (.mutation (.recordAppend foreignPayload)) with
        signatures := [⟨1, 0⟩] } : Command).keep (.recordAppend foreignPayload)
    seq := 1, isHead := true, acceptedAt := 0, validation := .structural 705 }

def disclosure : SignedToken :=
  ⟨.evidence ⟨⟨"b", 0, 60000⟩, 2006, ⟨1005, "a", 21, 31⟩, "order", [foreignRecord], []⟩, 200, 200⟩

def moduleInspect : Command := moduleCommand 21 (.evidenceInspect disclosure [705])

/-- Whether a command publishes no release that the state has. -/
def freshRelease (turn : Turn) : Bool :=
  match turn.command.payload, turn.command.organizationId with
  | .mutation (.releasePublish p), some org =>
    (turn.state.releases.get? (Primitives.digestRelease org p)).isNone
  | _, _ => true

omit [Reducers] in
theorem DistinctRelease.of_fresh {turn : Turn} (h : freshRelease turn = true) :
    DistinctRelease turn.state turn.command := by
  intro p org r payload named stored
  simp [freshRelease, payload, named, stored] at h

omit [Primitives] [Reducers] in
/-- The installed module appends a fact. -/
theorem installations_confined_sample :
    letI := samplePrimitives none
    letI := packagingReducers
    ∃ signed o inst release,
      (callOf (pathOf moduleCommands).2 moduleFact moduleContext signed).Confined o inst release
        (after (pathOf moduleCommands).2 (moduleFact, moduleContext)).1
        (after (pathOf moduleCommands).2 (moduleFact, moduleContext)).2 := by
  let := samplePrimitives none
  let := packagingReducers
  have hpath : Path (pathOf moduleCommands).1 (pathOf moduleCommands).2 :=
    Path.of_pathOf (by decide +kernel)
  have hfresh : ∀ turn ∈ (pathOf moduleCommands).1, freshRelease turn = true := by
    decide +kernel
  have haccepted := execute_after (pathOf moduleCommands).2 (moduleFact, moduleContext)
    (by decide +kernel)
  exact installations_confined hpath (fun turn hturn => .of_fresh (hfresh turn hturn)) haccepted
    rfl

omit [Primitives] [Reducers] in
/-- Evidence shows records of another company, under its policies; and a stock fact is checked
against the head of its product under whatever policy that is kept. -/
theorem module_reads_beyond_policies :
    letI := samplePrimitives none
    letI := packagingReducers
    (¬ ∀ l s s' c ctx source purpose expiresAt inspected profiles, Path l s →
      c.actor.kind = .installation →
      execute s c ctx = .ok (s', some (.evidence source purpose expiresAt inspected profiles)) →
      ∃ o inst, c.organizationId.bind s.organizations.get? = some o ∧
        o.installations[c.actor.id]? = some inst ∧
        ∀ x ∈ inspected, x.record.policyId ∈ inst.policyIds) ∧
    ¬ ∀ l s s' c ctx result, Path l s → c.actor.kind = .installation →
      execute s c ctx = .ok (s', result) →
      ∃ (o : Organization) (inst : Installation),
        c.organizationId.bind s.organizations.get? = some o ∧
        o.installations[c.actor.id]? = some inst ∧
        ∀ id r body, s.records.get? id = some r → r.policyId ∉ inst.policyIds →
          execute (s.withBody id body) c ctx = .ok (s'.withBody id body, result) := by
  let := samplePrimitives none
  let := packagingReducers
  have hpath : Path (pathOf moduleCommands).1 (pathOf moduleCommands).2 :=
    Path.of_pathOf (by decide +kernel)
  have hinstalled : ((moduleInspect.organizationId.bind
      (pathOf moduleCommands).2.organizations.get?).bind (·.installations[(70 : Uuid)]?)).all
        (fun inst => 99 ∉ inst.policyIds ∧ 22 ∉ inst.policyIds) = true := by decide +kernel
  constructor
  · intro h
    have haccepted := execute_after (pathOf moduleCommands).2 (moduleInspect, moduleContext)
      (by decide +kernel)
    have hresult : (after (pathOf moduleCommands).2 (moduleInspect, moduleContext)).2 =
        some (.evidence 2006 "order" 60000
          [⟨foreignPayload, foreignRecord.command, .structural 705, 1, true, 0, .structural 705⟩]
          []) := by decide +kernel
    rw [hresult] at haccepted
    obtain ⟨o, inst, horg, hinst, hpolicies⟩ := h _ _ _ _ _ _ _ _ _ _ hpath rfl haccepted
    have hinst : o.installations[(70 : Uuid)]? = some inst := hinst
    have hforeign : foreignPayload.policyId ∈ inst.policyIds :=
      hpolicies _ (List.mem_singleton_self _)
    rw [show moduleInspect.organizationId.bind (pathOf moduleCommands).2.organizations.get? =
      some o from horg, Option.bind_some, hinst] at hinstalled
    have hnone := of_decide_eq_true hinstalled
    exact hnone.1 hforeign
  · intro h
    have haccepted := execute_after (pathOf moduleCommands).2 (moduleFact, moduleContext)
      (by decide +kernel)
    obtain ⟨o, inst, horg, hinst, hindependent⟩ := h _ _ _ _ _ _ hpath rfl haccepted
    have hinst : o.installations[(70 : Uuid)]? = some inst := hinst
    rw [show moduleInspect.organizationId.bind (pathOf moduleCommands).2.organizations.get? =
      some o from horg, Option.bind_some, hinst] at hinstalled
    have hnone := of_decide_eq_true hinstalled
    have hgoods : (((pathOf moduleCommands).2.records.get? 31).any
        fun r => r.policyId = 22) = true := by decide +kernel
    obtain ⟨r, hr, hpolicy⟩ := (Option.any_eq_true _ _).mp hgoods
    have hpolicy : r.policyId = 22 := of_decide_eq_true hpolicy
    have hsame := hindependent 31 r (.obj []) hr (hpolicy ▸ hnone.2)
    have hrefused : (execute ((pathOf moduleCommands).2.withBody 31 (.obj [])) moduleFact
        moduleContext).toBool = false := by decide +kernel
    rw [show execute ((pathOf moduleCommands).2.withBody 31 (.obj [])) moduleFact moduleContext =
      _ from hsame] at hrefused
    exact nomatch hrefused

end DirectTrade
