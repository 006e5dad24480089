import DirectTrade.Foundation.Budgets

/-!
Delegated authority is attenuated, and revocation is transitive. What a grant keeps within
its parent it keeps within every ancestor; no call goes through a chain on which one grant is
revoked or outside its window; and a fresh charge has the approvals of every grant on its
chain that asks for them.
-/

namespace DirectTrade.Foundation.Authority

open Library Outcome

/-- A grant within another one. -/
structure Attenuates (g ancestor : CapabilityGrant) : Prop where
  scope : Narrower g.scope ancestor.scope
  starts : ancestor.notBefore ≤ g.notBefore
  ends : g.expiresAt ≤ ancestor.expiresAt
  metrics : g.limits.length = ancestor.limits.length
  limits : ∀ c ∈ g.limits, ∃ l ∈ ancestor.limits, l.metric = c.metric ∧ c.amount ≤ l.amount
  depth : g.delegationDepth < ancestor.delegationDepth

theorem attenuates_of_delegated {g parent : CapabilityGrant} {u : Unit}
    (h : delegated g parent = .ok u) : Attenuates g parent := by
  simp only [delegated, narrower, bind_eq_ok, demand_eq_ok] at h
  obtain ⟨_, ⟨-, hdepth⟩, _, hscope, _, ⟨hstarts, hends⟩, hmetrics, hlimits⟩ := h
  exact ⟨hscope, hstarts, hends, hmetrics, hlimits, hdepth⟩

theorem Attenuates.trans {a b c : CapabilityGrant} (h : Attenuates a b) (h' : Attenuates b c) :
    Attenuates a c where
  scope :=
    { organization := h.scope.organization.trans h'.scope.organization
      operations := fun _ hx => h'.scope.operations (h.scope.operations hx)
      profiles := fun _ hx => h'.scope.profiles (h.scope.profiles hx)
      resources := fun _ hx => h'.scope.resources (h.scope.resources hx) }
  starts := h'.starts.trans h.starts
  ends := h.ends.trans h'.ends
  metrics := h.metrics.trans h'.metrics
  limits := by
    intro x hx
    obtain ⟨y, hy, hmetric, hle⟩ := h.limits x hx
    obtain ⟨z, hz, hmetric', hle'⟩ := h'.limits y hy
    exact ⟨z, hz, hmetric'.trans hmetric, hle.trans hle'⟩
  depth := h.depth.trans h'.depth

/-- A grant of a forest keeps within every grant above it. -/
theorem Forested.attenuates {gs : List CapabilityGrant} (h : Forested gs) {id id' : Uuid}
    (habove : Relation.TransGen (fun a b => parentOf gs a = some b) id id') :
    ∀ g ∈ gs, g.id = id → ∀ g' ∈ gs, g'.id = id' → Attenuates g g' := by
  have hedge : ∀ {a b : Uuid}, parentOf gs a = some b → ∀ g ∈ gs, g.id = a →
      ∃ parent ∈ gs, parent.id = b ∧ Attenuates g parent := by
    intro a b hab g hg hid
    rw [← hid, parentOf_of_mem h hg] at hab
    obtain ⟨parent, hparent, hpid, hdelegated⟩ := h.parents g hg b hab
    exact ⟨parent, hparent, hpid, attenuates_of_delegated hdelegated⟩
  have hunique : ∀ g ∈ gs, ∀ g' ∈ gs, g.id = g'.id → g = g' := fun g hg g' hg' =>
    List.inj_on_of_nodup_map h.ids hg hg'
  induction habove using Relation.TransGen.head_induction_on with
  | single hstep =>
    intro g hg hid g' hg' hid'
    obtain ⟨parent, hparent, hpid, hwithin⟩ := hedge hstep g hg hid
    obtain rfl := hunique parent hparent g' hg' (hpid.trans hid'.symm)
    exact hwithin
  | head hstep _ ih =>
    intro g hg hid g' hg' hid'
    obtain ⟨parent, hparent, hpid, hwithin⟩ := hedge hstep g hg hid
    exact hwithin.trans (ih parent hparent hpid g' hg' hid')

theorem Forested.rank_le {gs : List CapabilityGrant} (h : Forested gs) (id : Uuid) :
    depthOf gs id ≤ 4 := by
  rw [depthOf]
  cases hfind : gs.find? fun g => g.id = id with
  | none => exact Nat.zero_le _
  | some g => exact depth_le (h.formed g (Keyed.mem_of_find? hfind).1)

/-- A charge is made only where every grant on its chain is active. -/
theorem Conserved.active_of_charge {r : Ledger} (h : Conserved r) {i : ExecutionAuthority}
    {now : ℤ} {out : Authorized} (hcharge : authorizeAndCharge r.state i now = .ok out)
    {e : GrantEntry} (he : e ∈ r.state.grants)
    (hbelow : Forest.Below r.state.parent i.grantId e.grant.id) : e.active now := by
  have hchain : ∃ es, chain r.state i.grantId now = .ok es := by
    cases charged_of_authorize hcharge with
    | replay hadmitted _ => exact ⟨_, hadmitted.chain⟩
    | fresh hadmitted _ _ _ _ _ => exact ⟨_, hadmitted.chain⟩
  obtain ⟨es, hchain⟩ := hchain
  obtain ⟨hclimbs, -, -⟩ := climbs_of_chain hchain
  refine hclimbs.active e ((hclimbs.mem_iff e).mpr ⟨Keyed.find?_of_mem h.ids he, ?_⟩)
  exact ⟨i.grantId, rfl, hbelow⟩

/-- A grant is issued only where every grant above it is active. -/
theorem Conserved.active_of_issue {r : Ledger} (h : Conserved r) {g : CapabilityGrant}
    {consents : List PrincipalConsent} {now : ℤ} {t : AuthorityState}
    (hissue : issueGrant r.state g consents now = .ok t) {leaf : Uuid}
    (hleaf : g.parentId = some leaf) {e : GrantEntry} (he : e ∈ r.state.grants)
    (hbelow : Forest.Below r.state.parent leaf e.grant.id) : e.active now := by
  obtain ⟨hissued, -⟩ := issueGrant_eq_ok hissue
  obtain ⟨parent, es, hchain, -, -⟩ := hissued.delegated leaf hleaf
  obtain ⟨hclimbs, -, -⟩ := climbs_of_chain hchain
  refine hclimbs.active e ((hclimbs.mem_iff e).mpr ⟨Keyed.find?_of_mem h.ids he, ?_⟩)
  exact ⟨leaf, rfl, hbelow⟩

/-- Nothing goes through a grant at an instant: no charge, and no grant below it. -/
structure Closed (s : AuthorityState) (leaf : Uuid) (now : ℤ) : Prop where
  charge : ∀ i out, i.grantId = leaf → authorizeAndCharge s i now ≠ .ok out
  issue : ∀ g consents t, g.parentId = some leaf → issueGrant s g consents now ≠ .ok t

theorem Conserved.closed {r : Ledger} (h : Conserved r) {e : GrantEntry}
    (he : e ∈ r.state.grants) {now : ℤ} (hinactive : ¬e.active now) {leaf : Uuid}
    (hbelow : Forest.Below r.state.parent leaf e.grant.id) : Closed r.state leaf now where
  charge := by
    rintro i out rfl hcharge
    exact hinactive (h.active_of_charge hcharge he hbelow)
  issue := by
    intro g consents t hleaf hissue
    exact hinactive (h.active_of_issue hissue hleaf he hbelow)

theorem revoke_keeps {grantId : Uuid} {l : List GrantEntry} {e : GrantEntry} (he : e ∈ l)
    (hrevoked : e.revoked = true) :
    ∃ d ∈ revoke grantId l, d.grant = e.grant ∧ d.revoked = true := by
  induction l with
  | nil => exact nomatch he
  | cons x rest ih =>
    rw [revoke]
    by_cases hx : x.grant.id = grantId
    · rw [if_pos hx]
      rcases List.mem_cons.mp he with rfl | he
      · exact ⟨_, List.mem_cons_self .., rfl, rfl⟩
      · exact ⟨e, List.mem_cons_of_mem _ he, rfl, hrevoked⟩
    · rw [if_neg hx]
      rcases List.mem_cons.mp he with rfl | he
      · exact ⟨e, List.mem_cons_self .., rfl, hrevoked⟩
      · obtain ⟨d, hd, heq⟩ := ih he
        exact ⟨d, List.mem_cons_of_mem _ hd, heq⟩

theorem Ledger.Step.keeps_revoked {r t : Ledger} (h : Ledger.Step r t) {e : GrantEntry}
    (he : e ∈ r.state.grants) (hrevoked : e.revoked = true) :
    ∃ d ∈ t.state.grants, d.grant = e.grant ∧ d.revoked = true := by
  cases h with
  | issue hcall =>
    obtain ⟨-, rfl⟩ := issueGrant_eq_ok hcall
    exact ⟨e, List.mem_append_left _ he, rfl, hrevoked⟩
  | revoke hcall =>
    rcases revokeGrant_eq_ok hcall with rfl | ⟨-, -, -, rfl⟩
    · exact ⟨e, he, rfl, hrevoked⟩
    · exact revoke_keeps he hrevoked
  | charge hcall =>
    cases charged_of_authorize hcall with
    | replay _ _ => exact ⟨e, he, rfl, hrevoked⟩
    | fresh _ _ _ _ _ _ => exact ⟨_, List.mem_map.mpr ⟨e, he, rfl⟩, rfl, hrevoked⟩

theorem keeps_revoked {r t : Ledger} (h : Relation.ReflTransGen Ledger.Step r t)
    {e : GrantEntry} (he : e ∈ r.state.grants) (hrevoked : e.revoked = true) :
    ∃ d ∈ t.state.grants, d.grant = e.grant ∧ d.revoked = true := by
  induction h with
  | refl => exact ⟨e, he, rfl, hrevoked⟩
  | tail _ hstep ih =>
    obtain ⟨d, hd, hgrant, hd'⟩ := ih
    obtain ⟨d', hd', hgrant', hrevoked'⟩ := hstep.keeps_revoked hd hd'
    exact ⟨d', hd', hgrant'.trans hgrant, hrevoked'⟩

/-- The approval of one listed person for exactly this operation under a grant. -/
structure Approves (rule : ApprovalRule) (g : CapabilityGrant) (i : ExecutionAuthority) (now : ℤ)
    (person : EntityReference) : Prop where
  listed : person ∈ rule.people
  other : rule.excludeActor = true → person ≠ i.actor
  evidence : ∃ a ∈ i.approvals, a.person = person ∧ a.grantId = g.id ∧
    a.organizationId = i.scope.organizationId ∧ a.operationId = i.operationId ∧
    a.intentDigest = i.intentDigest ∧ a.planDigest = i.planDigest ∧ now < a.expiresAt

/-- The approvals that a rule counts come from distinct people. -/
theorem approvers_of_approved {g : CapabilityGrant} {i : ExecutionAuthority} {now : ℤ}
    (hnodup : (i.approvals.map fun a => (a.grantId, a.person)).Nodup)
    (h : approved g i now = .ok ()) {rule : ApprovalRule} (hrule : g.approval = some rule) :
    ∃ people : List EntityReference, people.Nodup ∧ rule.threshold ≤ people.length ∧
      ∀ person ∈ people, Approves rule g i now person := by
  rw [approved, hrule] at h
  have hthreshold := (demand_eq_ok _ _ _).mp h
  refine ⟨(i.approvals.filter fun a => a.counts rule g i now).map ApprovalEvidence.person, ?_, ?_,
    ?_⟩
  · have hkeys : ((i.approvals.filter fun a => a.counts rule g i now).map
        fun a => (a.grantId, a.person)).Nodup := hnodup.sublist (List.filter_sublist.map _)
    have hsame : ((i.approvals.filter fun a => a.counts rule g i now).map
        fun a => (a.grantId, a.person)) =
        ((i.approvals.filter fun a => a.counts rule g i now).map ApprovalEvidence.person).map
          fun person => (g.id, person) := by
      rw [List.map_map]
      refine List.map_congr_left fun a ha => ?_
      have hcounts := of_decide_eq_true (List.mem_filter.mp ha).2
      exact congrArg (·, a.person) hcounts.1
    rw [hsame] at hkeys
    exact List.Nodup.of_map _ hkeys
  · rw [List.length_map]
    exact hthreshold
  · intro person hperson
    obtain ⟨a, ha, rfl⟩ := List.mem_map.mp hperson
    obtain ⟨hmem, hcounts⟩ := List.mem_filter.mp ha
    obtain ⟨hgrant, horganization, hoperation, hintent, hplan, hlive, hother, hlisted⟩ :=
      of_decide_eq_true hcounts
    exact ⟨hlisted, hother, a, hmem, rfl, hgrant, horganization, hoperation, hintent, hplan, hlive⟩

theorem Conserved.approvals {r : Ledger} (h : Conserved r) {i : ExecutionAuthority} {now : ℤ}
    {out : Authorized} (hcharge : authorizeAndCharge r.state i now = .ok out)
    (hfresh : out.replayed = false) {e : GrantEntry} (he : e ∈ r.state.grants)
    (hbelow : Forest.Below r.state.parent i.grantId e.grant.id) {rule : ApprovalRule}
    (hrule : e.grant.approval = some rule) :
    ∃ people : List EntityReference, people.Nodup ∧ rule.threshold ≤ people.length ∧
      ∀ person ∈ people, Approves rule e.grant i now person := by
  cases charged_of_authorize hcharge with
  | replay _ _ => exact nomatch hfresh
  | fresh hadmitted _ hnodup hcharges _ _ =>
    obtain ⟨hclimbs, -, -⟩ := climbs_of_chain hadmitted.chain
    have hmem := (hclimbs.mem_iff e).mpr ⟨Keyed.find?_of_mem h.ids he, i.grantId, rfl, hbelow⟩
    obtain ⟨c, -, hc⟩ := (exists_of_mapM hcharges).2 e hmem
    have hlimits := metrics_nodup (h.forest.formed e.grant (List.mem_map.mpr ⟨e, he, rfl⟩))
    obtain ⟨-, -, -, -, happroved⟩ := chargeEntry_eq_ok hlimits (h.metered e he) hc
    exact approvers_of_approved hnodup happroved hrule

/-- In every state that the calls reach, grants keep within their ancestors, in chains of at
most five without a cycle; a chain with a revoked grant is closed for good, and with a grant
outside its window at that instant; and a fresh charge has all the approvals of its chain. -/
theorem authority_attenuated {r : Ledger} (h : r.Reached) :
    (∀ e ∈ r.state.grants, ∀ e' ∈ r.state.grants,
      Relation.TransGen (fun a b => r.state.parent a = some b) e.grant.id e'.grant.id →
        Attenuates e.grant e'.grant) ∧
    (∀ id, ¬Relation.TransGen (fun a b => r.state.parent a = some b) id id) ∧
    (∀ path : List Uuid, path.IsChain (fun a b => r.state.parent a = some b) →
      path.length ≤ 5) ∧
    (∀ e ∈ r.state.grants, e.revoked = true → ∀ t, Relation.ReflTransGen Ledger.Step r t →
      ∀ leaf, Forest.Below t.state.parent leaf e.grant.id → ∀ now, Closed t.state leaf now) ∧
    (∀ e ∈ r.state.grants, ∀ leaf, Forest.Below r.state.parent leaf e.grant.id → ∀ now,
      now < e.grant.notBefore ∨ e.grant.expiresAt ≤ now → Closed r.state leaf now) ∧
    ∀ i now out, authorizeAndCharge r.state i now = .ok out → out.replayed = false →
      ∀ e ∈ r.state.grants, Forest.Below r.state.parent i.grantId e.grant.id →
        ∀ rule, e.grant.approval = some rule →
          ∃ people : List EntityReference, people.Nodup ∧ rule.threshold ≤ people.length ∧
            ∀ person ∈ people, Approves rule e.grant i now person := by
  have hconserved := h.conserved
  have hforest := hconserved.forest
  refine ⟨?_, Forest.acyclic hforest.ranked, ?_, ?_, ?_, ?_⟩
  · intro e he e' he' habove
    exact hforest.attenuates habove e.grant (List.mem_map.mpr ⟨e, he, rfl⟩) rfl e'.grant
      (List.mem_map.mpr ⟨e', he', rfl⟩) rfl
  · intro path hpath
    exact Forest.length_le_of_rank hforest.ranked hpath fun id _ => hforest.rank_le id
  · intro e he hrevoked t hlater leaf hbelow now
    obtain ⟨organizations, s, hcreate, hrun⟩ := h
    have hconserved' := Ledger.Reached.conserved ⟨organizations, s, hcreate, hrun.trans hlater⟩
    obtain ⟨d, hd, hgrant, hrevoked'⟩ := keeps_revoked hlater he hrevoked
    refine hconserved'.closed hd (fun hactive => ?_) (hgrant ▸ hbelow)
    exact Bool.noConfusion (hrevoked'.symm.trans hactive.1)
  · intro e he leaf hbelow now houtside
    refine hconserved.closed he (fun hactive => ?_) hbelow
    have hstarts := hactive.2.1
    have hends := hactive.2.2
    omega
  · intro i now out hcharge hfresh e he hbelow rule hrule
    exact hconserved.approvals hcharge hfresh he hbelow hrule

/-- The delegated grant of the sample keeps within the root grant. -/
theorem authority_attenuated_sample :
    Ledger.Reached ⟨sampleGranted, []⟩ ∧ Attenuates sampleChild sampleRoot := by
  refine ⟨sampleGranted_reached, ?_⟩
  have habove : sampleGranted.parent 11 = some 10 := by decide
  exact (authority_attenuated sampleGranted_reached).1 ⟨sampleChild, false, [sampleLimit 0]⟩
    (by decide) ⟨sampleRoot, false, [sampleLimit 0]⟩ (by decide) (.single habove)

/-- A grant that is not yet in its window at one instant is charged at a later one. -/
theorem not_before_opens :
    ¬∀ r : Ledger, r.Reached → ∀ e ∈ r.state.grants, ∀ leaf,
      Forest.Below r.state.parent leaf e.grant.id → ∀ now,
        now < e.grant.notBefore ∨ e.grant.expiresAt ≤ now →
          ∀ t, Relation.ReflTransGen Ledger.Step r t → ∀ later, now ≤ later →
            Closed t.state leaf later := by
  intro hclaim
  have hclosed := hclaim ⟨sampleGranted, []⟩ sampleGranted_reached
    ⟨sampleChild, false, [sampleLimit 0]⟩ (by decide) 11 (Forest.below_refl _) 50
    (.inl (by decide)) ⟨sampleGranted, []⟩ .refl 200 (by decide)
  exact hclosed.charge sampleUse _ rfl sampleUse_charged

end DirectTrade.Foundation.Authority
