import DirectTrade.Foundation.Grants
import DirectTrade.Foundation.Weights

/-!
Grant budgets are conserved. The grants of every state that the calls reach form a forest
in which a child keeps within its parent, and what a grant has used is the usage of the
operations accepted at it or anywhere below it, each of them once.
-/

namespace DirectTrade.Foundation.Authority

open Library Outcome

/-- A state, and the operations accepted on the way to it. -/
structure Ledger where
  state : AuthorityState
  accepted : List ExecutionAuthority

/-- One accepted call. A replay accepts nothing new. -/
inductive Ledger.Step : Ledger → Ledger → Prop where
  | issue {r : Ledger} {g : CapabilityGrant} {consents : List PrincipalConsent} {now : ℤ}
      {t : AuthorityState} (issued : issueGrant r.state g consents now = .ok t) :
      Step r ⟨t, r.accepted⟩
  | revoke {r : Ledger} {grantId : Uuid} {consents : List PrincipalConsent} {t : AuthorityState}
      (revoked : revokeGrant r.state grantId consents = .ok t) : Step r ⟨t, r.accepted⟩
  | charge {r : Ledger} {i : ExecutionAuthority} {now : ℤ} {out : Authorized}
      (charged : authorizeAndCharge r.state i now = .ok out) :
      Step r ⟨out.state, if out.replayed then r.accepted else r.accepted ++ [i]⟩

/-- The states that calls reach from the start. -/
def Ledger.Reached (r : Ledger) : Prop :=
  ∃ organizations s, createAuthorityState organizations = .ok s ∧
    Relation.ReflTransGen Step ⟨s, []⟩ r

theorem Ledger.Reached.step {r t : Ledger} (h : r.Reached) (hstep : Step r t) : t.Reached := by
  obtain ⟨organizations, s, hcreate, hrun⟩ := h
  exact ⟨organizations, s, hcreate, hrun.tail hstep⟩

theorem createAuthorityState_eq_ok {organizations : List Governance} {s : AuthorityState}
    (h : createAuthorityState organizations = .ok s) : s = ⟨0, organizations, [], []⟩ := by
  simp only [createAuthorityState, bind_eq_ok, pure_eq_ok] at h
  obtain ⟨_, -, _, -, _, -, rfl⟩ := h
  rfl

/-- Distinct well-formed grants, each of which keeps within its parent among them. -/
structure Forested (gs : List CapabilityGrant) : Prop where
  ids : (gs.map CapabilityGrant.id).Nodup
  formed : ∀ g ∈ gs, grant g = .ok ()
  parents : ∀ g ∈ gs, ∀ p, g.parentId = some p →
    ∃ parent ∈ gs, parent.id = p ∧ delegated g parent = .ok ()

def depthOf (gs : List CapabilityGrant) (id : Uuid) : ℕ :=
  ((gs.find? fun g => g.id = id).map CapabilityGrant.delegationDepth).getD 0

theorem parentOf_eq_some {gs : List CapabilityGrant} {id p : Uuid} (h : parentOf gs id = some p) :
    ∃ g, gs.find? (fun g => g.id = id) = some g ∧ g ∈ gs ∧ g.id = id ∧ g.parentId = some p := by
  obtain ⟨g, hfind, hp⟩ := Option.bind_eq_some_iff.mp h
  obtain ⟨hmem, hid⟩ := Keyed.mem_of_find? hfind
  exact ⟨g, hfind, hmem, hid, hp⟩

theorem parentOf_of_mem {gs : List CapabilityGrant} (h : Forested gs) {g : CapabilityGrant}
    (hg : g ∈ gs) : parentOf gs g.id = g.parentId := by
  rw [parentOf, Keyed.find?_of_mem h.ids hg]
  rfl

theorem depth_of_delegated {g parent : CapabilityGrant} {u : Unit}
    (h : delegated g parent = .ok u) : g.delegationDepth < parent.delegationDepth := by
  simp only [delegated, bind_eq_ok, demand_eq_ok] at h
  obtain ⟨_, ⟨-, hdepth⟩, -⟩ := h
  exact hdepth

theorem Forested.ranked {gs : List CapabilityGrant} (h : Forested gs) :
    Forest.Ranked (parentOf gs) (depthOf gs) := by
  intro a b hab
  obtain ⟨g, hfind, hg, -, hp⟩ := parentOf_eq_some hab
  obtain ⟨parent, hparent, rfl, hdelegated⟩ := h.parents g hg b hp
  have hlt := depth_of_delegated hdelegated
  rw [depthOf, depthOf, hfind, Keyed.find?_of_mem h.ids hparent]
  exact hlt

/-- The identifiers of a forest are closed under parents. -/
theorem Forested.closed {gs : List CapabilityGrant} (h : Forested gs) :
    ∀ a ∈ {a | a ∈ gs.map CapabilityGrant.id}, ∀ b, parentOf gs a = some b →
      b ∈ {a | a ∈ gs.map CapabilityGrant.id} := by
  intro a _ b hab
  obtain ⟨g, -, hg, -, hp⟩ := parentOf_eq_some hab
  obtain ⟨parent, hparent, rfl, -⟩ := h.parents g hg b hp
  exact List.mem_map.mpr ⟨parent, hparent, rfl⟩

/-- A new grant leaves the parents of the others as they are. -/
theorem parentOf_append {gs : List CapabilityGrant} {g : CapabilityGrant} :
    ∀ a ∈ {a | a ∈ gs.map CapabilityGrant.id}, parentOf (gs ++ [g]) a = parentOf gs a := by
  intro a ha
  obtain ⟨d, hd, rfl⟩ := List.mem_map.mp ha
  have hfound : ∃ d', gs.find? (fun x => x.id = d.id) = some d' := by
    rw [← Option.isSome_iff_exists, List.find?_isSome]
    exact ⟨d, hd, by simp⟩
  obtain ⟨d', hfound⟩ := hfound
  rw [parentOf, parentOf, List.find?_append, hfound]
  rfl

theorem forested_nil : Forested [] := ⟨List.nodup_nil, nofun, nofun⟩

theorem Forested.issue {s : AuthorityState} {g : CapabilityGrant} {now : ℤ}
    (h : Forested s.capabilities) (hissued : Issued s g now) :
    Forested (s.capabilities ++ [g]) where
  ids := by
    rw [List.map_append, List.nodup_append]
    refine ⟨h.ids, List.nodup_singleton _, ?_⟩
    intro a ha b hb hab
    obtain rfl := List.mem_singleton.mp hb
    obtain ⟨d, hd, rfl⟩ := List.mem_map.mp ha
    obtain ⟨e, he, rfl⟩ := List.mem_map.mp hd
    exact hissued.fresh e he hab
  formed := by
    intro d hd
    rcases List.mem_append.mp hd with hd | hd
    · exact h.formed d hd
    · exact List.mem_singleton.mp hd ▸ hissued.formed
  parents := by
    intro d hd p hp
    rcases List.mem_append.mp hd with hd | hd
    · obtain ⟨parent, hparent, hid, hdelegated⟩ := h.parents d hd p hp
      exact ⟨parent, List.mem_append_left _ hparent, hid, hdelegated⟩
    · obtain rfl := List.mem_singleton.mp hd
      obtain ⟨parent, -, -, hfound, hdelegated⟩ := hissued.delegated p hp
      obtain ⟨hmem, hid⟩ := find?_eq_some hfound
      exact ⟨parent.grant, List.mem_append_left _ (List.mem_map.mpr ⟨parent, hmem, rfl⟩), hid,
        hdelegated⟩

theorem metrics_nodup {g : CapabilityGrant} (h : grant g = .ok ()) :
    (g.limits.map Limit.metric).Nodup := by
  simp only [grant, limits, values, bind_eq_ok, demand_eq_ok] at h
  obtain ⟨_, -, _, -, _, -, _, -, _, -, _, ⟨_, ⟨-, hnodup⟩, -⟩, -⟩ := h
  exact hnodup

theorem depth_le {g : CapabilityGrant} (h : grant g = .ok ()) : g.delegationDepth ≤ 4 := by
  simp only [grant, bind_eq_ok, demand_eq_ok] at h
  obtain ⟨_, -, _, -, _, -, _, -, _, ⟨-, hdepth⟩, -⟩ := h
  exact hdepth

/-- Revocation changes nothing but the mark of the first entry of a grant. -/
theorem mem_revoke {grantId : Uuid} {l : List GrantEntry} {e : GrantEntry}
    (h : e ∈ revoke grantId l) : ∃ d ∈ l, e.grant = d.grant ∧ e.used = d.used ∧
      (d.revoked = true → e.revoked = true) := by
  induction l with
  | nil => exact nomatch h
  | cons d rest ih =>
    rw [revoke] at h
    by_cases hd : d.grant.id = grantId
    · rw [if_pos hd] at h
      rcases List.mem_cons.mp h with rfl | h
      · exact ⟨d, List.mem_cons_self .., rfl, rfl, fun _ => rfl⟩
      · exact ⟨e, List.mem_cons_of_mem _ h, rfl, rfl, id⟩
    · rw [if_neg hd] at h
      rcases List.mem_cons.mp h with rfl | h
      · exact ⟨e, List.mem_cons_self .., rfl, rfl, id⟩
      · obtain ⟨d', hd', heq⟩ := ih h
        exact ⟨d', List.mem_cons_of_mem _ hd', heq⟩

theorem capabilities_withRevoked (s : AuthorityState) (grantId : Uuid) :
    (s.withRevoked grantId).capabilities = s.capabilities := by
  show (revoke grantId s.grants).map GrantEntry.grant = s.grants.map GrantEntry.grant
  induction s.grants with
  | nil => rfl
  | cons d rest ih =>
    rw [revoke]
    by_cases hd : d.grant.id = grantId
    · rw [if_pos hd]
      rfl
    · rw [if_neg hd, List.map_cons, List.map_cons, ih]

@[simp] theorem recharged_grant (charged : List GrantEntry) (e : GrantEntry) :
    (e.recharged charged).grant = e.grant := rfl

@[simp] theorem recharged_revoked (charged : List GrantEntry) (e : GrantEntry) :
    (e.recharged charged).revoked = e.revoked := rfl

theorem capabilities_withCharge (s : AuthorityState) (charged : List GrantEntry)
    (receipt : AuthorityReceipt) :
    (s.withCharge charged receipt).capabilities = s.capabilities := by
  rw [AuthorityState.capabilities, AuthorityState.withCharge, List.map_map]
  rfl

theorem chargeEntry_grant {i : ExecutionAuthority} {now : ℤ} {e c : GrantEntry}
    (h : chargeEntry i now e = .ok c) : c.grant = e.grant := by
  simp only [chargeEntry, bind_eq_ok, pure_eq_ok] at h
  obtain ⟨_, -, _, -, used, -, _, -, rfl⟩ := h
  rfl

/-- Of the entries of a state, those of the chain are charged and the others stay. -/
theorem recharged_cases {s : AuthorityState} (hids : (s.grants.map fun e => e.grant.id).Nodup)
    {i : ExecutionAuthority} {now : ℤ} {es charged : List GrantEntry} (hsub : es ⊆ s.grants)
    (hcharged : es.mapM (chargeEntry i now) = .ok charged) {e : GrantEntry} (he : e ∈ s.grants) :
    (e ∈ es ∧ ∃ c, chargeEntry i now e = .ok c ∧ (e.recharged charged).used = c.used) ∨
      (e ∉ es ∧ (e.recharged charged).used = e.used) := by
  obtain ⟨hback, hforth⟩ := exists_of_mapM hcharged
  rw [GrantEntry.recharged]
  cases hfind : charged.find? fun c => c.grant.id = e.grant.id with
  | none =>
    refine .inr ⟨fun hmem => ?_, rfl⟩
    obtain ⟨c, hc, hcharge⟩ := hforth e hmem
    refine Keyed.find?_eq_none_iff.mp hfind (List.mem_map.mpr ⟨c, hc, ?_⟩)
    exact congrArg CapabilityGrant.id (chargeEntry_grant hcharge)
  | some c =>
    obtain ⟨hc, hid⟩ := Keyed.mem_of_find? hfind
    obtain ⟨d, hd, hcharge⟩ := hback c hc
    have hdid : d.grant.id = e.grant.id :=
      (congrArg CapabilityGrant.id (chargeEntry_grant hcharge)).symm.trans hid
    obtain rfl : d = e := List.inj_on_of_nodup_map hids (hsub hd) he hdid
    exact .inl ⟨hd, c, hcharge, rfl⟩

/-- What an accepted operation charges. -/
noncomputable def charges (r : Ledger) (metric : ExternalIdentifier) (id : Uuid) : ℕ :=
  Forest.load r.state.parent ExecutionAuthority.grantId (fun i => amountOf metric i.usage)
    r.accepted id

structure Conserved (r : Ledger) : Prop where
  forest : Forested r.state.capabilities
  metered : ∀ e ∈ r.state.grants, Metered e.grant e.used
  leaves : ∀ i ∈ r.accepted, i.grantId ∈ r.state.capabilities.map CapabilityGrant.id
  used : ∀ e ∈ r.state.grants, ∀ metric, amountOf metric e.used = charges r metric e.grant.id
  receipts : r.state.receipts = r.accepted.map ExecutionAuthority.receipt
  once : (r.accepted.map ExecutionAuthority.key).Nodup

theorem Conserved.ids {r : Ledger} (h : Conserved r) :
    (r.state.grants.map fun e => e.grant.id).Nodup := by
  have hids := h.forest.ids
  rw [AuthorityState.capabilities, List.map_map] at hids
  exact hids

theorem conserved_create {organizations : List Governance} {s : AuthorityState}
    (h : createAuthorityState organizations = .ok s) : Conserved ⟨s, []⟩ := by
  obtain rfl := createAuthorityState_eq_ok h
  exact ⟨forested_nil, nofun, nofun, nofun, rfl, List.nodup_nil⟩

theorem Conserved.issue {r : Ledger} {g : CapabilityGrant} {now : ℤ} (h : Conserved r)
    (hissued : Issued r.state g now) : Conserved ⟨r.state.withGrant g, r.accepted⟩ := by
  have hcapabilities : (r.state.withGrant g).capabilities = r.state.capabilities ++ [g] := by
    rw [AuthorityState.capabilities, AuthorityState.withGrant, List.map_append]
    rfl
  have hforest := h.forest.issue hissued
  -- below the old grants everything is as it was
  have hbelow : ∀ i ∈ r.accepted, ∀ b,
      Forest.Below (r.state.withGrant g).parent i.grantId b ↔
        Forest.Below r.state.parent i.grantId b := by
    intro i hi b
    rw [AuthorityState.parent, hcapabilities]
    exact Forest.below_congr h.forest.closed parentOf_append (h.leaves i hi)
  have hcharges : ∀ metric b, charges ⟨r.state.withGrant g, r.accepted⟩ metric b =
      charges r metric b := fun metric b =>
    Forest.load_congr fun i hi => hbelow i hi b
  have hzero : ∀ metric,
      amountOf metric (g.limits.map fun l => { l with amount := 0 }) = 0 := by
    intro metric
    induction g.limits with
    | nil => rfl
    | cons l rest ih =>
      rw [List.map_cons, amountOf_cons, ih]
      by_cases hl : l.metric = metric
      · rw [if_pos hl]
      · rw [if_neg hl]
  refine ⟨hcapabilities ▸ hforest, ?_, ?_, ?_, h.receipts, h.once⟩
  · intro e he
    rcases List.mem_append.mp he with he | he
    · exact h.metered e he
    · obtain rfl := List.mem_singleton.mp he
      refine ⟨by simp, fun l _ => ?_⟩
      rw [hzero]
      exact Nat.zero_le _
  · intro i hi
    rw [hcapabilities, List.map_append]
    exact List.mem_append_left _ (h.leaves i hi)
  · intro e he metric
    rw [hcharges]
    rcases List.mem_append.mp he with he | he
    · exact h.used e he metric
    · obtain rfl := List.mem_singleton.mp he
      rw [hzero]
      refine (Forest.load_eq_zero fun i hi hmem => ?_).symm
      have hin := Forest.Below.mem h.forest.closed (h.leaves i hi) hmem
      obtain ⟨d, hd, hid⟩ := List.mem_map.mp hin
      obtain ⟨e, he, rfl⟩ := List.mem_map.mp hd
      exact hissued.fresh e he hid

theorem Conserved.revoked {r : Ledger} {grantId : Uuid} (h : Conserved r) :
    Conserved ⟨r.state.withRevoked grantId, r.accepted⟩ := by
  have hcapabilities := capabilities_withRevoked r.state grantId
  have hparent : (r.state.withRevoked grantId).parent = r.state.parent := by
    rw [AuthorityState.parent, hcapabilities]
    rfl
  refine ⟨hcapabilities ▸ h.forest, ?_, fun i hi => hcapabilities ▸ h.leaves i hi, ?_, h.receipts,
    h.once⟩
  · intro e he
    obtain ⟨d, hd, hgrant, hused, -⟩ := mem_revoke he
    rw [hgrant, hused]
    exact h.metered d hd
  · intro e he metric
    obtain ⟨d, hd, hgrant, hused, -⟩ := mem_revoke he
    rw [charges, hparent, hgrant, hused]
    exact h.used d hd metric

theorem Conserved.charge {r : Ledger} {i : ExecutionAuthority} {now : ℤ}
    {es charged : List GrantEntry} (h : Conserved r) (hadmitted : Admitted r.state i now es)
    (hunknown : i.key ∉ r.state.receipts.map AuthorityReceipt.key)
    (hcharged : es.mapM (chargeEntry i now) = .ok charged) :
    Conserved ⟨r.state.withCharge charged i.receipt, r.accepted ++ [i]⟩ := by
  have hcapabilities := capabilities_withCharge r.state charged i.receipt
  obtain ⟨hclimbs, -, -⟩ := climbs_of_chain hadmitted.chain
  have hsub : es ⊆ r.state.grants := fun e he =>
    (find?_eq_some ((hclimbs.mem_iff e).mp he).1).1
  -- the chain is what lies above the leaf
  have hmem : ∀ e ∈ r.state.grants,
      (e ∈ es ↔ Forest.Below r.state.parent i.grantId e.grant.id) := by
    intro e he
    rw [hclimbs.mem_iff]
    constructor
    · rintro ⟨-, a, ha, hbelow⟩
      exact Option.some.inj ha ▸ hbelow
    · exact fun hbelow => ⟨Keyed.find?_of_mem h.ids he, i.grantId, rfl, hbelow⟩
  have hstep : ∀ e ∈ r.state.grants, Metered e.grant (e.recharged charged).used ∧
      ∀ metric, amountOf metric (e.recharged charged).used = amountOf metric e.used +
        (open Classical in if Forest.Below r.state.parent i.grantId e.grant.id
          then amountOf metric i.usage else 0) := by
    intro e he
    have hnodup := metrics_nodup (h.forest.formed e.grant (List.mem_map.mpr ⟨e, he, rfl⟩))
    rcases recharged_cases h.ids hsub hcharged he with ⟨hin, c, hc, hused⟩ | ⟨hout, hused⟩
    · obtain ⟨-, -, hmetered, hamounts, -⟩ := chargeEntry_eq_ok hnodup (h.metered e he) hc
      rw [hused]
      refine ⟨hmetered, fun metric => ?_⟩
      rw [hamounts, if_pos ((hmem e he).mp hin)]
    · rw [hused]
      refine ⟨h.metered e he, fun metric => ?_⟩
      rw [if_neg fun hbelow => hout ((hmem e he).mpr hbelow)]
      rfl
  have hleaf : i.grantId ∈ r.state.capabilities.map CapabilityGrant.id := by
    cases hclimbs with
    | step hfound _ _ =>
      obtain ⟨hin, hid⟩ := find?_eq_some hfound
      exact List.mem_map.mpr ⟨_, List.mem_map.mpr ⟨_, hin, rfl⟩, hid⟩
  refine ⟨hcapabilities ▸ h.forest, ?_, ?_, ?_, ?_, ?_⟩
  · intro e' he'
    obtain ⟨e, he, rfl⟩ := List.mem_map.mp he'
    exact (hstep e he).1
  · intro j hj
    rw [hcapabilities]
    rcases List.mem_append.mp hj with hj | hj
    · exact h.leaves j hj
    · exact List.mem_singleton.mp hj ▸ hleaf
  · intro e' he' metric
    obtain ⟨e, he, rfl⟩ := List.mem_map.mp he'
    have hparent : (r.state.withCharge charged i.receipt).parent = r.state.parent := by
      rw [AuthorityState.parent, hcapabilities]
      rfl
    rw [(hstep e he).2 metric, h.used e he metric, charges, charges, hparent,
      Forest.load_append_singleton]
    rfl
  · show r.state.receipts ++ [i.receipt] = _
    rw [h.receipts, List.map_append]
    rfl
  · rw [List.map_append, List.nodup_append]
    refine ⟨h.once, List.nodup_singleton _, ?_⟩
    intro a ha b hb hab
    obtain rfl := List.mem_singleton.mp hb
    apply hunknown
    rw [h.receipts, List.map_map, ← hab]
    exact ha

theorem Conserved.step {r t : Ledger} (h : Conserved r) (hstep : Ledger.Step r t) :
    Conserved t := by
  cases hstep with
  | issue hcall =>
    obtain ⟨hissued, rfl⟩ := issueGrant_eq_ok hcall
    exact h.issue hissued
  | revoke hcall =>
    rcases revokeGrant_eq_ok hcall with rfl | ⟨-, -, -, rfl⟩
    · exact h
    · exact h.revoked
  | charge hcall =>
    cases charged_of_authorize hcall with
    | replay _ _ => exact h
    | fresh hadmitted hunknown _ hcharges _ _ => exact h.charge hadmitted hunknown hcharges

theorem Ledger.Reached.conserved {r : Ledger} (h : r.Reached) : Conserved r := by
  obtain ⟨organizations, s, hcreate, hrun⟩ := h
  induction hrun with
  | refl => exact conserved_create hcreate
  | tail _ hstep ih => exact ih.step hstep

/-- The grants issued directly below a grant. -/
def AuthorityState.children (s : AuthorityState) (id : Uuid) : List GrantEntry :=
  s.grants.filter fun e => e.grant.parentId = some id

/-- The children of a grant have used no more than the grant. -/
theorem Conserved.children_le {r : Ledger} (h : Conserved r) {e : GrantEntry}
    (he : e ∈ r.state.grants) (metric : ExternalIdentifier) :
    ((r.state.children e.grant.id).map fun c => amountOf metric c.used).sum ≤
      amountOf metric e.used := by
  have hsub : ∀ c ∈ r.state.children e.grant.id, c ∈ r.state.grants := fun c hc =>
    (List.mem_filter.mp hc).1
  have hused : (r.state.children e.grant.id).map (fun c => amountOf metric c.used) =
      ((r.state.children e.grant.id).map fun c => c.grant.id).map (charges r metric) := by
    rw [List.map_map]
    exact List.map_congr_left fun c hc => h.used c (hsub c hc) metric
  rw [hused, h.used e he metric]
  refine Forest.sum_children_le h.forest.ranked ?_ ?_ _
  · exact h.ids.sublist (List.filter_sublist.map _)
  · intro id hid
    obtain ⟨c, hc, rfl⟩ := List.mem_map.mp hid
    obtain ⟨hmem, hparent⟩ := List.mem_filter.mp hc
    have hown := parentOf_of_mem h.forest (List.mem_map.mpr ⟨c, hmem, rfl⟩)
    exact hown.trans (of_decide_eq_true hparent)

/-- Whatever calls reach a state, every grant has used exactly what the operations accepted
at it or below it used, within its limits and no less than its children together; and every
operation has been charged once, a replay never. -/
theorem budgets_conserved {r : Ledger} (h : r.Reached) :
    (∀ e ∈ r.state.grants, ∀ metric,
      amountOf metric e.used = charges r metric e.grant.id ∧
      (∀ l ∈ e.grant.limits, l.metric = metric → amountOf metric e.used ≤ l.amount) ∧
      ((r.state.children e.grant.id).map fun c => amountOf metric c.used).sum ≤
        amountOf metric e.used) ∧
    r.state.receipts = r.accepted.map ExecutionAuthority.receipt ∧
    (r.accepted.map ExecutionAuthority.key).Nodup ∧
    ∀ i now out, authorizeAndCharge r.state i now = .ok out →
      (out.replayed = true ↔ i.key ∈ r.accepted.map ExecutionAuthority.key) ∧
      (out.replayed = true → out.state = r.state) := by
  have hconserved := h.conserved
  refine ⟨?_, hconserved.receipts, hconserved.once, ?_⟩
  · intro e he metric
    refine ⟨hconserved.used e he metric, ?_, hconserved.children_le he metric⟩
    rintro l hl rfl
    exact (hconserved.metered e he).within l hl
  · intro i now out hout
    have hkeys : r.state.receipts.map AuthorityReceipt.key =
        r.accepted.map ExecutionAuthority.key := by
      rw [hconserved.receipts, List.map_map]
      rfl
    rw [← hkeys]
    cases charged_of_authorize hout with
    | replay _ hknown => exact ⟨⟨fun _ => hknown, fun _ => rfl⟩, fun _ => rfl⟩
    | fresh _ hunknown _ _ _ _ => exact ⟨⟨nofun, fun hknown => absurd hknown hunknown⟩, nofun⟩

def sampleGovernance : Governance := ⟨1, [.person 7], 1⟩

def sampleScope : OperationScope := ⟨1, ["trade.quote"], [3], [4]⟩

/-- So many cases. -/
def sampleLimit (n : ℕ) : Limit := ⟨⟨.organization 1, "cases", "cases"⟩, n⟩

/-- A grant of nine cases to one person, who may delegate. -/
def sampleRoot : CapabilityGrant :=
  ⟨10, none, .person 8, sampleScope, 100, 900, 1, [sampleLimit 9], none⟩

/-- Six of the cases, delegated to another person. -/
def sampleChild : CapabilityGrant :=
  ⟨11, some 10, .person 9, sampleScope, 100, 800, 0, [sampleLimit 6], none⟩

/-- Three cases, used under the delegated grant. -/
def sampleUse : ExecutionAuthority :=
  ⟨.person 9, 11, sampleScope, 20, 21, 22, [sampleLimit 3], []⟩

def sampleStart : AuthorityState := ⟨0, [sampleGovernance], [], []⟩

def sampleGranted : AuthorityState := (sampleStart.withGrant sampleRoot).withGrant sampleChild

/-- Both grants are charged. -/
def sampleLedger : Ledger :=
  ⟨sampleGranted.withCharge
    [⟨sampleChild, false, [sampleLimit 3]⟩, ⟨sampleRoot, false, [sampleLimit 3]⟩]
    sampleUse.receipt, [sampleUse]⟩

theorem fits_sampleLimits (n : ℕ) (hn : n < 10 ^ 78) :
    Fits (.arr ([sampleLimit n].map Limit.json)) 10 4 270 := by
  have hcases : Json.textBytes "cases" = 7 ∧ textLength "cases" = 5 := by decide
  have hmetric : Fits (sampleLimit n).metric.json 7 2 (152 + 14) := by
    refine fits_identifier ⟨?_, ?_⟩ ?_
    · exact hcases.2.trans_le (by omega)
    · exact hcases.2.trans_le (by omega)
    · exact (congrArg₂ (· + ·) hcases.1 hcases.1).le
  have hlimits : Fits (.arr ([sampleLimit n].map Limit.json)) (1 + 1 * 9) (3 + 1)
      (2 + 1 * (101 + (152 + 14) + 1)) := by
    refine fits_arr (by simp) (by omega) fun j hj => ?_
    rw [List.map_singleton] at hj
    rw [List.mem_singleton.mp hj]
    exact fits_limit hmetric hn
  exact hlimits.mono (by omega) (by omega) (by omega)

theorem fits_sampleScope : Fits sampleScope.json 8 2 226 := by
  have hname : Json.textBytes "trade.quote" = 13 ∧ textLength "trade.quote" = 11 := by decide
  have hoperations : Fits (.arr (sampleScope.operations.map .str)) (1 + 1 * 1) (0 + 1)
      (2 + 1 * (13 + 1)) := by
    refine fits_arr (by simp [sampleScope]) (by omega) fun j hj => ?_
    rw [sampleScope, List.map_singleton] at hj
    rw [List.mem_singleton.mp hj]
    refine ⟨Nat.le_refl _, Nat.le_refl _, hname.1.le, ?_⟩
    rw [Json.plain_str, hname.2]
    rfl
  have hscope := fits_scope (p := 1) (r := 1) hoperations (by simp [sampleScope])
    (by simp [sampleScope]) ⟨by omega, by omega⟩
  exact hscope.mono (by omega) (by omega) (by omega)

/-- A grant in the sample's scope, of one limit. -/
structure Sampled (g : CapabilityGrant) : Prop where
  scope : g.scope = sampleScope
  limits : ∃ n < 10 ^ 78, g.limits = [sampleLimit n]
  approval : g.approval = none
  timed : Timed g

theorem sampled_root : Sampled sampleRoot :=
  ⟨rfl, ⟨9, by omega, rfl⟩, rfl, by decide, by decide, by decide⟩

theorem sampled_child : Sampled sampleChild :=
  ⟨rfl, ⟨6, by omega, rfl⟩, rfl, by decide, by decide, by decide⟩

theorem Sampled.fits {g : CapabilityGrant} (h : Sampled g) : Fits g.json 29 5 861 := by
  obtain ⟨hscope, ⟨n, hn, hlimits⟩, happroval, htimed⟩ := h
  have hs : Fits g.scope.json 8 2 226 := hscope ▸ fits_sampleScope
  have hl : Fits (.arr (g.limits.map Limit.json)) 10 4 270 := hlimits ▸ fits_sampleLimits n hn
  exact (fits_grant hs hl happroval htimed).mono (by omega) (by omega) (by omega)

theorem fits_sampleGovernance {gs : List Governance} (h : gs = [sampleGovernance]) :
    Fits (.arr (gs.map Governance.json)) 9 4 233 := by
  have hall : Fits (.arr (gs.map Governance.json)) (1 + 1 * (4 + 1 * 4)) (3 + 1)
      (2 + 1 * (105 + 1 * 125 + 1)) := by
    rw [h]
    refine fits_arr (by simp) (by omega) fun j hj => ?_
    rw [List.map_singleton] at hj
    rw [List.mem_singleton.mp hj]
    exact fits_governance (by simp [sampleGovernance]) (by omega) (by decide)
  exact hall.mono (by omega) (by omega) (by omega)

/-- The states of the sample are small enough to be copied. -/
theorem copy_sampleState {s : AuthorityState} (hgovernance : s.governance = [sampleGovernance])
    (hgrants : ∀ e ∈ s.grants, Sampled e.grant ∧ e.used = [sampleLimit 0])
    (hlength : s.grants.length ≤ 2) (hreceipts : s.receipts = []) (hrevision : s.revision ≤ 2) :
    copy s.json = .ok () := by
  have he : Fits (.arr (s.grants.map GrantEntry.json)) (1 + 2 * (2 + 29 + 10)) (6 + 1)
      (2 + 2 * (34 + 861 + 270 + 1)) := by
    refine fits_arr (b := 34 + 861 + 270) (by simpa using hlength) (by omega) fun j hj => ?_
    obtain ⟨e, he, rfl⟩ := List.mem_map.mp hj
    obtain ⟨hgrant, hused⟩ := hgrants e he
    refine fits_entry hgrant.fits ?_
    rw [hused]
    exact fits_sampleLimits 0 (by omega)
  have hstate := fits_state (fits_sampleGovernance hgovernance) he hreceipts (by omega)
  exact copy_eq_ok (hstate.copyable (by omega) (by omega) (by omega))

theorem copy_sampleConsent (id : Uuid) :
    copy (.arr ([⟨.person id⟩].map PrincipalConsent.json)) = .ok () :=
  copy_eq_ok ((fits_consents (k := 1) (Nat.le_refl _) (by omega)).copyable (by omega) (by omega)
    (by omega))

theorem copy_sampleGrant {g : CapabilityGrant} (h : Sampled g) : copy g.json = .ok () :=
  copy_eq_ok (h.fits.copyable (by omega) (by omega) (by omega))

theorem sampleStart_created : createAuthorityState [sampleGovernance] = .ok sampleStart := by
  have hcopy : copy (.arr ([sampleGovernance].map Governance.json)) = .ok () :=
    copy_eq_ok ((fits_sampleGovernance rfl).copyable (by omega) (by omega) (by omega))
  rw [createAuthorityState, hcopy]
  decide

theorem copy_sampleStart : copy sampleStart.json = .ok () :=
  copy_sampleState rfl (fun _ he => nomatch he) (by decide) rfl (by decide)

theorem copy_sampleRooted : copy (sampleStart.withGrant sampleRoot).json = .ok () := by
  refine copy_sampleState rfl (fun e he => ?_) (by decide) rfl (by decide)
  rw [List.mem_singleton.mp he]
  exact ⟨sampled_root, rfl⟩

theorem copy_sampleGranted : copy sampleGranted.json = .ok () := by
  refine copy_sampleState rfl (fun e he => ?_) (by decide) rfl (by decide)
  rcases List.mem_cons.mp he with rfl | he
  · exact ⟨sampled_root, rfl⟩
  · rw [List.mem_singleton.mp he]
    exact ⟨sampled_child, rfl⟩

theorem sampleRoot_issued : issueGrant sampleStart sampleRoot [⟨.person 7⟩] 200 =
    .ok (sampleStart.withGrant sampleRoot) := by
  rw [issueGrant, copy_sampleStart, copy_sampleGrant sampled_root, copy_sampleConsent]
  decide

theorem sampleChild_issued :
    issueGrant (sampleStart.withGrant sampleRoot) sampleChild [⟨.person 8⟩] 200 =
      .ok sampleGranted := by
  rw [issueGrant, copy_sampleRooted, copy_sampleGrant sampled_child, copy_sampleConsent]
  decide

theorem sampleGranted_reached : Ledger.Reached ⟨sampleGranted, []⟩ := by
  have hfirst : Ledger.Step ⟨sampleStart, []⟩ ⟨sampleStart.withGrant sampleRoot, []⟩ :=
    .issue (r := ⟨sampleStart, []⟩) sampleRoot_issued
  have hsecond : Ledger.Step ⟨sampleStart.withGrant sampleRoot, []⟩ ⟨sampleGranted, []⟩ :=
    .issue (r := ⟨sampleStart.withGrant sampleRoot, []⟩) sampleChild_issued
  exact ⟨_, sampleStart, sampleStart_created, (Relation.ReflTransGen.single hfirst).tail hsecond⟩

theorem sampleUse_charged : authorizeAndCharge sampleGranted sampleUse 200 =
    .ok ⟨sampleLedger.state, false, [11, 10]⟩ := by
  have hscope : Fits sampleUse.scope.json 8 2 226 := fits_sampleScope
  have husage : Fits (.arr (sampleUse.usage.map Limit.json)) 10 4 270 :=
    fits_sampleLimits 3 (by omega)
  have huse := fits_execution hscope husage rfl
  rw [authorizeAndCharge, authorized, copy_sampleGranted,
    copy_eq_ok (huse.copyable (by omega) (by omega) (by omega))]
  decide

theorem sampleLedger_reached : sampleLedger.Reached := by
  have hstep : Ledger.Step ⟨sampleGranted, []⟩ ⟨sampleLedger.state, [] ++ [sampleUse]⟩ :=
    .charge (r := ⟨sampleGranted, []⟩) sampleUse_charged
  exact sampleGranted_reached.step hstep

/-- The three cases are charged to both grants, within their limits. -/
theorem budgets_conserved_sample :
    sampleLedger.Reached ∧ ∃ e ∈ sampleLedger.state.grants,
      charges sampleLedger (sampleLimit 0).metric e.grant.id = 3 := by
  refine ⟨sampleLedger_reached, ⟨sampleRoot, false, [sampleLimit 3]⟩, by decide, ?_⟩
  have hused := ((budgets_conserved sampleLedger_reached).1 ⟨sampleRoot, false, [sampleLimit 3]⟩
    (by decide) (sampleLimit 0).metric).1
  rw [← hused]
  decide

end DirectTrade.Foundation.Authority
