import DirectTrade.Foundation.Authority
import DirectTrade.Library.Forest
import DirectTrade.Library.Keyed

/-!
What a call on an authority state does. One lemma for each operation says all that an
accepted call has checked and the state it leads to; one invariant says what the grants of
every state that the calls reach are like.
-/

namespace DirectTrade.Foundation.Authority

open Library Outcome

def AuthorityState.capabilities (s : AuthorityState) : List CapabilityGrant :=
  s.grants.map GrantEntry.grant

/-- The parent of a grant among others. -/
def parentOf (gs : List CapabilityGrant) (id : Uuid) : Option Uuid :=
  (gs.find? fun g => g.id = id).bind CapabilityGrant.parentId

def AuthorityState.parent (s : AuthorityState) : Uuid → Option Uuid := parentOf s.capabilities

theorem find?_eq_some {s : AuthorityState} {id : Uuid} {e : GrantEntry} (h : s.find? id = some e) :
    e ∈ s.grants ∧ e.grant.id = id :=
  Keyed.mem_of_find? h

theorem parent_of_find? {s : AuthorityState} {id : Uuid} {e : GrantEntry}
    (h : s.find? id = some e) : s.parent id = e.grant.parentId := by
  have hfind : s.capabilities.find? (fun g => g.id = id) = some e.grant := by
    rw [AuthorityState.capabilities, List.find?_map]
    exact congrArg (Option.map GrantEntry.grant) h
  rw [AuthorityState.parent, parentOf, hfind]
  rfl

/-- The grants from one up to its root, every one of them active. -/
inductive Climbs (s : AuthorityState) (now : ℤ) : Option Uuid → List GrantEntry → Prop where
  | root : Climbs s now none []
  | step {id : Uuid} {e : GrantEntry} {rest : List GrantEntry} (found : s.find? id = some e)
      (active : e.active now) (above : Climbs s now e.grant.parentId rest) :
      Climbs s now (some id) (e :: rest)

theorem climbs_of_climb {s : AuthorityState} {now : ℤ} {room : ℕ} {seen : List Uuid}
    {start : Option Uuid} {es : List GrantEntry} (h : climb s now room seen start = .ok es) :
    Climbs s now start es ∧ (es.map fun e => e.grant.id).Nodup ∧
      (∀ e ∈ es, e.grant.id ∉ seen) ∧ es.length ≤ room := by
  induction room generalizing seen start es with
  | zero =>
    cases start with
    | none =>
      obtain rfl := Except.ok.inj h
      exact ⟨.root, List.nodup_nil, nofun, Nat.zero_le _⟩
    | some id => exact nomatch h
  | succ room ih =>
    cases start with
    | none =>
      obtain rfl := Except.ok.inj h
      exact ⟨.root, List.nodup_nil, nofun, Nat.zero_le _⟩
    | some id =>
      simp only [climb, entry, bind_eq_ok, demand_eq_ok, require_eq_ok, pure_eq_ok] at h
      obtain ⟨_, hfresh, e, hfound, _, hactive, rest, hrest, rfl⟩ := h
      obtain ⟨habove, hnodup, hseen, hlength⟩ := ih hrest
      have hid := (find?_eq_some hfound).2
      refine ⟨.step hfound hactive habove, ?_, ?_, by simpa using hlength⟩
      · rw [List.map_cons, List.nodup_cons]
        refine ⟨?_, hnodup⟩
        intro hmem
        obtain ⟨d, hd, hdid⟩ := List.mem_map.mp hmem
        exact hseen d hd (by simp [hdid, hid])
      · intro d hd
        rcases List.mem_cons.mp hd with rfl | hd
        · exact hid ▸ hfresh
        · exact fun hmem => hseen d hd (List.mem_append_left _ hmem)

theorem Climbs.mem_iff {s : AuthorityState} {now : ℤ} {start : Option Uuid}
    {es : List GrantEntry} (h : Climbs s now start es) (e : GrantEntry) :
    e ∈ es ↔ s.find? e.grant.id = some e ∧
      ∃ a ∈ start, Forest.Below s.parent a e.grant.id := by
  induction h with
  | root => simp
  | @step id d rest hfound hactive habove ih =>
    have hid := (find?_eq_some hfound).2
    have hparent := parent_of_find? hfound
    rw [List.mem_cons, ih]
    constructor
    · rintro (rfl | ⟨he, a, ha, hbelow⟩)
      · exact ⟨hid ▸ hfound, id, rfl, hid ▸ Forest.below_refl _⟩
      · exact ⟨he, id, rfl, Forest.below_iff.mpr (.inr ⟨a, hparent.trans ha, hbelow⟩)⟩
    · rintro ⟨he, a, ha, hbelow⟩
      obtain rfl := Option.some.inj ha
      rcases Forest.below_iff.mp hbelow with heq | ⟨p, hp, hbelow⟩
      · rw [← heq, hfound] at he
        exact .inl (Option.some.inj he).symm
      · exact .inr ⟨he, p, hparent.symm.trans hp, hbelow⟩

theorem Climbs.active {s : AuthorityState} {now : ℤ} {start : Option Uuid} {es : List GrantEntry}
    (h : Climbs s now start es) : ∀ e ∈ es, e.active now := by
  induction h with
  | root => exact nofun
  | step _ hactive _ ih =>
    intro d hd
    rcases List.mem_cons.mp hd with rfl | hd
    · exact hactive
    · exact ih d hd

theorem climbs_of_chain {s : AuthorityState} {leaf : Uuid} {now : ℤ} {es : List GrantEntry}
    (h : chain s leaf now = .ok es) :
    Climbs s now (some leaf) es ∧ (es.map fun e => e.grant.id).Nodup ∧ es.length ≤ 5 := by
  simp only [chain, bind_eq_ok] at h
  obtain ⟨_, -, h⟩ := h
  obtain ⟨hclimbs, hnodup, -, hlength⟩ := climbs_of_climb h
  exact ⟨hclimbs, hnodup, hlength⟩

/-- A chain starts at its leaf. -/
theorem head_of_chain {s : AuthorityState} {leaf : Uuid} {now : ℤ} {es : List GrantEntry}
    {e : GrantEntry} (h : chain s leaf now = .ok es) (he : es.head? = some e) :
    s.find? leaf = some e := by
  obtain ⟨hclimbs, -, -⟩ := climbs_of_chain h
  cases hclimbs with
  | step hfound _ _ =>
    obtain rfl := Option.some.inj he
    exact hfound

/-- What an accepted grant has passed. -/
structure Issued (s : AuthorityState) (g : CapabilityGrant) (now : ℤ) : Prop where
  copied : Copyable s.json
  given : Copyable g.json
  formed : grant g = .ok ()
  room : s.grants.length < 4096
  fresh : ∀ e ∈ s.grants, e.grant.id ≠ g.id
  delegated : ∀ p, g.parentId = some p → ∃ parent es, chain s p now = .ok es ∧
    s.find? p = some parent ∧ delegated g parent.grant = .ok ()
  revision : (s.revision : ℤ) < maxSafeInteger

theorem copyable_of_copy {value : Json} {u : Unit} (h : copy value = .ok u) : Copyable value := by
  simp only [copy, bind_eq_ok, demand_eq_ok] at h
  obtain ⟨_, ⟨hnodes, hdepth⟩, _, hplain, hbytes⟩ := h
  exact ⟨hnodes, hdepth, hplain, hbytes⟩

theorem issueGrant_eq_ok {s t : AuthorityState} {g : CapabilityGrant}
    {consents : List PrincipalConsent} {now : ℤ} (h : issueGrant s g consents now = .ok t) :
    Issued s g now ∧ t = s.withGrant g := by
  simp only [issueGrant, bind_eq_ok, demand_eq_ok, nextRevision, pure_eq_ok] at h
  obtain ⟨_, hcopy, _, hgiven, _, -, _, hformed, _, -, _, hroom, _, hfresh, _, -, _, hgrantable, _,
    hrevision, rfl⟩ := h
  refine ⟨⟨copyable_of_copy hcopy, copyable_of_copy hgiven, hformed, hroom, hfresh, ?_,
    hrevision⟩, rfl⟩
  intro p hp
  simp only [grantable, hp, bind_eq_ok, require_eq_ok] at hgrantable
  obtain ⟨es, hchain, parent, hhead, _, -, hdelegated⟩ := hgrantable
  exact ⟨parent, es, hchain, head_of_chain hchain hhead, hdelegated⟩

theorem copy_eq_ok {value : Json} (h : Copyable value) : copy value = .ok () := by
  rw [copy, demand_true _ _ ⟨h.nodes, h.depth⟩, demand_true _ _ h.plain, demand_true _ _ h.bytes]
  rfl

/-- The checks of an issue, one by one. -/
theorem issueGrant_of {s : AuthorityState} {g : CapabilityGrant}
    {consents : List PrincipalConsent} {now : ℤ} (hs : Copyable s.json) (hg : Copyable g.json)
    (hconsents : Copyable (.arr (consents.map PrincipalConsent.json))) (hformed : grant g = .ok ())
    (htime : time now = .ok ()) (hroom : s.grants.length < 4096)
    (hfresh : ∀ e ∈ s.grants, e.grant.id ≠ g.id) (hlive : now < g.expiresAt)
    (hgrantable : grantable s g consents now = .ok ())
    (hrevision : (s.revision : ℤ) < maxSafeInteger) :
    issueGrant s g consents now = .ok (s.withGrant g) := by
  rw [issueGrant, copy_eq_ok hs, copy_eq_ok hg, copy_eq_ok hconsents, hformed, htime,
    demand_true _ _ hroom, demand_true _ _ hfresh, demand_true _ _ hlive, hgrantable,
    nextRevision, demand_true _ _ hrevision]
  rfl

/-- An accepted revocation has found its grant. -/
theorem revokeGrant_eq_ok {s t : AuthorityState} {grantId : Uuid}
    {consents : List PrincipalConsent} (h : revokeGrant s grantId consents = .ok t) :
    t = s ∨ ∃ e, s.find? grantId = some e ∧ e.revoked = false ∧ t = s.withRevoked grantId := by
  simp only [revokeGrant, entry, bind_eq_ok, require_eq_ok] at h
  obtain ⟨_, -, _, -, e, hfound, parent, -, _, -, h⟩ := h
  cases hrevoked : e.revoked with
  | true =>
    rw [hrevoked] at h
    exact .inl (Except.ok.inj h).symm
  | false =>
    rw [hrevoked] at h
    simp only [Bool.false_eq_true, if_false, bind_eq_ok, pure_eq_ok] at h
    obtain ⟨_, -, rfl⟩ := h
    exact .inr ⟨e, hfound, hrevoked, rfl⟩

/-- What every accepted authorization has passed. -/
structure Admitted (s : AuthorityState) (i : ExecutionAuthority) (now : ℤ)
    (es : List GrantEntry) : Prop where
  copied : Copyable s.json
  usage : limits i.usage = .ok ()
  chain : chain s i.grantId now = .ok es
  narrower : ∀ e ∈ es, Narrower i.scope e.grant.scope

theorem admitted_of_authorized {s : AuthorityState} {i : ExecutionAuthority} {now : ℤ}
    {es : List GrantEntry} (h : authorized s i now = .ok es) : Admitted s i now es := by
  simp only [authorized, bind_eq_ok, each_eq_ok, demand_eq_ok, narrower, pure_eq_ok] at h
  obtain ⟨_, hcopy, _, -, _, -, _, -, _, -, _, husage, _, -, ancestors, hchain, leaf, -, _, -, _,
    hnarrower, rfl⟩ := h
  exact ⟨copyable_of_copy hcopy, husage, hchain, hnarrower⟩

/-- An operation under its organization, which is accepted once. -/
def ExecutionAuthority.key (i : ExecutionAuthority) : Uuid × Uuid :=
  (i.scope.organizationId, i.operationId)

def AuthorityReceipt.key (r : AuthorityReceipt) : Uuid × Uuid := (r.organizationId, r.operationId)

/-- The two ways of an accepted authorization. -/
inductive Charged (s : AuthorityState) (i : ExecutionAuthority) (now : ℤ) : Authorized → Prop where
  | replay {es : List GrantEntry} (admitted : Admitted s i now es)
      (known : i.key ∈ s.receipts.map AuthorityReceipt.key) :
      Charged s i now ⟨s, true, es.map fun e => e.grant.id⟩
  | fresh {es charged : List GrantEntry} (admitted : Admitted s i now es)
      (unknown : i.key ∉ s.receipts.map AuthorityReceipt.key)
      (approvals : (i.approvals.map fun a => (a.grantId, a.person)).Nodup)
      (charges : es.mapM (chargeEntry i now) = .ok charged) (room : s.receipts.length < 4096)
      (revision : (s.revision : ℤ) < maxSafeInteger) :
      Charged s i now
        ⟨s.withCharge charged i.receipt, false, es.map fun e => e.grant.id⟩

theorem charged_of_authorize {s : AuthorityState} {i : ExecutionAuthority} {now : ℤ}
    {out : Authorized} (h : authorizeAndCharge s i now = .ok out) : Charged s i now out := by
  simp only [authorizeAndCharge, bind_eq_ok] at h
  obtain ⟨es, hes, h⟩ := h
  have hadmitted := admitted_of_authorized hes
  cases hprior : s.receipts.find? fun r =>
      r.operationId = i.operationId ∧ r.organizationId = i.scope.organizationId with
  | some prior =>
    rw [hprior] at h
    simp only [bind_eq_ok, demand_eq_ok, pure_eq_ok] at h
    obtain ⟨_, -, rfl⟩ := h
    have hkey : prior.operationId = i.operationId ∧
        prior.organizationId = i.scope.organizationId := by simpa using List.find?_some hprior
    refine .replay hadmitted (List.mem_map.mpr ⟨prior, List.mem_of_find?_eq_some hprior, ?_⟩)
    exact Prod.ext hkey.2 hkey.1
  | none =>
    rw [hprior] at h
    simp only [bind_eq_ok, values, demand_eq_ok, nextRevision, pure_eq_ok] at h
    obtain ⟨_, ⟨-, happrovals⟩, _, -, charged, hcharged, _, hroom, _, hrevision, rfl⟩ := h
    refine .fresh hadmitted ?_ happrovals hcharged hroom hrevision
    intro hmem
    obtain ⟨r, hr, hkey⟩ := List.mem_map.mp hmem
    have hnone := List.find?_eq_none.mp hprior r hr
    exact hnone (decide_eq_true ⟨(Prod.ext_iff.mp hkey).2, (Prod.ext_iff.mp hkey).1⟩)

/-- What a list holds of a metric. -/
def amountOf (metric : ExternalIdentifier) (l : List Limit) : ℕ :=
  ((l.filter fun x => x.metric = metric).map Limit.amount).sum

@[simp] theorem amountOf_nil (metric : ExternalIdentifier) : amountOf metric [] = 0 := rfl

theorem amountOf_cons (metric : ExternalIdentifier) (x : Limit) (rest : List Limit) :
    amountOf metric (x :: rest) =
      (if x.metric = metric then x.amount else 0) + amountOf metric rest := by
  by_cases h : x.metric = metric
  · simp [amountOf, h]
  · simp [amountOf, h]

theorem amountOf_append_singleton (metric : ExternalIdentifier) (l : List Limit) (x : Limit) :
    amountOf metric (l ++ [x]) =
      amountOf metric l + if x.metric = metric then x.amount else 0 := by
  by_cases h : x.metric = metric
  · simp [amountOf, h]
  · simp [amountOf, h]

theorem amountOf_credit {metric m : ExternalIdentifier} {n : ℕ} {l : List Limit}
    (hmem : metric ∈ l.map Limit.metric) :
    amountOf m (credit metric n l) = amountOf m l + if metric = m then n else 0 := by
  induction l with
  | nil => exact nomatch hmem
  | cons x rest ih =>
    rw [credit]
    by_cases hx : x.metric = metric
    · rw [if_pos hx, amountOf_cons, amountOf_cons]
      by_cases hm : metric = m
      · rw [if_pos (hx.trans hm), if_pos (hx.trans hm), if_pos hm]
        show x.amount + n + amountOf m rest = x.amount + amountOf m rest + n
        omega
      · rw [if_neg fun h => hm (hx.symm.trans h), if_neg fun h => hm (hx.symm.trans h), if_neg hm]
        rfl
    · have hrest : metric ∈ rest.map Limit.metric := by
        rcases List.mem_cons.mp hmem with h | h
        · exact absurd h.symm hx
        · exact h
      rw [if_neg hx, amountOf_cons, amountOf_cons, ih hrest]
      omega

theorem map_metric_credit (metric : ExternalIdentifier) (n : ℕ) (l : List Limit) :
    (credit metric n l).map Limit.metric = l.map Limit.metric := by
  induction l with
  | nil => rfl
  | cons x rest ih =>
    rw [credit]
    by_cases hx : x.metric = metric
    · rw [if_pos hx]
      rfl
    · rw [if_neg hx, List.map_cons, List.map_cons, ih]

/-- With distinct metrics the one entry of a metric is all there is of it. -/
theorem amountOf_of_mem {l : List Limit} (hnodup : (l.map Limit.metric).Nodup) {x : Limit}
    (hx : x ∈ l) : amountOf x.metric l = x.amount := by
  induction l with
  | nil => exact nomatch hx
  | cons y rest ih =>
    rw [List.map_cons, List.nodup_cons] at hnodup
    rw [amountOf_cons]
    rcases List.mem_cons.mp hx with rfl | hx
    · have hnone : amountOf x.metric rest = 0 := by
        have hfilter : rest.filter (fun z => z.metric = x.metric) = [] := by
          rw [List.filter_eq_nil_iff]
          intro z hz heq
          exact hnodup.1 (List.mem_map.mpr ⟨z, hz, by simpa using heq⟩)
        rw [amountOf, hfilter]
        rfl
      rw [if_pos rfl, hnone]
      rfl
    · have hne : y.metric ≠ x.metric := fun h =>
        hnodup.1 (List.mem_map.mpr ⟨x, hx, h.symm⟩)
      rw [if_neg hne, ih hnodup.2 hx]
      omega

/-- The counters of a grant: one for each of its limits, and within it. -/
structure Metered (g : CapabilityGrant) (used : List Limit) : Prop where
  metrics : used.map Limit.metric = g.limits.map Limit.metric
  within : ∀ l ∈ g.limits, amountOf l.metric used ≤ l.amount

theorem chargeMetric_eq_ok {g : CapabilityGrant} {used used' : List Limit} {u : Limit}
    (hnodup : (g.limits.map Limit.metric).Nodup) (hmetered : Metered g used)
    (h : chargeMetric g used u = .ok used') :
    Metered g used' ∧
      ∀ m, amountOf m used' = amountOf m used + if u.metric = m then u.amount else 0 := by
  simp only [chargeMetric, bind_eq_ok, require_eq_ok, demand_eq_ok, pure_eq_ok] at h
  obtain ⟨limit, hlimit, counter, hcounter, _, hbudget, rfl⟩ := h
  obtain ⟨hlimitMem, hlimitMetric⟩ := Keyed.mem_of_find? hlimit
  obtain ⟨hmem, hcounterMetric⟩ := Keyed.mem_of_find? hcounter
  have hamounts : ∀ m, amountOf m (credit u.metric u.amount used) =
      amountOf m used + if u.metric = m then u.amount else 0 := fun m =>
    amountOf_credit (List.mem_map.mpr ⟨counter, hmem, hcounterMetric⟩)
  refine ⟨⟨(map_metric_credit ..).trans hmetered.metrics, ?_⟩, hamounts⟩
  intro l hl
  rw [hamounts]
  by_cases hm : u.metric = l.metric
  · -- the limit of this metric is the one that the charge was held against
    have hsame : l = limit :=
      List.inj_on_of_nodup_map hnodup hl hlimitMem (hm.symm.trans hlimitMetric.symm)
    have husedNodup : (used.map Limit.metric).Nodup := hmetered.metrics ▸ hnodup
    have hheld : amountOf l.metric used = counter.amount := by
      rw [← hm, ← hcounterMetric]
      exact amountOf_of_mem husedNodup hmem
    rw [if_pos hm, hheld, hsame]
    exact hbudget
  · rw [if_neg hm]
    exact hmetered.within l hl

theorem chargeEntry_eq_ok {i : ExecutionAuthority} {now : ℤ} {e c : GrantEntry}
    (hnodup : (e.grant.limits.map Limit.metric).Nodup) (hmetered : Metered e.grant e.used)
    (h : chargeEntry i now e = .ok c) :
    c.grant = e.grant ∧ c.revoked = e.revoked ∧ Metered e.grant c.used ∧
      (∀ m, amountOf m c.used = amountOf m e.used + amountOf m i.usage) ∧
      approved e.grant i now = .ok () := by
  simp only [chargeEntry, bind_eq_ok, demand_eq_ok, narrower, pure_eq_ok] at h
  obtain ⟨_, -, _, -, used, hused, _, happroved, rfl⟩ := h
  have hfold := foldlM_prefix (fun pre used => Metered e.grant used ∧
    ∀ m, amountOf m used = amountOf m e.used + amountOf m pre) ?_ ⟨hmetered, fun m => rfl⟩ hused
  · exact ⟨rfl, rfl, hfold.1, hfold.2, happroved⟩
  · rintro pre u s t ⟨hs, hamounts⟩ hstep
    obtain ⟨ht, hadded⟩ := chargeMetric_eq_ok hnodup hs hstep
    refine ⟨ht, fun m => ?_⟩
    rw [hadded, hamounts, amountOf_append_singleton]
    omega

end DirectTrade.Foundation.Authority
