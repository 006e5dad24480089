import DirectTrade.Foundation.Discovery
import DirectTrade.Library.Paging

/-!
What a viewer learns from the index. Every publication has one head, the last that was accepted
of it; a view is the sorted list of the heads that the viewer may see and that may match; and
going from page to page meets each of them once, or the view has changed.
-/

namespace DirectTrade.Foundation.Discovery

open Library Outcome

/-- The index after publications were accepted, in this order. -/
inductive DiscoveryIndex.Run (config : DiscoveryConfiguration) :
    DiscoveryIndex → List DiscoveryPublication → Prop where
  | create : Run config { heads := ∅, seen := [] } []
  | accept {s t : DiscoveryIndex} {history : List DiscoveryPublication} {p : DiscoveryPublication}
      {provider : Uuid} {acceptedAt : ℤ} (run : Run config s history)
      (applied : apply config s p provider acceptedAt = .ok (t, false)) :
      Run config t (history ++ [p])
  | retry {s t : DiscoveryIndex} {history : List DiscoveryPublication} {p : DiscoveryPublication}
      {provider : Uuid} {acceptedAt : ℤ} (run : Run config s history)
      (applied : apply config s p provider acceptedAt = .ok (t, true)) : Run config t history

/-- A revision as the index remembers it. -/
def DiscoveryPublication.identity (p : DiscoveryPublication) : EntityReference × Uuid :=
  (p.revision.entity, p.revision.revisionId)

/-- A publication is of a record of its provider. -/
def DiscoveryPublication.Scoped (p : DiscoveryPublication) : Prop :=
  p.revision.entity.kind = .record ∧ p.revision.entity.organizationId = some p.provider.id ∧
    ∀ r ∈ p.previous, r.entity = p.revision.entity

theorem apply_eq_ok {config : DiscoveryConfiguration} {s t : DiscoveryIndex}
    {p : DiscoveryPublication} {provider : Uuid} {acceptedAt : ℤ} {duplicate : Bool}
    (h : apply config s p provider acceptedAt = .ok (t, duplicate)) :
    (duplicate = true ∧ t = s) ∨ (duplicate = false ∧ p.Scoped ∧ p.identity ∉ s.seen ∧
      (s.heads.get? p.revision.entity).map DiscoveryPublication.revision = p.previous ∧
      t = { heads := s.heads.set p.revision.entity p, seen := s.seen ++ [p.identity] }) := by
  simp only [apply, bind_eq_ok, demand_eq_ok] at h
  obtain ⟨_, hparsed, _, -, _, -, h⟩ := h
  simp only [publication, bind_eq_ok, demand_eq_ok] at hparsed
  obtain ⟨_, ⟨-, hkind, hscope⟩, _, hprevious, -⟩ := hparsed
  by_cases hretry : (s.heads.get? p.revision.entity).map DiscoveryPublication.revision =
      some p.revision
  · rw [if_pos hretry] at h
    simp only [bind_eq_ok, demand_eq_ok, pure_eq_ok] at h
    obtain ⟨_, -, heq⟩ := h
    obtain ⟨rfl, rfl⟩ := Prod.mk.inj heq
    exact .inl ⟨rfl, rfl⟩
  · rw [if_neg hretry] at h
    simp only [bind_eq_ok, demand_eq_ok, pure_eq_ok] at h
    obtain ⟨_, hseen, _, hhead, _, -, _, -, heq⟩ := h
    obtain ⟨rfl, rfl⟩ := Prod.mk.inj heq
    exact .inr ⟨rfl, ⟨hkind, hscope, hprevious⟩, hseen, hhead, rfl⟩

/-- The accepted revisions of a publication, in order. -/
def chain (history : List DiscoveryPublication) (e : EntityReference) :
    List DiscoveryPublication :=
  history.filter fun p => p.revision.entity = e

/-- What an index keeps of the publications that it accepted. -/
structure Kept (s : DiscoveryIndex) (history : List DiscoveryPublication) : Prop where
  heads : ∀ e, s.heads.get? e = (chain history e).getLast?
  seen : s.seen = history.map DiscoveryPublication.identity
  distinct : (history.map DiscoveryPublication.identity).Nodup
  scope : ∀ p ∈ history, p.Scoped
  linked : ∀ e before p after, chain history e = before ++ p :: after →
    p.previous = before.getLast?.map DiscoveryPublication.revision

theorem chain_append (history : List DiscoveryPublication) (p : DiscoveryPublication)
    (e : EntityReference) : chain (history ++ [p]) e =
      chain history e ++ if p.revision.entity = e then [p] else [] := by
  rw [chain, List.filter_append]
  by_cases he : p.revision.entity = e
  · simp [chain, he]
  · simp [chain, he]

theorem Kept.accept {s : DiscoveryIndex} {history : List DiscoveryPublication}
    {p : DiscoveryPublication} (h : Kept s history) (hscoped : p.Scoped)
    (hfresh : p.identity ∉ s.seen) (hprevious :
      (s.heads.get? p.revision.entity).map DiscoveryPublication.revision = p.previous) :
    Kept { heads := s.heads.set p.revision.entity p, seen := s.seen ++ [p.identity] }
      (history ++ [p]) := by
  constructor
  · intro e
    rw [chain_append, Dict.get?_set]
    by_cases he : e = p.revision.entity
    · rw [if_pos he, if_pos he.symm, List.getLast?_append]
      rfl
    · rw [if_neg he, if_neg (Ne.symm he), List.append_nil]
      exact h.heads e
  · rw [List.map_append, h.seen]
    rfl
  · rw [List.map_append, List.map_singleton, ← List.concat_eq_append]
    exact h.distinct.concat (h.seen ▸ hfresh)
  · intro q hq
    rcases List.mem_append.mp hq with hq | hq
    · exact h.scope q hq
    · exact List.mem_singleton.mp hq ▸ hscoped
  · intro e before q after hsplit
    rw [chain_append] at hsplit
    by_cases he : p.revision.entity = e
    · rw [if_pos he] at hsplit
      rcases List.eq_nil_or_concat after with rfl | ⟨after', z, rfl⟩
      · obtain ⟨rfl, hq⟩ := List.append_inj' hsplit rfl
        obtain rfl := (List.cons.inj hq).1
        rw [← hprevious, he, h.heads e]
      · rw [List.concat_eq_append, ← List.cons_append, ← List.append_assoc] at hsplit
        obtain ⟨hfront, -⟩ := List.append_inj' hsplit rfl
        exact h.linked e before q after' hfront
    · rw [if_neg he, List.append_nil] at hsplit
      exact h.linked e before q after hsplit

theorem DiscoveryIndex.Run.kept {config : DiscoveryConfiguration} {s : DiscoveryIndex}
    {history : List DiscoveryPublication} (h : s.Run config history) : Kept s history := by
  induction h with
  | create =>
    refine ⟨fun _ => rfl, rfl, .nil, (fun _ hp => nomatch hp), fun _ before _ _ hsplit => ?_⟩
    cases before with
    | nil => exact nomatch hsplit
    | cons _ _ => exact nomatch hsplit
  | accept _ applied ih =>
    rcases apply_eq_ok applied with ⟨hfalse, -⟩ | ⟨-, hscoped, hfresh, hprevious, rfl⟩
    · exact nomatch hfalse
    · exact ih.accept hscoped hfresh hprevious
  | retry _ applied ih =>
    rcases apply_eq_ok applied with ⟨-, rfl⟩ | ⟨hfalse, -⟩
    · exact ih
    · exact nomatch hfalse

theorem Kept.mem_of_head {s : DiscoveryIndex} {history : List DiscoveryPublication}
    (h : Kept s history) {e : EntityReference} {p : DiscoveryPublication}
    (hp : s.heads.get? e = some p) : p ∈ history ∧ p.revision.entity = e := by
  rw [h.heads e] at hp
  have hmem := List.mem_of_getLast? hp
  rw [chain, List.mem_filter, decide_eq_true_eq] at hmem
  exact hmem

theorem Kept.named {s : DiscoveryIndex} {history : List DiscoveryPublication}
    (h : Kept s history) : s.heads.Named fun p => p.revision.entity := fun _ _ hp =>
  (h.mem_of_head hp).2

theorem Kept.chain_nodup {s : DiscoveryIndex} {history : List DiscoveryPublication}
    (h : Kept s history) (e : EntityReference) : (chain history e).Nodup :=
  (h.distinct.of_map _).filter _

/-- The head of a publication is its one accepted revision that none follows. -/
theorem Kept.head_iff {s : DiscoveryIndex} {history : List DiscoveryPublication}
    (h : Kept s history) (e : EntityReference) (p : DiscoveryPublication) :
    s.heads.get? e = some p ↔
      p ∈ history ∧ p.revision.entity = e ∧ ∀ q ∈ history, q.previous ≠ some p.revision := by
  constructor
  · intro hp
    obtain ⟨hmem, hentity⟩ := h.mem_of_head hp
    refine ⟨hmem, hentity, fun q hq hfollows => ?_⟩
    have hsame : q.revision.entity = e := by
      rw [← hentity]
      exact ((h.scope q hq).2.2 _ hfollows).symm
    have hchain : q ∈ chain history e := List.mem_filter.mpr ⟨hq, decide_eq_true hsame⟩
    obtain ⟨before, after, hsplit⟩ := List.append_of_mem hchain
    rw [h.linked e before q after hsplit] at hfollows
    obtain ⟨r, hr, hrevision⟩ := Option.map_eq_some_iff.mp hfollows
    have hrbefore := List.mem_of_getLast? hr
    have hrmem : r ∈ chain history e := by
      rw [hsplit]
      exact List.mem_append_left _ hrbefore
    have hidentity : r.identity = p.identity := by
      rw [DiscoveryPublication.identity, DiscoveryPublication.identity, hrevision]
    obtain rfl := List.inj_on_of_nodup_map h.distinct (List.mem_filter.mp hrmem).1 hmem hidentity
    rw [h.heads e, hsplit, List.getLast?_append_of_ne_nil _ (List.cons_ne_nil _ _)] at hp
    have hlast := List.mem_of_getLast? hp
    have hnodup := h.chain_nodup e
    rw [hsplit, List.nodup_append] at hnodup
    exact hnodup.2.2 r hrbefore r hlast rfl
  · rintro ⟨hmem, hentity, hlast⟩
    have hchain : p ∈ chain history e := List.mem_filter.mpr ⟨hmem, decide_eq_true hentity⟩
    obtain ⟨before, after, hsplit⟩ := List.append_of_mem hchain
    rw [h.heads e, hsplit]
    cases after with
    | nil => rw [List.getLast?_concat]
    | cons q rest =>
      have hq : q ∈ chain history e := by
        rw [hsplit]
        simp
      rw [List.append_cons] at hsplit
      have hfollows := h.linked e (before ++ [p]) q rest hsplit
      rw [List.getLast?_concat] at hfollows
      exact absurd hfollows (hlast q (List.mem_filter.mp hq).1)

section
variable {config : DiscoveryConfiguration} {s : DiscoveryIndex}
  {history : List DiscoveryPublication} {d : DiscoveryPublication} {terms : DiscoveryTerms}
  {viewer : Option Uuid} {now : ℤ}

theorem offer?_eq_some {p : DiscoveryPublication} {o : PotentialOffer}
    (h : offer? config d terms viewer now p = some o) :
    o.publication = p ∧ ∃ offered, visible p viewer now = some offered ∧
      p.kind = d.kind.supply ∧ compatibilityGroup config p = compatibilityGroup config d ∧
      potential terms offered = some o.limitations := by
  simp only [offer?, Option.bind_eq_bind, Option.bind_eq_some_iff] at h
  obtain ⟨offered, hvisible, h⟩ := h
  by_cases hmatch : p.kind = d.kind.supply ∧
      compatibilityGroup config p = compatibilityGroup config d
  · rw [if_pos hmatch] at h
    obtain ⟨limits, hlimits, hout⟩ := Option.bind_eq_some_iff.mp h
    obtain rfl := Option.some.inj hout
    exact ⟨rfl, offered, hvisible, hmatch.1, hmatch.2, hlimits⟩
  · rw [if_neg hmatch] at h
    exact nomatch h

theorem mem_offersFor {o : PotentialOffer} : o ∈ offersFor config s d terms viewer now ↔
    ∃ p ∈ s.heads.values, offer? config d terms viewer now p = some o := by
  rw [offersFor, List.mem_insertionSort, List.mem_filterMap]

/-- What is kept of a list names no more than the list. -/
theorem names_sublist {α β κ : Type} {f : α → Option β} {name : β → κ} {name' : α → κ}
    (hname : ∀ a b, f a = some b → name b = name' a) (l : List α) :
    ((l.filterMap f).map name).Sublist (l.map name') := by
  induction l with
  | nil => exact .slnil
  | cons a rest ih =>
    cases hf : f a with
    | none =>
      rw [List.filterMap_cons_none hf, List.map_cons]
      exact ih.cons _
    | some b =>
      rw [List.filterMap_cons_some hf, List.map_cons, List.map_cons, hname a b hf]
      exact ih.cons_cons _

/-- Every publication is offered at most once. -/
theorem offersFor_nodup (h : Kept s history) :
    ((offersFor config s d terms viewer now).map PotentialOffer.entity).Nodup := by
  have hnames : ((s.heads.values.filterMap (offer? config d terms viewer now)).map
      PotentialOffer.entity).Nodup := by
    refine (names_sublist ?_ _).nodup h.named.nodup
    intro p o hoffer
    rw [PotentialOffer.entity, (offer?_eq_some hoffer).1]
  exact ((List.perm_insertionSort _ _).map _).nodup_iff.mpr hnames

theorem offersFor_scoped (h : Kept s history) {o : PotentialOffer}
    (ho : o ∈ offersFor config s d terms viewer now) : o.publication.Scoped := by
  obtain ⟨p, hp, hoffer⟩ := mem_offersFor.mp ho
  obtain ⟨e, he⟩ := (Dict.mem_values_iff s.heads p).mp hp
  rw [(offer?_eq_some hoffer).1]
  exact h.scope p (h.mem_of_head he).1

/-- Records of one key are one record. -/
theorem entityReferenceKey_inj {a b : PotentialOffer} (ha : a.publication.Scoped)
    (hb : b.publication.Scoped)
    (h : entityReferenceKey a.entity = entityReferenceKey b.entity) : a.entity = b.entity := by
  have hpair := toLex.injective h
  obtain ⟨hid, horganization⟩ := Prod.mk.inj hpair
  have hkind : a.entity.kind = b.entity.kind := ha.1.trans hb.1.symm
  have hscope : a.entity.organizationId = b.entity.organizationId := by
    have hsome : a.entity.organizationId = some a.publication.provider.id := ha.2.1
    have hsome' : b.entity.organizationId = some b.publication.provider.id := hb.2.1
    rw [hsome, hsome', Option.getD_some, Option.getD_some] at horganization
    rw [hsome, hsome', horganization]
  cases ha' : a.entity with
  | mk kind id organizationId unscoped =>
    cases hb' : b.entity with
    | mk kind' id' organizationId' unscoped' =>
      rw [ha', hb'] at hid hkind hscope
      simp only at hid hkind hscope
      subst hid hkind hscope
      rfl

theorem offersFor_ordered : (offersFor config s d terms viewer now).Pairwise
    fun a b => entityReferenceKey a.entity ≤ entityReferenceKey b.entity := by
  have : Std.Total fun a b : PotentialOffer =>
      entityReferenceKey a.entity ≤ entityReferenceKey b.entity := ⟨fun _ _ => le_total _ _⟩
  have : IsTrans PotentialOffer fun a b =>
      entityReferenceKey a.entity ≤ entityReferenceKey b.entity :=
    ⟨fun _ _ _ hab hbc => hab.trans hbc⟩
  exact List.pairwise_insertionSort _ _

/-- The offers stand in the strict order of their keys. -/
theorem offersFor_sorted (h : Kept s history) :
    (offersFor config s d terms viewer now).Pairwise
      fun a b => entityReferenceKey a.entity < entityReferenceKey b.entity := by
  have hnodup : (offersFor config s d terms viewer now).Pairwise fun a b => a.entity ≠ b.entity :=
    List.pairwise_map.mp (offersFor_nodup h)
  refine (offersFor_ordered.and hnodup).imp_of_mem ?_
  intro a b ha hb hab
  refine lt_of_le_of_ne hab.1 fun heq => hab.2 ?_
  exact entityReferenceKey_inj (offersFor_scoped h ha) (offersFor_scoped h hb) heq

/-- Two indexes have the same heads that a viewer may see at a time. -/
def SameVisible (viewer : Option Uuid) (now : ℤ) (s t : DiscoveryIndex) : Prop :=
  ∀ e p, visible p viewer now ≠ none → (s.heads.get? e = some p ↔ t.heads.get? e = some p)

theorem offersFor_same {t : DiscoveryIndex} {history' : List DiscoveryPublication}
    (h : Kept s history) (h' : Kept t history') (hsame : SameVisible viewer now s t) :
    offersFor config s d terms viewer now = offersFor config t d terms viewer now := by
  have hmem : ∀ {s t : DiscoveryIndex}, SameVisible viewer now s t →
      ∀ o ∈ offersFor config s d terms viewer now, o ∈ offersFor config t d terms viewer now := by
    intro s t hsame o ho
    obtain ⟨p, hp, hoffer⟩ := mem_offersFor.mp ho
    obtain ⟨e, he⟩ := (Dict.mem_values_iff s.heads p).mp hp
    obtain ⟨-, offered, hvisible, -⟩ := offer?_eq_some hoffer
    have hhead : t.heads.get? e = some p := (hsame e p (by simp [hvisible])).mp he
    exact mem_offersFor.mpr ⟨p, Dict.mem_values_of_get? hhead, hoffer⟩
  have hperm : (offersFor config s d terms viewer now).Perm
      (offersFor config t d terms viewer now) := by
    rw [List.perm_ext_iff_of_nodup ((offersFor_nodup h).of_map _) ((offersFor_nodup h').of_map _)]
    exact fun o => ⟨hmem hsame o, hmem (fun e p hp => (hsame e p hp).symm) o⟩
  refine hperm.eq_of_pairwise ?_ (offersFor_sorted h) (offersFor_sorted h')
  exact fun a b _ _ hab hba => absurd hba hab.not_gt

theorem demanded_same {t : DiscoveryIndex} {ref : RevisionReference}
    (hsame : SameVisible viewer now s t) :
    demanded s ref viewer now = demanded t ref viewer now := by
  have himplies : ∀ {s t : DiscoveryIndex}, SameVisible viewer now s t → ∀ out,
      demanded s ref viewer now = some out → demanded t ref viewer now = some out := by
    intro s t hsame out hout
    simp only [demanded, Option.bind_eq_bind, Option.bind_eq_some_iff] at hout ⊢
    obtain ⟨p, hp, offered, hvisible, hout⟩ := hout
    exact ⟨p, (hsame _ p (by simp [hvisible])).mp hp, offered, hvisible, hout⟩
  apply Option.ext
  exact fun out => ⟨himplies hsame out, himplies (fun e p hp => (hsame e p hp).symm) out⟩

theorem demanded_eq_some {ref : RevisionReference}
    (h : demanded s ref viewer now = some (d, terms)) :
    s.heads.get? ref.entity = some d ∧ visible d viewer now = some terms ∧ d.revision = ref ∧
      d.kind.isDemand = true := by
  simp only [demanded, Option.bind_eq_bind, Option.bind_eq_some_iff] at h
  obtain ⟨p, hp, offered, hvisible, h⟩ := h
  by_cases hexact : p.revision = ref ∧ p.kind.isDemand = true
  · rw [if_pos hexact] at h
    obtain ⟨rfl, rfl⟩ := Prod.mk.inj (Option.some.inj h)
    exact ⟨hp, hvisible, hexact⟩
  · rw [if_neg hexact] at h
    cases h

/-- Publications that the viewer may not see change nothing of an answer. -/
theorem findPotentialOffers_same [DiscoveryDigest] {later t later' : DiscoveryIndex}
    {h₁ h₂ h₃ h₄ : List DiscoveryPublication} {q : DiscoveryQuery} (hs : Kept s h₁)
    (hlater : Kept later h₂) (ht : Kept t h₃) (hlater' : Kept later' h₄)
    (hsame : SameVisible q.viewerOrganization q.now s t)
    (hsame' : SameVisible q.viewerOrganization q.now later later') :
    findPotentialOffers config s later q = findPotentialOffers config t later' q := by
  rw [findPotentialOffers, findPotentialOffers, demanded_same hsame]
  cases hdemanded : demanded t q.demand q.viewerOrganization q.now with
  | none => rfl
  | some out =>
    obtain ⟨d, terms⟩ := out
    obtain ⟨-, hvisible, -⟩ := demanded_eq_some hdemanded
    simp only [require_some, ok_bind]
    have hhead : later.heads.get? q.demand.entity = some d ↔
        later'.heads.get? q.demand.entity = some d := hsame' _ d (by simp [hvisible])
    simp only [offersFor_same hs ht hsame, offersFor_same hlater hlater' hsame', hhead]

end

/-- A request for a page: the index before and after digests are computed, the time, and how
many offers a page holds. -/
structure Round where
  index : DiscoveryIndex
  later : DiscoveryIndex
  now : ℤ
  limit : ℕ

section
variable [DiscoveryDigest] (config : DiscoveryConfiguration) (ref : RevisionReference)
  (viewer : Option Uuid)

def Round.ask (r : Round) (cursor : Option CursorText) : Indexed DiscoveryPage :=
  findPotentialOffers config r.index r.later
    { demand := ref, viewerOrganization := viewer, now := r.now, limit := r.limit, cursor }

/-- Request after request, each under the cursor of the page before it, until none is left. -/
def follow : List Round → Option CursorText → Indexed (List PotentialOffer × Option CursorText)
  | [], cursor => pure ([], cursor)
  | r :: rest, cursor => do
    let page ← r.ask config ref viewer cursor
    match page.nextCursor with
    | none => pure (page.offers, none)
    | some next => do
      let (offers, left) ← follow rest (some next)
      pure (page.offers ++ offers, left)

omit [DiscoveryDigest] in
/-- All that the viewer may see of what may match, when the request is made. -/
def Round.view (r : Round) : Option (List PotentialOffer) :=
  (demanded r.index ref viewer r.now).map fun out =>
    offersFor config r.index out.1 out.2 viewer r.now

omit [DiscoveryDigest] in
/-- Neither the demand nor the view changes during the request. -/
def Round.Steady (r : Round) : Prop :=
  ∀ d terms, demanded r.index ref viewer r.now = some (d, terms) →
    r.later.heads.get? ref.entity = some d ∧
      offersFor config r.later d terms viewer r.now =
        offersFor config r.index d terms viewer r.now

/-- The cursor of a view, after so many offers. -/
def cursorAt (view : List PotentialOffer) (taken : ℕ) : Option CursorText :=
  if taken = 0 then none
  else view[taken - 1]?.map fun last => .read
    { queryDigest := DiscoveryDigest.query ref viewer, visibleDigest := DiscoveryDigest.view view
      after := last.entity }

def unavailable : Refusal := .discovery "demand unavailable" .unavailable

variable {config ref viewer} {r : Round} {cursor : Option CursorText} {page : DiscoveryPage}
  {view : List PotentialOffer} {taken : ℕ}

variable (ref viewer view taken) in
theorem cursorAt_eq_some (hpositive : 0 < taken) (htaken : taken ≤ view.length) :
    ∃ last, view[taken - 1]? = some last ∧ cursorAt ref viewer view taken = some (.read
      { queryDigest := DiscoveryDigest.query ref viewer
        visibleDigest := DiscoveryDigest.view view, after := last.entity }) := by
  have hlast := List.getElem?_eq_getElem (l := view) (i := taken - 1) (by omega)
  refine ⟨_, hlast, ?_⟩
  rw [cursorAt, if_neg (by omega), hlast]
  rfl

/-- A page is of the view at the time of the request, from where its cursor points. -/
theorem ask_eq_ok (h : r.ask config ref viewer cursor = .ok page) :
    1 ≤ r.limit ∧ ∃ v start, r.view config ref viewer = some v ∧
      pageStart ⟨ref, viewer, r.now, r.limit, cursor⟩ v = .ok start ∧
      page = pageOf ⟨ref, viewer, r.now, r.limit, cursor⟩ v start := by
  simp only [Round.ask, findPotentialOffers, bind_eq_ok, demand_eq_ok, require_eq_ok,
    pure_eq_ok] at h
  obtain ⟨_, ⟨hlimit, -⟩, ⟨d, terms⟩, hdemanded, _, -, start, hstart, rfl⟩ := h
  refine ⟨hlimit, _, start, ?_, hstart, rfl⟩
  rw [Round.view, hdemanded]
  rfl

/-- A cursor that is accepted belongs to the view, unless two views have one digest. -/
theorem pageStart_eq_ok {now : ℤ} {limit start : ℕ} {v : List PotentialOffer}
    (hpositive : 0 < taken) (htaken : taken ≤ view.length)
    (h : pageStart ⟨ref, viewer, now, limit, cursorAt ref viewer view taken⟩ v = .ok start) :
    DiscoveryDigest.view view = DiscoveryDigest.view v := by
  obtain ⟨last, -, hcursor⟩ := cursorAt_eq_some ref viewer view taken hpositive htaken
  rw [hcursor] at h
  simp only [pageStart, bind_eq_ok, demand_eq_ok] at h
  obtain ⟨_, ⟨-, hdigest, -⟩, -⟩ := h
  exact hdigest

/-- The cursor of a view points where it was left. -/
theorem pageStart_cursorAt {now : ℤ} {limit : ℕ}
    (hnodup : (view.map PotentialOffer.entity).Nodup) (htaken : taken ≤ view.length) :
    pageStart ⟨ref, viewer, now, limit, cursorAt ref viewer view taken⟩ view = .ok taken := by
  by_cases hzero : taken = 0
  · subst hzero
    rfl
  · obtain ⟨last, hlast, hcursor⟩ :=
      cursorAt_eq_some ref viewer view taken (Nat.pos_of_ne_zero hzero) htaken
    rw [hcursor, pageStart]
    simp only []
    rw [demand_true _ _ ⟨trivial, trivial, last, List.mem_of_getElem? hlast, rfl⟩, ok_bind,
      pure_eq_ok, Paging.findIdx_name hnodup hlast]
    omega

/-- The next page begins where the page ends. -/
theorem nextCursor_pageOf {now : ℤ} {limit : ℕ} (hlimit : 1 ≤ limit) :
    (pageOf ⟨ref, viewer, now, limit, cursor⟩ view taken).nextCursor =
      if taken + limit < view.length then cursorAt ref viewer view (taken + limit) else none := by
  rw [pageOf]
  simp only [List.length_take, List.length_drop]
  by_cases hmore : taken + limit < view.length
  · rw [if_pos hmore, if_pos (by omega), Paging.getLast_page (by omega) hmore, cursorAt,
      if_neg (by omega)]
  · rw [if_neg hmore, if_neg (by omega)]

/-- Request after request from a place in a view: what comes is what follows that place, all of
it where no cursor is left. -/
theorem follow_eq_ok {rounds : List Round} {offers : List PotentialOffer}
    {left : Option CursorText}
    (hplace : 0 < taken ∨ ∃ r ∈ rounds.head?, r.view config ref viewer = some view)
    (htaken : taken ≤ view.length) (hnodup : (view.map PotentialOffer.entity).Nodup)
    (hapart : ∀ r ∈ rounds, ∀ v, r.view config ref viewer = some v →
      DiscoveryDigest.view view = DiscoveryDigest.view v → v = view)
    (h : follow config ref viewer rounds (cursorAt ref viewer view taken) = .ok (offers, left)) :
    offers <+: view.drop taken ∧ (left = none → offers = view.drop taken) := by
  induction rounds generalizing taken offers with
  | nil =>
    obtain ⟨rfl, rfl⟩ := Prod.mk.inj (Except.ok.inj h)
    have hpositive : 0 < taken := hplace.resolve_right (by simp)
    obtain ⟨last, -, hcursor⟩ := cursorAt_eq_some ref viewer view taken hpositive htaken
    refine ⟨List.nil_prefix, fun hnone => ?_⟩
    rw [hcursor] at hnone
    exact nomatch hnone
  | cons r rest ih =>
    simp only [follow, bind_eq_ok] at h
    obtain ⟨page, hpage, h⟩ := h
    obtain ⟨hlimit, v, start, hview, hstart, rfl⟩ := ask_eq_ok hpage
    have hsame : v = view := by
      rcases hplace with hpositive | ⟨x, hx, hfirst⟩
      · exact hapart r (List.mem_cons_self ..) v hview (pageStart_eq_ok hpositive htaken hstart)
      · obtain rfl := Option.some.inj hx
        exact Option.some.inj (hview.symm.trans hfirst)
    subst hsame
    rw [pageStart_cursorAt hnodup htaken] at hstart
    obtain rfl := Except.ok.inj hstart
    rw [nextCursor_pageOf hlimit] at h
    have hpage : (pageOf ⟨ref, viewer, r.now, r.limit, cursorAt ref viewer v taken⟩
        v taken).offers = (v.drop taken).take r.limit := rfl
    rw [hpage] at h
    by_cases hmore : taken + r.limit < v.length
    · rw [if_pos hmore] at h
      obtain ⟨last, -, hcursor⟩ := cursorAt_eq_some ref viewer v (taken + r.limit) (by omega)
        (by omega)
      rw [hcursor, ← hcursor] at h
      simp only [hcursor, bind_eq_ok, pure_eq_ok] at h
      obtain ⟨⟨later, left'⟩, hlater, heq⟩ := h
      obtain ⟨rfl, rfl⟩ := Prod.mk.inj heq
      rw [← hcursor] at hlater
      obtain ⟨hinitial, hall⟩ := ih (.inl (by omega)) (by omega)
        (fun x hx => hapart x (List.mem_cons_of_mem _ hx)) hlater
      have hsplit : v.drop taken = (v.drop taken).take r.limit ++ v.drop (taken + r.limit) := by
        rw [← List.drop_drop, List.take_append_drop]
      have hwhole := (List.prefix_append_right_inj ((v.drop taken).take r.limit)).mpr hinitial
      rw [← hsplit] at hwhole
      refine ⟨hwhole, fun hnone => ?_⟩
      rw [hall hnone]
      exact hsplit.symm
    · rw [if_neg hmore] at h
      obtain ⟨rfl, rfl⟩ := Prod.mk.inj (Except.ok.inj h)
      have hwhole : (v.drop taken).take r.limit = v.drop taken := by
        apply List.take_of_length_le
        rw [List.length_drop]
        omega
      rw [hwhole]
      exact ⟨List.prefix_rfl, fun _ => rfl⟩

/-- A page that is refused: the demand is not available, or the query has to be restarted. -/
theorem ask_eq_error {e : Refusal} (hlimit : 1 ≤ r.limit ∧ r.limit ≤ 50)
    (h : r.ask config ref viewer cursor = .error e) :
    (e = unavailable ∧ r.view config ref viewer = none) ∨ ∃ reason, e = restart reason := by
  rw [Round.ask, findPotentialOffers, demand_true _ _ hlimit, ok_bind] at h
  cases hdemanded : demanded r.index ref viewer r.now with
  | none =>
    simp only [hdemanded] at h
    refine .inl ⟨(Except.error.inj h).symm, ?_⟩
    rw [Round.view, hdemanded]
    rfl
  | some out =>
    obtain ⟨d, terms⟩ := out
    simp only [hdemanded, require_some, ok_bind] at h
    right
    by_cases hsteady : r.later.heads.get? ref.entity = some d ∧
        offersFor config r.later d terms viewer r.now =
          offersFor config r.index d terms viewer r.now
    · rw [demand_true _ _ hsteady, ok_bind] at h
      cases cursor with
      | none => cases h
      | some page =>
        cases page with
        | unreadable => exact ⟨_, (Except.error.inj h).symm⟩
        | read c =>
          simp only [pageStart, demand] at h
          split at h
          · cases h
          · exact ⟨_, (Except.error.inj h).symm⟩
    · rw [demand, if_neg hsteady] at h
      exact ⟨_, (Except.error.inj h).symm⟩

theorem follow_eq_error {rounds : List Round} {e : Refusal}
    (hlimit : ∀ r ∈ rounds, 1 ≤ r.limit ∧ r.limit ≤ 50)
    (h : follow config ref viewer rounds cursor = .error e) :
    (e = unavailable ∧ ∃ r ∈ rounds, r.view config ref viewer = none) ∨
      ∃ reason, e = restart reason := by
  induction rounds generalizing cursor with
  | nil => exact nomatch h
  | cons r rest ih =>
    rw [follow] at h
    cases hpage : r.ask config ref viewer cursor with
    | error e' =>
      rw [hpage] at h
      obtain rfl := Except.error.inj h
      rcases ask_eq_error (hlimit r (List.mem_cons_self ..)) hpage with ⟨he, hview⟩ | hrestart
      · exact .inl ⟨he, r, List.mem_cons_self .., hview⟩
      · exact .inr hrestart
    | ok page =>
      rw [hpage, ok_bind] at h
      cases hnext : page.nextCursor with
      | none =>
        simp only [hnext] at h
        exact nomatch h
      | some next =>
        simp only [hnext] at h
        cases hlater : follow config ref viewer rest (some next) with
        | ok out =>
          rw [hlater] at h
          exact nomatch h
        | error e' =>
          rw [hlater] at h
          obtain rfl := Except.error.inj h
          rcases ih (fun x hx => hlimit x (List.mem_cons_of_mem _ hx)) hlater with
            ⟨he, x, hx, hview⟩ | hrestart
          · exact .inl ⟨he, x, List.mem_cons_of_mem _ hx, hview⟩
          · exact .inr hrestart

/-- A page of a view that does not change, from a place in it. -/
theorem ask_of_steady (hlimit : 1 ≤ r.limit ∧ r.limit ≤ 50)
    (hview : r.view config ref viewer = some view) (hsteady : r.Steady config ref viewer)
    (hnodup : (view.map PotentialOffer.entity).Nodup) (htaken : taken ≤ view.length) :
    r.ask config ref viewer (cursorAt ref viewer view taken) =
      .ok (pageOf ⟨ref, viewer, r.now, r.limit, cursorAt ref viewer view taken⟩ view taken) := by
  obtain ⟨⟨d, terms⟩, hdemanded, rfl⟩ := Option.map_eq_some_iff.mp hview
  have hunchanged := hsteady d terms hdemanded
  rw [Round.ask, findPotentialOffers, demand_true _ _ hlimit, ok_bind]
  simp only [hdemanded, require_some, ok_bind]
  rw [demand_true _ _ hunchanged, ok_bind, pageStart_cursorAt hnodup htaken, ok_bind]
  rfl

/-- While nothing that the viewer sees changes, no request is refused, and as many requests as
there are offers leave no cursor. -/
theorem follow_of_steady {rounds : List Round} (hlimit : ∀ r ∈ rounds, 1 ≤ r.limit ∧ r.limit ≤ 50)
    (hsteady : ∀ r ∈ rounds, r.view config ref viewer = some view ∧ r.Steady config ref viewer)
    (hnodup : (view.map PotentialOffer.entity).Nodup) (htaken : taken ≤ view.length) :
    ∃ offers left, follow config ref viewer rounds (cursorAt ref viewer view taken) =
        .ok (offers, left) ∧
      (rounds ≠ [] → view.length ≤ taken + rounds.length →
        left = none ∧ offers = view.drop taken) := by
  induction rounds generalizing taken with
  | nil => exact ⟨[], _, rfl, fun hne => absurd rfl hne⟩
  | cons r rest ih =>
    have hr := hlimit r (List.mem_cons_self ..)
    obtain ⟨hview, hunchanged⟩ := hsteady r (List.mem_cons_self ..)
    rw [follow, ask_of_steady hr hview hunchanged hnodup htaken, ok_bind]
    simp only [nextCursor_pageOf hr.1]
    have hpage : (pageOf ⟨ref, viewer, r.now, r.limit, cursorAt ref viewer view taken⟩ view
        taken).offers = (view.drop taken).take r.limit := rfl
    rw [hpage]
    by_cases hmore : taken + r.limit < view.length
    · obtain ⟨last, -, hcursor⟩ := cursorAt_eq_some ref viewer view (taken + r.limit) (by omega)
        (by omega)
      obtain ⟨later, left, hlater, hall⟩ := ih
        (fun x hx => hlimit x (List.mem_cons_of_mem _ hx))
        (fun x hx => hsteady x (List.mem_cons_of_mem _ hx))
        (show taken + r.limit ≤ view.length by omega)
      rw [hcursor] at hlater
      rw [if_pos hmore, hcursor]
      simp only [hlater, ok_bind]
      refine ⟨_, left, rfl, fun _ hlength => ?_⟩
      rw [List.length_cons] at hlength
      have hrest : rest ≠ [] := by
        intro hnil
        rw [hnil, List.length_nil] at hlength
        omega
      obtain ⟨hleft, hoffers⟩ := hall hrest (by omega)
      refine ⟨hleft, ?_⟩
      rw [hoffers, ← List.drop_drop, List.take_append_drop]
    · rw [if_neg hmore]
      refine ⟨_, none, rfl, fun _ _ => ⟨rfl, ?_⟩⟩
      apply List.take_of_length_le
      rw [List.length_drop]
      omega

/-- Two requests that differ in nothing that the viewer may see. -/
structure SameRound (viewer : Option Uuid) (x y : Round) : Prop where
  now : y.now = x.now
  limit : y.limit = x.limit
  index : SameVisible viewer x.now x.index y.index
  later : SameVisible viewer x.now x.later y.later

/-- An index that publications were applied to. -/
def DiscoveryIndex.Reached (config : DiscoveryConfiguration) (s : DiscoveryIndex) : Prop :=
  ∃ history, s.Run config history

/-- Requests of indexes that publications were applied to. -/
def Round.Real (config : DiscoveryConfiguration) (r : Round) : Prop :=
  r.index.Reached config ∧ r.later.Reached config

theorem follow_same {rounds rounds' : List Round} (hreal : ∀ r ∈ rounds, r.Real config)
    (hreal' : ∀ r ∈ rounds', r.Real config)
    (hsame : List.Forall₂ (SameRound viewer) rounds rounds') :
    follow config ref viewer rounds cursor = follow config ref viewer rounds' cursor := by
  induction hsame generalizing cursor with
  | nil => rfl
  | @cons x y rest rest' hxy _ ih =>
    obtain ⟨⟨h₁, hrun₁⟩, h₂, hrun₂⟩ := hreal x (List.mem_cons_self ..)
    obtain ⟨⟨h₃, hrun₃⟩, h₄, hrun₄⟩ := hreal' y (List.mem_cons_self ..)
    have hask : x.ask config ref viewer cursor = y.ask config ref viewer cursor := by
      rw [Round.ask, Round.ask, hxy.now, hxy.limit]
      exact findPotentialOffers_same hrun₁.kept hrun₂.kept hrun₃.kept hrun₄.kept hxy.index hxy.later
    have hrest : ∀ c, follow config ref viewer rest c = follow config ref viewer rest' c := fun c =>
      ih (fun r hr => hreal r (List.mem_cons_of_mem _ hr))
        fun r hr => hreal' r (List.mem_cons_of_mem _ hr)
    rw [follow, follow, hask]
    simp only [hrest]

/-- Going from page to page gives every offer that the viewer may see and that may match, each
once and in the order of their keys, unless the demand is no longer available or something that
the viewer sees has changed; what the viewer may not see changes nothing; and an offer is the
one revision of its publication that no other follows. -/
theorem paging_complete {rest : List Round} (hreal : ∀ x ∈ r :: rest, x.Real config)
    (hlimit : ∀ x ∈ r :: rest, 1 ≤ x.limit ∧ x.limit ≤ 50)
    (hapart : ∀ x ∈ r :: rest, ∀ y ∈ r :: rest, ∀ v w, x.view config ref viewer = some v →
      y.view config ref viewer = some w → DiscoveryDigest.view v = DiscoveryDigest.view w →
      w = v) :
    (∀ offers left, follow config ref viewer (r :: rest) none = .ok (offers, left) →
      ∃ d terms, demanded r.index ref viewer r.now = some (d, terms) ∧
        offers <+: offersFor config r.index d terms viewer r.now ∧
        (left = none → offers = offersFor config r.index d terms viewer r.now) ∧
        (offersFor config r.index d terms viewer r.now).Pairwise
          (fun a b => entityReferenceKey a.entity < entityReferenceKey b.entity) ∧
        ∀ o, o ∈ offersFor config r.index d terms viewer r.now ↔
          ∃ e p, r.index.heads.get? e = some p ∧
            offer? config d terms viewer r.now p = some o) ∧
    (∀ e, follow config ref viewer (r :: rest) none = .error e →
      (e = unavailable ∧ ∃ x ∈ r :: rest, x.view config ref viewer = none) ∨
      (∃ reason, e = restart reason) ∧ ∃ x ∈ r :: rest,
        x.view config ref viewer ≠ r.view config ref viewer ∨ ¬x.Steady config ref viewer) ∧
    (∀ all, (∀ x ∈ r :: rest, x.view config ref viewer = some all ∧
        x.Steady config ref viewer) → all.length ≤ (r :: rest).length →
      follow config ref viewer (r :: rest) none = .ok (all, none)) ∧
    (∀ rounds, (∀ x ∈ rounds, x.Real config) →
      List.Forall₂ (SameRound viewer) (r :: rest) rounds →
      follow config ref viewer rounds none = follow config ref viewer (r :: rest) none) ∧
    ∀ history, r.index.Run config history → ∀ e p, r.index.heads.get? e = some p ↔
      p ∈ history ∧ p.revision.entity = e ∧ ∀ q ∈ history, q.previous ≠ some p.revision := by
  obtain ⟨⟨history, hrun⟩, -⟩ := hreal r (List.mem_cons_self ..)
  have hkept := hrun.kept
  have hnodup : ∀ v, r.view config ref viewer = some v →
      (v.map PotentialOffer.entity).Nodup := by
    intro v hv
    obtain ⟨out, -, rfl⟩ := Option.map_eq_some_iff.mp hv
    exact offersFor_nodup hkept
  have hsteady : ∀ all, (∀ x ∈ r :: rest, x.view config ref viewer = some all ∧
      x.Steady config ref viewer) → ∃ offers left,
        follow config ref viewer (r :: rest) none = .ok (offers, left) ∧
          (all.length ≤ (r :: rest).length → left = none ∧ offers = all) := by
    intro all hall
    obtain ⟨offers, left, hfollow, hlast⟩ := follow_of_steady hlimit hall
      (hnodup all (hall r (List.mem_cons_self ..)).1) (show 0 ≤ all.length from Nat.zero_le _)
    refine ⟨offers, left, hfollow, fun hlength => ?_⟩
    exact hlast (List.cons_ne_nil _ _) (by rw [Nat.zero_add]; exact hlength)
  refine ⟨fun offers left h => ?_, fun e h => ?_, fun all hall hlength => ?_,
    fun rounds hreal' hsame => (follow_same hreal hreal' hsame).symm, ?_⟩
  · have hfirst := h
    simp only [follow, bind_eq_ok] at hfirst
    obtain ⟨page, hpage, -⟩ := hfirst
    obtain ⟨-, v, -, hview, -⟩ := ask_eq_ok hpage
    obtain ⟨hinitial, hall⟩ := follow_eq_ok (.inr ⟨r, rfl, hview⟩)
      (show 0 ≤ v.length from Nat.zero_le _) (hnodup v hview)
      (fun x hx w hw hdigest => hapart r (List.mem_cons_self ..) x hx v w hview hw hdigest) h
    obtain ⟨⟨d, terms⟩, hdemanded, rfl⟩ := Option.map_eq_some_iff.mp hview
    refine ⟨d, terms, hdemanded, hinitial, hall, offersFor_sorted hkept, fun o => ?_⟩
    rw [mem_offersFor]
    constructor
    · rintro ⟨p, hp, hoffer⟩
      obtain ⟨e, he⟩ := (Dict.mem_values_iff _ p).mp hp
      exact ⟨e, p, he, hoffer⟩
    · rintro ⟨e, p, he, hoffer⟩
      exact ⟨p, Dict.mem_values_of_get? he, hoffer⟩
  · rcases follow_eq_error hlimit h with hunavailable | ⟨reason, rfl⟩
    · exact .inl hunavailable
    · refine .inr ⟨⟨reason, rfl⟩, ?_⟩
      by_contra hnone
      have hsame : ∀ x ∈ r :: rest, x.view config ref viewer = r.view config ref viewer ∧
          x.Steady config ref viewer := by
        intro x hx
        by_contra hchanged
        exact hnone ⟨x, hx, not_and_or.mp hchanged⟩
      cases hview : r.view config ref viewer with
      | none =>
        rw [Round.view, Option.map_eq_none_iff] at hview
        rw [follow, Round.ask, findPotentialOffers,
          demand_true _ _ (hlimit r (List.mem_cons_self ..)), ok_bind] at h
        simp only [hview] at h
        exact nomatch h
      | some all =>
        rw [hview] at hsame
        obtain ⟨offers, left, hfollow, -⟩ := hsteady all hsame
        rw [hfollow] at h
        exact nomatch h
  · obtain ⟨offers, left, hfollow, hlast⟩ := hsteady all hall
    obtain ⟨rfl, rfl⟩ := hlast hlength
    exact hfollow
  · intro history' hrun' e p
    exact hrun'.kept.head_iff e p

end

@[reducible] def sampleDiscoveryDigest : DiscoveryDigest := ⟨fun _ _ => 1, List.length⟩

def sampleName (value : String) : ExternalIdentifier := ⟨.organization 9, "fixture", value⟩

def sampleTerms (provider : Uuid) : DiscoveryTerms :=
  { category := sampleName "hot-sauce", area := sampleName "austin", subject := none
    timeWindow := ⟨100, 200⟩, timezone := "UTC", quantity := .unknown, minQuantity := .unknown
    maxQuantity := .unknown
    authorityLocator := ⟨.organization provider, 7, "quote.request", "commitment.accept"⟩
    pricing := .requestForQuote, conditions := [] }

/-- A publication of a provider, the first of its record. -/
def samplePublication (record provider : Uuid) (isDemand : Bool) : DiscoveryPublication :=
  { revision := ⟨⟨.record, record, some provider, rfl⟩, record + 100, 0⟩, previous := none
    profileDigest := if isDemand then 1 else 2, kind := ⟨.goods, isDemand⟩
    provider := .organization provider, status := .published (sampleTerms provider)
    visibility := .everyone, publishedAt := 10, expiresAt := 300 }

def sampleDemand : DiscoveryPublication := samplePublication 11 1 true

def sampleWithdrawal : DiscoveryPublication :=
  { sampleDemand with
    revision := { sampleDemand.revision with revisionId := 211 }
    previous := some sampleDemand.revision, status := .withdrawn }

def sampleConfiguration : DiscoveryConfiguration :=
  { profiles := ((∅ : Dict Digest DiscoveryProfile).set 1 ⟨1, ⟨.goods, true⟩, "goods"⟩).set 2
      ⟨2, ⟨.goods, false⟩, "goods"⟩
    supportedTimezones := ["UTC"] }

/-- The index after publications, each the head of its record when it came. -/
def sampleIndexed (history : List DiscoveryPublication) : DiscoveryIndex :=
  { heads := history.foldl (fun heads p => heads.set p.revision.entity p) ∅
    seen := history.map DiscoveryPublication.identity }

def sampleHistory : List DiscoveryPublication :=
  [sampleDemand, samplePublication 13 2 false, samplePublication 12 2 false]

theorem sampleHistory_run :
    (sampleIndexed sampleHistory).Run sampleConfiguration sampleHistory ∧
      (sampleIndexed (sampleHistory ++ [sampleWithdrawal])).Run sampleConfiguration
        (sampleHistory ++ [sampleWithdrawal]) := by
  have hdemand : apply sampleConfiguration { heads := ∅, seen := [] } sampleDemand 1 20 =
      .ok (sampleIndexed [sampleDemand], false) := by decide
  have hfirst : apply sampleConfiguration (sampleIndexed [sampleDemand])
      (samplePublication 13 2 false) 2 20 =
        .ok (sampleIndexed [sampleDemand, samplePublication 13 2 false], false) := by
    decide
  have hsecond : apply sampleConfiguration
      (sampleIndexed [sampleDemand, samplePublication 13 2 false])
      (samplePublication 12 2 false) 2 20 = .ok (sampleIndexed sampleHistory, false) := by
    decide
  have hwithdrawn : apply sampleConfiguration (sampleIndexed sampleHistory) sampleWithdrawal 1 20 =
      .ok (sampleIndexed (sampleHistory ++ [sampleWithdrawal]), false) := by decide
  have hrun := ((DiscoveryIndex.Run.create.accept hdemand).accept hfirst).accept hsecond
  exact ⟨hrun, hrun.accept hwithdrawn⟩

def sampleRound : Round := ⟨sampleIndexed sampleHistory, sampleIndexed sampleHistory, 20, 1⟩

/-- Two pages of one offer each, in the order of the records. -/
theorem paging_complete_sample : letI := sampleDiscoveryDigest
    ∃ all, follow sampleConfiguration sampleDemand.revision (some 1) [sampleRound, sampleRound]
        none = .ok (all, none) ∧ all.map (fun o => o.entity.id) = [12, 13] := by
  let := sampleDiscoveryDigest
  have hview : (sampleRound.view sampleConfiguration sampleDemand.revision (some 1)).map
      (fun all => all.map fun o => o.entity.id) = some [12, 13] := by decide
  obtain ⟨all, hall, hids⟩ := Option.map_eq_some_iff.mp hview
  have hsame : ∀ x ∈ [sampleRound, sampleRound], x = sampleRound := by
    intro x hx
    simpa using hx
  have hreal : sampleRound.Real sampleConfiguration :=
    ⟨⟨_, sampleHistory_run.1⟩, _, sampleHistory_run.1⟩
  have hsteady : sampleRound.Steady sampleConfiguration sampleDemand.revision (some 1) :=
    fun d terms hdemanded => ⟨(demanded_eq_some hdemanded).1, rfl⟩
  have hlength : all.length = 2 := by
    rw [← List.length_map (f := fun o : PotentialOffer => o.entity.id), hids]
    rfl
  refine ⟨all, ?_, hids⟩
  refine (paging_complete (fun x hx => hsame x hx ▸ hreal) (fun x hx => ?_)
    (fun x hx y hy v w hv hw _ => ?_)).2.2.1 all (fun x hx => ?_) ?_
  · rw [hsame x hx]
    decide
  · rw [hsame x hx] at hv
    rw [hsame y hy] at hw
    exact Option.some.inj (hw.symm.trans hv)
  · rw [hsame x hx]
    exact ⟨hall, hsteady⟩
  · rw [hlength]
    decide

/-- The demand is withdrawn between two pages: the second request is neither answered nor told to
restart. -/
theorem withdrawn_demand_unavailable : letI := sampleDiscoveryDigest
    sampleRound.Real sampleConfiguration ∧
    (sampleIndexed (sampleHistory ++ [sampleWithdrawal])).Reached sampleConfiguration ∧
    follow sampleConfiguration sampleDemand.revision (some 1)
      [sampleRound, ⟨sampleIndexed (sampleHistory ++ [sampleWithdrawal]),
        sampleIndexed (sampleHistory ++ [sampleWithdrawal]), 20, 1⟩] none = .error unavailable ∧
    ∀ reason, unavailable ≠ restart reason := by
  let := sampleDiscoveryDigest
  refine ⟨⟨⟨_, sampleHistory_run.1⟩, _, sampleHistory_run.1⟩, ⟨_, sampleHistory_run.2⟩,
    by decide, fun _ heq => ?_⟩
  exact nomatch heq

end DirectTrade.Foundation.Discovery
