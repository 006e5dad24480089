import DirectTrade.Companies
import DirectTrade.Handover

/-!
Each command of a host is a custody step for every company: the host founds the company,
commits it to another host, takes it over from a committed migration, or leaves it where
it is.
-/

namespace DirectTrade

open Library

/-- The host that a committed migration handed a company to. -/
def handedTo (s : State) (o : Uuid) : Option HostRef :=
  (s.outgoing.values.find? fun m => m.commitToken.isSome && m.manifest.organizationId = o).map
    (·.manifest.destination)

def post (s : State) (o : Uuid) : Post HostRef :=
  match s.organizations.get? o with
  | none => .absent
  | some org =>
    match handedTo s o with
    | none => .holds org.generation
    | some d => .released org.generation d

theorem post_eq_absent {s : State} {o : Uuid} :
    post s o = .absent ↔ s.organizations.get? o = none := by
  unfold post
  cases s.organizations.get? o with
  | none => simp
  | some org => cases handedTo s o <;> simp

theorem post_generation (s : State) (o : Uuid) :
    (post s o).generation = (s.organizations.get? o).map (·.generation) := by
  unfold post
  cases s.organizations.get? o with
  | none => rfl
  | some org => cases handedTo s o <;> rfl

section

variable {hosts : Set HostRef} {host : HostRef} {s t : State}

theorem Handover.handedTo_eq_some (h : Handover hosts host s) {o : Uuid} {d : HostRef} :
    handedTo s o = some d ↔ ∃ id out tok, Committed s id out tok ∧
      out.manifest.organizationId = o ∧ out.manifest.destination = d := by
  constructor
  · intro hd
    obtain ⟨out, hfind, rfl⟩ := Option.map_eq_some_iff.mp hd
    have hmatch := List.find?_some hfind
    simp only [Bool.and_eq_true, decide_eq_true_eq] at hmatch
    obtain ⟨tok, htok⟩ := Option.isSome_iff_exists.mp hmatch.1
    obtain ⟨id, hid⟩ := (Dict.mem_values_iff _ _).mp (List.mem_of_find?_eq_some hfind)
    exact ⟨id, out, tok, ⟨hid, htok⟩, hmatch.2, rfl⟩
  · rintro ⟨id, out, tok, hc, rfl, rfl⟩
    unfold handedTo
    cases hfind : s.outgoing.values.find? (fun m => m.commitToken.isSome &&
        m.manifest.organizationId = out.manifest.organizationId) with
    | none =>
      have := List.find?_eq_none.mp hfind out (Dict.mem_values_of_get? hc.found)
      simp [hc.token] at this
    | some out' =>
      have hmatch := List.find?_some hfind
      simp only [Bool.and_eq_true, decide_eq_true_eq] at hmatch
      obtain ⟨tok', htok'⟩ := Option.isSome_iff_exists.mp hmatch.1
      obtain ⟨id', hid'⟩ := (Dict.mem_values_iff _ _).mp (List.mem_of_find?_eq_some hfind)
      obtain rfl := h.single id out tok hc id' out' tok' ⟨hid', htok'⟩ hmatch.2.symm
      obtain rfl := Option.some.inj (hid'.symm.trans hc.found)
      rfl

/-- A company that no migration was committed for was handed to nobody. -/
theorem Handover.handedTo_eq_none (h : Handover hosts host s) {o : Uuid}
    (hnone : ∀ id out tok, Committed s id out tok → out.manifest.organizationId ≠ o) :
    handedTo s o = none := by
  cases hd : handedTo s o with
  | none => rfl
  | some d =>
    obtain ⟨id, out, tok, hc, ho, -⟩ := h.handedTo_eq_some.mp hd
    exact absurd ho (hnone id out tok hc)

/-- An active company is one that the host holds. -/
theorem Handover.post_active (h : Handover hosts host s) {o : Uuid} {org : Organization}
    (horg : s.organizations.get? o = some org) (active : org.status = .active) :
    post s o = .holds org.generation := by
  have hnone : handedTo s o = none := h.handedTo_eq_none fun id out tok hc ho => by
    obtain ⟨org', horg', hmoved, -⟩ := h.frozen id out tok hc
    rw [ho, horg] at horg'
    obtain rfl := Option.some.inj horg'
    simp [active] at hmoved
  simp [post, horg, hnone]

theorem Handover.post_committed (h : Handover hosts host s) {id : Uuid}
    {out : OutboundMigration} {tok : Signed CommitBody} (hc : Committed s id out tok) :
    post s out.manifest.organizationId =
      .released out.manifest.generation out.manifest.destination := by
  obtain ⟨org, horg, -, hgen⟩ := h.frozen id out tok hc
  have hd := h.handedTo_eq_some.mpr ⟨id, out, tok, hc, rfl, rfl⟩
  simp [post, horg, hd, hgen]

theorem post_congr {o : Uuid}
    (horg : (t.organizations.get? o).map (·.generation) =
      (s.organizations.get? o).map (·.generation))
    (handed : handedTo t o = handedTo s o) : post t o = post s o := by
  unfold post
  rw [handed]
  cases hs : s.organizations.get? o <;> cases ht : t.organizations.get? o <;> simp_all

/-- The same companies handed over, when the same migrations are committed. -/
theorem Handover.handedTo_congr (hs : Handover hosts host s) (ht : Handover hosts host t)
    {o : Uuid} (h : ∀ id out tok, out.manifest.organizationId = o →
      (Committed t id out tok ↔ Committed s id out tok)) : handedTo t o = handedTo s o := by
  refine Option.ext fun d => ?_
  rw [hs.handedTo_eq_some, ht.handedTo_eq_some]
  constructor
  · rintro ⟨id, out, tok, hc, ho, hd⟩
    exact ⟨id, out, tok, (h id out tok ho).mp hc, ho, hd⟩
  · rintro ⟨id, out, tok, hc, ho, hd⟩
    exact ⟨id, out, tok, (h id out tok ho).mpr hc, ho, hd⟩

/-- Writing a migration that was not committed changes no commitment of a company that the
written one does not commit. -/
theorem committed_iff {m : Uuid} {new : OutboundMigration} {o : Uuid}
    (outgoing : t.outgoing = s.outgoing.set m new)
    (before : ∀ out, s.outgoing.get? m = some out → out.commitToken = none)
    (after : new.manifest.organizationId = o → new.commitToken = none) {id : Uuid}
    {out : OutboundMigration} {tok : Signed CommitBody} (ho : out.manifest.organizationId = o) :
    Committed t id out tok ↔ Committed s id out tok := by
  constructor
  · intro hc
    cases hc.cases outgoing with
    | inl hnew =>
      obtain ⟨-, rfl, htok⟩ := hnew
      rw [after ho] at htok
      cases htok
    | inr hold => exact hold.2
  · intro hc
    refine ⟨?_, hc.token⟩
    rw [outgoing, Dict.get?_set_of_ne, hc.found]
    intro hid
    have hnone := before out (hid ▸ hc.found)
    rw [hc.token] at hnone
    cases hnone

end

variable [Primitives] [Reducers]

/-- How a company comes to a host. -/
inductive Arrives (k : Call) (o : Uuid) (org : Organization) : Prop
  | founded (name : String) (nonce : Uuid) (controllers : List Uuid) (threshold : ℕ)
      (payload : k.c.payload = .mutation (.organizationCreate name nonce controllers threshold))
      (named : k.c.organizationId = some o) (active : org.status = .active)
      (generation : org.generation = 1)
  | taken (migrationId : Uuid) (token : SignedToken) (stage : InboundMigration)
      (ready : Signed ReadyBody) (body : CommitBody)
      (payload : k.c.payload = .migrationFinalize migrationId token)
      (stages : k.Stages migrationId stage)
      (binds : k.Binds migrationId token stage ready body)
      (company : stage.manifest.organizationId = o) (active : org.status = .active)
      (generation : org.generation = stage.manifest.generation + 1)
      (snapshot : Snapshot) (inactive : stage.activated = false)
      (held : stage.snapshot = some snapshot) (named : snapshot.organization.id = o)
      (digest : Primitives.digestSnapshot snapshot = stage.manifest.snapshotHash)

section

variable {s : State} {c : Command} {ctx : Context} {signed : List KeyId} {reply : Reply}

/-- A company comes to a host by its founding or by the end of its migration. -/
theorem Accepted.arrives (h : Accepted s c ctx signed reply) (keyed : Keyed s) {o : Uuid}
    {org : Organization} (absent : s.organizations.get? o = none)
    (arrived : (reply.next c).organizations.get? o = some org) :
    Arrives (callOf s c ctx signed) o org := by
  have hsame : (reply.next c).organizations.get? o ≠ s.organizations.get? o := by
    rw [arrived, absent]
    simp
  cases h.effect with
  | found orgId name nonce controllers threshold payload founds =>
    have hget := get?_pushHistory (s := (callOf s c ctx signed).setOrg
      (Call.founded orgId name controllers threshold)) payload founds.named o
    rw [get?_setOrg founds.named] at hget
    by_cases ho : o = orgId
    · subst ho
      rw [if_pos rfl, if_pos rfl] at hget
      have horg := Option.some.inj (hget.symm.trans arrived)
      subst horg
      exact .founded name nonce controllers threshold payload founds.named rfl rfl
    · rw [if_neg ho, if_neg ho] at hget
      exact absurd hget hsame
  | company old new m result payload fresh inside change =>
    obtain ⟨org', hnamed, hold⟩ := inside.named
    have hget := get?_pushHistory (s := (callOf s c ctx signed).setOrg new) payload hnamed o
    rw [get?_setOrg hnamed] at hget
    by_cases ho : o = org'
    · rw [← ho, absent] at hold
      cases hold
    · rw [if_neg ho, if_neg ho] at hget
      exact absurd hget hsame
  | append old p profile before t company validation payload appends assessed =>
    obtain rfl : s = t := (counterparties_eq keyed.remoteAuthorities appends.attested).symm
    cases company <;> exact absurd rfl hsame
  | duplicate old p profile before t company recordId recorded payload appends assessed known =>
    obtain rfl : s = t := (counterparties_eq keyed.remoteAuthorities appends.attested).symm
    exact absurd rfl hsame
  | commit old migrationId ready snapshot out org' body payload commits =>
    by_cases ho : o = out.manifest.organizationId
    · have hcompany : s.organizations.get? out.manifest.organizationId = some org' :=
        commits.company
      rw [← ho, absent] at hcompany
      cases hcompany
    · exact absurd (Dict.get?_set_of_ne s.organizations { org' with status := .migrated } ho) hsame
  | finalize migrationId token stage ready body snapshot payload stages binds inactive held
      absent' digest valid activates =>
    have hget : ∀ a, (takeOver s snapshot).organizations.get? a =
        if a = snapshot.organization.id then some (activated snapshot.organization)
        else s.organizations.get? a := fun a => Dict.get?_set ..
    have habsent : s.organizations.get? stage.manifest.organizationId = none := absent'
    have hactivates : ((takeOver s snapshot).organizations.get?
        stage.manifest.organizationId).any (fun org =>
          org.status = .active && org.generation = stage.manifest.generation + 1) = true :=
      activates
    have harrived : (takeOver s snapshot).organizations.get? o = some org := arrived
    have hcompany : stage.manifest.organizationId = snapshot.organization.id := by
      by_contra hne
      rw [hget, if_neg hne, habsent] at hactivates
      cases hactivates
    have ho : o = snapshot.organization.id := by
      by_contra hne
      rw [hget, if_neg hne, absent] at harrived
      cases harrived
    rw [hcompany, ← ho, harrived] at hactivates
    simp only [Option.any_some, Bool.and_eq_true, decide_eq_true_eq] at hactivates
    exact .taken migrationId token stage ready body payload stages binds
      (hcompany.trans ho.symm) hactivates.1 hactivates.2 snapshot inactive held ho.symm digest
  | _ => exact absurd rfl hsame

variable {hosts : Set HostRef} {host : HostRef}

/-- An accepted command leaves a company where it is, hands it over, or takes it in. -/
theorem Accepted.custody (h : Accepted s c ctx signed reply) (keyed : Keyed s)
    (hs : Handover hosts host s) (ht : Handover hosts host (reply.next c)) (o : Uuid) :
    post (reply.next c) o = post s o ∨
      (∃ g d, post s o = .holds g ∧ post (reply.next c) o = .released g d) ∨
      (s.organizations.get? o = none ∧ ∃ org, Arrives (callOf s c ctx signed) o org ∧
        post (reply.next c) o = .holds org.generation) := by
  cases hget : s.organizations.get? o with
  | none =>
    cases hnext : (reply.next c).organizations.get? o with
    | none =>
      left
      rw [post_eq_absent.mpr hget, post_eq_absent.mpr hnext]
    | some org =>
      right
      right
      have harrives := h.arrives keyed hget hnext
      refine ⟨rfl, org, harrives, ht.post_active hnext ?_⟩
      cases harrives with
      | founded _ _ _ _ _ _ active _ => exact active
      | taken _ _ _ _ _ _ _ _ _ active _ _ _ _ _ _ => exact active
  | some org =>
    obtain ⟨org', hnext, hcontinues⟩ := (h.keeps keyed).organizations o org hget
    have hstays : handedTo (reply.next c) o = handedTo s o →
        post (reply.next c) o = post s o := by
      intro hhanded
      refine post_congr ?_ hhanded
      rw [hget, hnext, Option.map_some, Option.map_some, hcontinues.generation]
    cases h.outgoingStep keyed with
    | same outgoing companies =>
      left
      apply hstays
      unfold handedTo
      rw [outgoing]
      rfl
    | prepare org snapshot destination absent pinned outgoing companies =>
      left
      apply hstays
      apply hs.handedTo_congr ht
      intro id out tok ho
      apply committed_iff outgoing _ (fun _ => rfl) ho
      intro out' hout'
      have habsent : s.outgoing.get? c.requestId = none := absent
      exact absurd (habsent.symm.trans hout') (by simp)
    | commit company migrationId ready snapshot out org' body commits outgoing companies _ =>
      have hfound : s.outgoing.get? migrationId = some out := commits.found
      by_cases ho : out.manifest.organizationId = o
      · right
        left
        have hcompany : s.organizations.get? out.manifest.organizationId = some org' :=
          commits.company
        have hactive := hs.post_active hcompany commits.active
        have hcommitted : Committed (reply.next c) migrationId _ _ :=
          ⟨outgoing ▸ Dict.get?_set_self .., rfl⟩
        have hreleased := ht.post_committed hcommitted
        rw [ho] at hactive
        simp only [ho] at hreleased
        rw [commits.generation] at hactive
        exact ⟨_, _, hactive, hreleased⟩
      · left
        apply hstays
        apply hs.handedTo_congr ht
        intro id out' tok ho'
        apply committed_iff outgoing _ (fun hsame => absurd hsame ho) ho'
        intro out'' hout''
        obtain rfl := Option.some.inj (hfound.symm.trans hout'')
        exact commits.uncommitted
    | cancel migrationId out company owns uncommitted outgoing companies =>
      left
      apply hstays
      apply hs.handedTo_congr ht
      intro id out' tok ho
      apply committed_iff outgoing _ (fun _ => uncommitted) ho
      intro out'' hout''
      have hfound : s.outgoing.get? migrationId = some out := owns.found
      obtain rfl := Option.some.inj (hfound.symm.trans hout'')
      exact uncommitted

end

end DirectTrade
