import DirectTrade.KeyOwnership
import DirectTrade.Library.Enumeration

/-!
Two hosts with the same tables that enumerate them in different orders, and what an import
reads of each. Most checks look values up by their ids. Three fold a table into another one
in which a later entry overwrites an earlier one, and several ready stages may carry
different copies of one person.
-/

namespace DirectTrade

open Library

/-- The same tables, whatever order they enumerate their entries in. -/
structure SameTables (s t : State) : Prop where
  persons : s.persons.Same t.persons
  organizations : s.organizations.Same t.organizations
  policies : s.policies.Same t.policies
  profiles : s.profiles.Same t.profiles
  releases : s.releases.Same t.releases
  records : s.records.Same t.records
  incoming : s.incoming.Same t.incoming

theorem SameTables.symm {s t : State} (h : SameTables s t) : SameTables t s where
  persons := h.persons.symm
  organizations := h.organizations.symm
  policies := h.policies.symm
  profiles := h.profiles.symm
  releases := h.releases.symm
  records := h.records.symm
  incoming := h.incoming.symm

theorem SameTables.reserved {s t : State} (h : SameTables s t) (snap : Snapshot) :
    (reservedSnapshots s snap).Perm (reservedSnapshots t snap) :=
  (h.incoming.values_perm.filter _).filterMap _

/-- A table that ready stages add to: what a snapshot carries of it, under which names. -/
structure Reservation (α β : Type) [DecidableEq α] where
  table : State → Dict α β
  carried : Snapshot → List β
  name : β → α
  reserve : ∀ s other,
    table (s.reserve other) = (carried other).foldl (fun d v => d.setNew (name v) v) (table s)

namespace Reservation

def persons : Reservation Uuid Person := ⟨(·.persons), (·.persons), (·.id), fun _ _ => rfl⟩

def organizations : Reservation Uuid Organization :=
  ⟨(·.organizations), fun snap => [snap.organization], (·.id), fun _ _ => rfl⟩

def policies : Reservation Uuid Policy := ⟨(·.policies), (·.policies), (·.id), fun _ _ => rfl⟩

def profiles : Reservation Digest Profile :=
  ⟨(·.profiles), (·.profiles), (·.digest), fun _ _ => rfl⟩

def releases : Reservation Digest Release :=
  ⟨(·.releases), (·.releases), (·.digest), fun _ _ => rfl⟩

def records : Reservation Uuid BusinessRecord :=
  ⟨(·.records), (·.records), (·.id), fun _ _ => rfl⟩

variable {α β : Type} [DecidableEq α] (r : Reservation α β) {s t : State} {snap : Snapshot}

/-- What the ready stages of other companies carry. -/
def others (s : State) (snap : Snapshot) : List β := (reservedSnapshots s snap).flatMap r.carried

/-- What a host has under a name comes first, and then the first that a stage carries. -/
theorem get?_reservedState (s : State) (snap : Snapshot) (a : α) :
    (r.table (reservedState s snap)).get? a =
      ((r.table s).get? a).or ((r.others s snap).find? (r.name · = a)) := by
  unfold reservedState others
  generalize reservedSnapshots s snap = stages
  induction stages generalizing s with
  | nil => simp
  | cons other rest ih =>
    rw [List.foldl_cons, ih, r.reserve, Dict.get?_foldl_setNew, List.flatMap_cons,
      List.find?_append, Option.or_assoc]

/-- Stages that carry a value of one name, which the host does not have, carry the same. -/
def Agree (s : State) (snap : Snapshot) : Prop :=
  ∀ x ∈ r.others s snap, ∀ y ∈ r.others s snap, r.name x = r.name y →
    (r.table s).get? (r.name x) = none → x = y

theorem others_perm (h : SameTables s t) : (r.others s snap).Perm (r.others t snap) :=
  (h.reserved snap).flatMap_right _

theorem same_reservedState (h : SameTables s t) (table : (r.table s).Same (r.table t))
    (agree : r.Agree s snap) :
    (r.table (reservedState s snap)).Same (r.table (reservedState t snap)) := by
  intro a
  rw [r.get?_reservedState, r.get?_reservedState, table a]
  cases hget : (r.table s).get? a with
  | some v => rfl
  | none =>
    rw [Option.none_or, Option.none_or]
    apply find?_of_perm (r.others_perm h)
    intro x hx y hy hxa hya
    exact agree x hx y hy (hxa.trans hya.symm) (hxa ▸ hget)

theorem Agree.of_same {r : Reservation α β} (h : SameTables s t)
    (table : (r.table s).Same (r.table t)) (agree : r.Agree s snap) : r.Agree t snap := by
  intro x hx y hy hname hnone
  refine agree x ((r.others_perm h).symm.subset hx) y ((r.others_perm h).symm.subset hy) hname ?_
  rw [← hnone, table]

end Reservation

/-- What the table of owners says of a key: an installation that has it, or else a person who
holds it, or nothing. -/
theorem hostOwners_cases (s : State) (key : KeyId) :
    (∃ id, (key, Owner.installation id) ∈ installationBindings s ∧
      (hostOwners s).get? key = some (.installation id)) ∨
    (∀ owner, (key, owner) ∉ installationBindings s) ∧
      ((∃ id, (key, Owner.person id) ∈ personBindings s ∧
        (hostOwners s).get? key = some (.person id)) ∨
      (∀ owner, (key, owner) ∉ personBindings s) ∧ (hostOwners s).get? key = none) := by
  rw [hostOwners_eq]
  rcases Dict.get?_foldl_pairs_cases (installationBindings s)
    ((personBindings s).foldl (fun d e => d.set e.1 e.2) ∅) key with
    ⟨owner, howner, hget⟩ | ⟨hnone, hget⟩
  · obtain ⟨o, -, hinst⟩ := List.mem_flatMap.mp howner
    obtain ⟨inst, -, heq⟩ := List.mem_map.mp hinst
    obtain ⟨rfl, rfl⟩ := Prod.mk.inj heq
    exact .inl ⟨inst.id, howner, hget⟩
  · refine .inr ⟨hnone, ?_⟩
    rw [hget]
    rcases Dict.get?_foldl_pairs_cases (personBindings s) ∅ key with
      ⟨owner, howner, hget⟩ | ⟨hnone, hget⟩
    · obtain ⟨p, -, -, rfl⟩ := mem_personBindings.mp howner
      exact .inl ⟨p.id, howner, hget⟩
    · exact .inr ⟨hnone, hget⟩

theorem mem_installationBindings {s : State} {key : KeyId} {owner : Owner} :
    (key, owner) ∈ installationBindings s ↔ ∃ o ∈ s.organizations.values,
      ∃ inst ∈ o.installations.values, inst.keyId = key ∧ owner = .installation inst.id := by
  simp only [installationBindings, List.mem_flatMap, List.mem_map, Prod.mk.injEq]
  constructor
  · rintro ⟨o, ho, inst, hinst, rfl, rfl⟩
    exact ⟨o, ho, inst, hinst, rfl, rfl⟩
  · rintro ⟨o, ho, inst, hinst, rfl, rfl⟩
    exact ⟨o, ho, inst, hinst, rfl, rfl⟩

theorem installationBindings_same {s t : State} (h : s.organizations.Same t.organizations)
    (e : KeyId × Owner) : e ∈ installationBindings t ↔ e ∈ installationBindings s := by
  obtain ⟨key, owner⟩ := e
  simp only [mem_installationBindings, h.mem_values]

/-- The keys that a person holds or has held. -/
def Person.held (p : Person) : List KeyId := p.keys ++ p.retiredKeys

/-- The people that an import may find at a host: those whom the host has, and the copies of
the others in the ready stages of other companies. -/
def Found (s : State) (snap : Snapshot) (q : Person) : Prop :=
  s.persons.get? q.id = some q ∨
    s.persons.get? q.id = none ∧ q ∈ Reservation.persons.others s snap

theorem found_of_reserved {s : State} (named : s.persons.Named Person.id) {snap : Snapshot}
    {id : Uuid} {q : Person} (h : (reservedState s snap).persons.get? id = some q) :
    Found s snap q ∧ q.id = id := by
  have hget := Reservation.persons.get?_reservedState s snap id
  have h : (Reservation.persons.table (reservedState s snap)).get? id = some q := h
  rw [h] at hget
  have hlive : (Reservation.persons.table s).get? id = s.persons.get? id := rfl
  cases hhost : s.persons.get? id with
  | some p =>
    rw [hlive, hhost, Option.some_or] at hget
    obtain rfl := Option.some.inj hget
    have hid : q.id = id := named id q hhost
    exact ⟨.inl (hid.symm ▸ hhost), hid⟩
  | none =>
    rw [hlive, hhost, Option.none_or] at hget
    have hfound := List.find?_some hget.symm
    have hid : q.id = id := of_decide_eq_true hfound
    exact ⟨.inr ⟨hid.symm ▸ hhost, List.mem_of_find?_eq_some hget.symm⟩, hid⟩

/-- Some copy of a person who may be found is found. -/
theorem reserved_of_found {s : State} {snap : Snapshot} {q : Person} (h : Found s snap q) :
    ∃ p, (reservedState s snap).persons.get? q.id = some p := by
  have hget : (reservedState s snap).persons.get? q.id = (s.persons.get? q.id).or
      ((Reservation.persons.others s snap).find? (·.id = q.id)) :=
    Reservation.persons.get?_reservedState s snap q.id
  cases h with
  | inl hhost =>
    rw [hhost, Option.some_or] at hget
    exact ⟨q, hget⟩
  | inr hother =>
    rw [hother.1, Option.none_or] at hget
    rw [hget]
    apply Option.isSome_iff_exists.mp
    rw [List.find?_isSome]
    exact ⟨q, hother.2, by simp⟩

theorem Found.of_same {s t : State} (h : SameTables s t) {snap : Snapshot} {q : Person}
    (hq : Found t snap q) : Found s snap q := by
  cases hq with
  | inl hhost =>
    rw [h.persons] at hhost
    exact .inl hhost
  | inr hother =>
    rw [h.persons] at hother
    exact .inr ⟨hother.1, (Reservation.persons.others_perm h).symm.subset hother.2⟩

/-- The installations that a snapshot claims a key for, with their keys. -/
def Snapshot.installed (snap : Snapshot) : List (Uuid × KeyId) :=
  snap.organization.history.filterMap fun c =>
    match c.payload with
    | .installationCreate p =>
      if snap.organization.installations.has p.installationId fun inst => !inst.active then none
      else some (p.installationId, p.keyId)
    | _ => none

/-- The keys that must be free at the destination, with whom the snapshot gives them to. -/
def Snapshot.claims (snap : Snapshot) : List (KeyId × Owner) :=
  (snap.persons.flatMap fun p => p.keys.map fun key => (key, .person p.id)) ++
    snap.installed.map fun e => (e.2, .installation e.1)

theorem Snapshot.claims_person {snap : Snapshot} {p : Person} (hp : p ∈ snap.persons)
    {key : KeyId} (hkey : key ∈ p.keys) : (key, .person p.id) ∈ snap.claims :=
  List.mem_append_left _ (List.mem_flatMap.mpr ⟨p, hp, List.mem_map.mpr ⟨key, hkey, rfl⟩⟩)

theorem Snapshot.claims_installation {snap : Snapshot} {id : Uuid} {key : KeyId}
    (h : (id, key) ∈ snap.installed) : (key, .installation id) ∈ snap.claims :=
  List.mem_append_right _ (List.mem_map.mpr ⟨_, h, rfl⟩)

/-- Whether the destination's table of owners lets an identity claim a key. -/
def Free (s : State) (key : KeyId) (owner : Owner) : Prop :=
  ((hostOwners s).get? key).all (· = owner) = true

theorem Free.owner {s : State} {key : KeyId} {owner other : Owner} (h : Free s key owner)
    (hget : (hostOwners s).get? key = some other) : other = owner := by
  unfold Free at h
  rw [hget] at h
  exact of_decide_eq_true h

theorem Free.of_owner {s : State} {key : KeyId} {owner : Owner}
    (hget : (hostOwners s).get? key = some owner) : Free s key owner := by
  unfold Free
  rw [hget]
  exact decide_eq_true rfl

theorem Free.of_none {s : State} {key : KeyId} (owner : Owner)
    (hget : (hostOwners s).get? key = none) : Free s key owner := by
  unfold Free
  rw [hget]
  rfl

/-- No installation that an import sees has a key. -/
def Uninstalled (s : State) (snap : Snapshot) (key : KeyId) : Prop :=
  ∀ owner, (key, owner) ∉ installationBindings (reservedState s snap)

/-- Nothing that the import decides by depends on which of two entries comes later. -/
structure Unmixed (s : State) (snap : Snapshot) : Prop where
  /-- Copies of one person hold the same of the keys that others claim. -/
  copies : ∀ key owner, (key, owner) ∈ snap.claims → Uninstalled s snap key → ∀ q r,
    Found s snap q → Found s snap r → q.id = r.id → owner ≠ .person q.id → key ∈ q.held →
      key ∈ r.held
  /-- Copies of a person who can act for the company are alike in their keys. -/
  acting : ∀ p ∈ snap.persons, currentPerson snap.organization p.id = true →
    ∀ q r, Found s snap q → Found s snap r → q.id = p.id → r.id = p.id →
      sameKeys q p = true → sameKeys r p = true
  /-- A key that a person claims and holds is held by no other person. -/
  people : ∀ p ∈ snap.persons, ∀ key ∈ p.keys, Uninstalled s snap key → ∀ q r,
    Found s snap q → Found s snap r → key ∈ q.held → key ∈ r.held → q.id = p.id → r.id = p.id
  /-- A key that an installation claims and has is no other installation's. -/
  installations : ∀ id key, (id, key) ∈ snap.installed → ∀ i j : Uuid,
    (key, .installation i) ∈ installationBindings (reservedState s snap) →
    (key, .installation j) ∈ installationBindings (reservedState s snap) → i = id → j = id
  /-- A profile that is there has its label alone. -/
  profiles : ∀ p ∈ snap.profiles, ∀ q ∈ (reservedState s snap).profiles.values,
    ∀ r ∈ (reservedState s snap).profiles.values, q.label = p.label → r.label = p.label →
      q.digest = p.digest → r.digest = p.digest
  releases : ∀ p ∈ snap.releases, ∀ q ∈ (reservedState s snap).releases.values,
    ∀ r ∈ (reservedState s snap).releases.values, q.label = p.label → r.label = p.label →
      q.digest = p.digest → r.digest = p.digest

/-- Ready stages of other companies carry the same of what is not a person. -/
structure StagesAgree (s : State) (snap : Snapshot) : Prop where
  organizations : Reservation.organizations.Agree s snap
  policies : Reservation.policies.Agree s snap
  profiles : Reservation.profiles.Agree s snap
  releases : Reservation.releases.Agree s snap
  records : Reservation.records.Agree s snap

section

variable {s t : State} {snap : Snapshot}

/-- The two hosts as an import sees them have the same tables but for the people. -/
structure SameReserved (s t : State) : Prop where
  organizations : s.organizations.Same t.organizations
  policies : s.policies.Same t.policies
  profiles : s.profiles.Same t.profiles
  releases : s.releases.Same t.releases
  records : s.records.Same t.records

theorem SameTables.sameReserved (h : SameTables s t) (agree : StagesAgree s snap) :
    SameReserved (reservedState s snap) (reservedState t snap) where
  organizations := Reservation.organizations.same_reservedState h h.organizations
    agree.organizations
  policies := Reservation.policies.same_reservedState h h.policies agree.policies
  profiles := Reservation.profiles.same_reservedState h h.profiles agree.profiles
  releases := Reservation.releases.same_reservedState h h.releases agree.releases
  records := Reservation.records.same_reservedState h h.records agree.records

/-- A person to whom the tables of an import bind a key may be found and holds the key. -/
theorem found_of_binding (named : s.persons.Named Person.id) {key : KeyId} {owner : Owner}
    (h : (key, owner) ∈ personBindings (reservedState s snap)) :
    ∃ q, Found s snap q ∧ key ∈ q.held ∧ owner = .person q.id := by
  obtain ⟨q, hq, hkey, howner⟩ := mem_personBindings.mp h
  obtain ⟨id, hget⟩ := (Dict.mem_values_iff _ _).mp hq
  exact ⟨q, (found_of_reserved named hget).1, hkey, howner⟩

/-- A key that another claims is bound to the person who may be found to hold it. -/
theorem binding_of_found (named : s.persons.Named Person.id) (unmixed : Unmixed s snap)
    {q : Person} (hq : Found s snap q) {key : KeyId} {owner : Owner}
    (claimed : (key, owner) ∈ snap.claims) (uninstalled : Uninstalled s snap key)
    (other : owner ≠ .person q.id) (held : key ∈ q.held) :
    (key, .person q.id) ∈ personBindings (reservedState s snap) := by
  obtain ⟨p, hget⟩ := reserved_of_found hq
  obtain ⟨hp, hid⟩ := found_of_reserved named hget
  have hkey : key ∈ p.held :=
    unmixed.copies key owner claimed uninstalled q p hq hp hid.symm other held
  exact mem_personBindings.mpr ⟨p, Dict.mem_values_of_get? hget, hkey, congrArg _ hid.symm⟩

theorem free_person (h : SameTables s t) (same : SameReserved (reservedState s snap)
      (reservedState t snap))
    (named : s.persons.Named Person.id) (named' : t.persons.Named Person.id)
    (unmixed : Unmixed s snap) {p : Person} (hp : p ∈ snap.persons) {key : KeyId}
    (hkey : key ∈ p.keys) (free : Free (reservedState s snap) key (.person p.id)) :
    Free (reservedState t snap) key (.person p.id) := by
  rcases hostOwners_cases (reservedState s snap) key with ⟨id, -, hget⟩ | ⟨hnone, hpeople⟩
  · exact nomatch free.owner hget
  · rcases hostOwners_cases (reservedState t snap) key with ⟨id, hinst, -⟩ | ⟨-, hpeople'⟩
    · exact absurd ((installationBindings_same same.organizations _).mp hinst) (hnone _)
    · rcases hpeople' with ⟨id, hbound, hget⟩ | ⟨-, hget⟩
      · obtain ⟨r, hr, hheld, howner⟩ := found_of_binding named' hbound
        have hr : Found s snap r := hr.of_same h
        rw [howner] at hget
        by_cases hid : r.id = p.id
        · rw [hid] at hget
          exact .of_owner hget
        · have hother : Owner.person p.id ≠ .person r.id :=
            fun heq => hid (Owner.person.inj heq).symm
          have hbinding := binding_of_found named unmixed hr (Snapshot.claims_person hp hkey)
            hnone hother hheld
          rcases hpeople with ⟨id', hbound', hget'⟩ | ⟨hnone', -⟩
          · obtain ⟨q, hq, hheld', howner'⟩ := found_of_binding named hbound'
            have hqid : q.id = p.id := Owner.person.inj (howner'.symm.trans (free.owner hget'))
            exact absurd (unmixed.people p hp key hkey hnone q r hq hr hheld' hheld hqid) hid
          · exact absurd hbinding (hnone' _)
      · exact .of_none _ hget

theorem free_installation (h : SameTables s t) (same : SameReserved (reservedState s snap)
      (reservedState t snap))
    (named : s.persons.Named Person.id) (named' : t.persons.Named Person.id)
    (unmixed : Unmixed s snap) {id : Uuid} {key : KeyId} (hkey : (id, key) ∈ snap.installed)
    (free : Free (reservedState s snap) key (.installation id)) :
    Free (reservedState t snap) key (.installation id) := by
  rcases hostOwners_cases (reservedState s snap) key with ⟨i, hinst, hget⟩ | ⟨hnone, hpeople⟩
  · have hi : i = id := Owner.installation.inj (free.owner hget)
    rcases hostOwners_cases (reservedState t snap) key with ⟨j, hinst', hget'⟩ | ⟨hnone, -⟩
    · have hinst' := (installationBindings_same same.organizations _).mp hinst'
      rw [unmixed.installations id key hkey i j hinst hinst' hi] at hget'
      exact .of_owner hget'
    · exact absurd ((installationBindings_same same.organizations _).mpr hinst) (hnone _)
  · rcases hostOwners_cases (reservedState t snap) key with ⟨j, hinst, -⟩ | ⟨-, hpeople'⟩
    · exact absurd ((installationBindings_same same.organizations _).mp hinst) (hnone _)
    · rcases hpeople' with ⟨j, hbound, -⟩ | ⟨-, hget⟩
      · obtain ⟨r, hr, hheld, -⟩ := found_of_binding named' hbound
        have hbinding := binding_of_found named unmixed (hr.of_same h)
          (Snapshot.claims_installation hkey) hnone (fun heq => nomatch heq) hheld
        rcases hpeople with ⟨i, -, hget'⟩ | ⟨hnone', -⟩
        · exact nomatch free.owner hget'
        · exact absurd hbinding (hnone' _)
      · exact .of_none _ hget

/-- A person who can act for the company meets the same history in both orders. -/
theorem diverges_same (h : SameTables s t) (named : s.persons.Named Person.id)
    (named' : t.persons.Named Person.id) (unmixed : Unmixed s snap) {p : Person}
    (hp : p ∈ snap.persons)
    (admitted : ((reservedState s snap).persons.get? p.id).all (sameKeys · p) = true ∨
      currentPerson snap.organization p.id = false) :
    ((reservedState t snap).persons.get? p.id).all (sameKeys · p) = true ∨
      currentPerson snap.organization p.id = false := by
  cases hcurrent : currentPerson snap.organization p.id with
  | false => exact .inr rfl
  | true =>
    left
    have hsame : ((reservedState s snap).persons.get? p.id).all (sameKeys · p) = true := by
      simpa [hcurrent] using admitted
    cases hr : (reservedState t snap).persons.get? p.id with
    | none => rfl
    | some r =>
      obtain ⟨hfound, hid⟩ := found_of_reserved named' hr
      have hfound : Found s snap r := hfound.of_same h
      obtain ⟨q, hq⟩ := reserved_of_found hfound
      obtain ⟨hfound', hid'⟩ := found_of_reserved named hq
      rw [hid] at hq hid'
      rw [hq] at hsame
      exact unmixed.acting p hp hcurrent q r hfound' hfound hid' hid hsame

end

end DirectTrade
