import DirectTrade.Companies
import Mathlib.Logic.Relator

/-!
Whom a key names. Every path that binds a key checks that the key is free at the host. An
imported company has its holders looked up in a table in which a later identity overwrites an
earlier one, so the copy of a person in another ready stage can hide the person who acts under
the key.
-/

namespace DirectTrade

open Library

/-- Who can sign as an actor of a host: a person, or an installation of a company. -/
inductive Signatory where
  | person (id : Uuid)
  | installation (org id : Uuid)

/-- The keys that an actor signs with: the current keys of a person, and the key of an
installation while it is active. -/
def Acts (s : State) : Signatory → KeyId → Prop
  | .person id, key => ∃ p, s.persons.get? id = some p ∧ key ∈ p.keys
  | .installation org id, key => ∃ o inst, s.organizations.get? org = some o ∧
      o.installations[id]? = some inst ∧ inst.active = true ∧ inst.keyId = key

/-- A key names at most one actor. -/
def KeysUnambiguous (s : State) : Prop := Relator.LeftUnique (Acts s)

theorem keysUnambiguous_empty : KeysUnambiguous emptyState := by
  intro a b key ha
  cases a with
  | person id =>
    obtain ⟨p, hp, -⟩ := ha
    exact nomatch hp
  | installation org id =>
    obtain ⟨o, inst, ho, -⟩ := ha
    exact nomatch ho

/-- Holdings that grow by fresh ones alone stay unambiguous. -/
theorem leftUnique_of_fresh {α κ : Type} {R S N : α → κ → Prop} (h : Relator.LeftUnique R)
    (hcases : ∀ a k, S a k → R a k ∨ N a k) (hnew : Relator.LeftUnique N)
    (hfresh : ∀ a b k, N a k → R b k → a = b) : Relator.LeftUnique S := by
  intro a b k ha hb
  rcases hcases a k ha with ha | ha
  · rcases hcases b k hb with hb | hb
    · exact h ha hb
    · exact (hfresh b a k hb ha).symm
  · rcases hcases b k hb with hb | hb
    · exact hfresh a b k ha hb
    · exact hnew ha hb

theorem mem_values_table {α β : Type} {cmp : α → α → Ordering} [Std.TransCmp cmp]
    [Std.LawfulEqCmp cmp] (t : Std.ExtTreeMap α β cmp) (v : β) :
    v ∈ t.values ↔ ∃ k : α, t[k]? = some v := by
  have hvalues : t.values = t.toList.map Prod.snd := by
    obtain ⟨⟨q⟩⟩ := t
    induction q using Quotient.ind with
    | _ m =>
      show m.inner.values = (Std.DTreeMap.Internal.Impl.Const.toList m.inner).map Prod.snd
      simp [Std.DTreeMap.Internal.Impl.values_eq_map_snd,
        Std.DTreeMap.Internal.Impl.Const.toList_eq_toListModel_map]
  simp [hvalues, Std.ExtTreeMap.mem_toList_iff_getElem?_eq_some]

/-- An unbound key is no actor's. -/
theorem not_acts_of_unbound {s : State} {key : KeyId} (h : keyBound s key = false) (a : Signatory) :
    ¬ Acts s a key := by
  intro ha
  have hbound : keyBound s key = true := by
    unfold keyBound
    rw [Bool.or_eq_true]
    cases a with
    | person id =>
      obtain ⟨p, hp, hkey⟩ := ha
      left
      apply List.any_eq_true.mpr
      refine ⟨p, Dict.mem_values_of_get? hp, ?_⟩
      exact decide_eq_true (List.mem_append_left _ hkey)
    | installation org id =>
      obtain ⟨o, inst, ho, hinst, -, hkey⟩ := ha
      right
      apply List.any_eq_true.mpr
      refine ⟨o, Dict.mem_values_of_get? ho, ?_⟩
      apply List.any_eq_true.mpr
      exact ⟨inst, (mem_values_table _ _).mpr ⟨id, hinst⟩, decide_eq_true hkey⟩
  rw [h] at hbound
  exact Bool.false_ne_true hbound

/-- The bindings of a host in the order in which they are written. -/
def personBindings (s : State) : List (KeyId × Owner) :=
  s.persons.values.flatMap fun p => (p.keys ++ p.retiredKeys).map fun key => (key, .person p.id)

def installationBindings (s : State) : List (KeyId × Owner) :=
  s.organizations.values.flatMap fun org =>
    org.installations.values.map fun inst => (inst.keyId, .installation inst.id)

variable [Primitives]

omit [Primitives] in
theorem hostOwners_eq (s : State) :
    hostOwners s = (installationBindings s).foldl (fun d e => d.set e.1 e.2)
      ((personBindings s).foldl (fun d e => d.set e.1 e.2) ∅) := by
  simp only [hostOwners, installationBindings, personBindings, List.foldl_flatMap,
    List.foldl_map]

omit [Primitives] in
theorem mem_personBindings {s : State} {key : KeyId} {owner : Owner} :
    (key, owner) ∈ personBindings s ↔
      ∃ p ∈ s.persons.values, key ∈ p.keys ++ p.retiredKeys ∧ owner = .person p.id := by
  simp only [personBindings, List.mem_flatMap, List.mem_map, Prod.mk.injEq]
  constructor
  · rintro ⟨p, hp, k, hk, rfl, rfl⟩
    exact ⟨p, hp, hk, rfl⟩
  · rintro ⟨p, hp, hk, rfl⟩
    exact ⟨p, hp, key, hk, rfl, rfl⟩

omit [Primitives] in
/-- A key that one person of the host holds, and that the table gives to a person, is held by
that person too. -/
theorem hostOwners_person {s : State} {key : KeyId} {q : Uuid} {holder : Person}
    (held : holder ∈ s.persons.values) (acts : key ∈ holder.keys)
    (h : ((hostOwners s).get? key).all (· = .person q) = true) :
    ∃ p ∈ s.persons.values, p.id = q ∧ key ∈ p.keys ++ p.retiredKeys := by
  have hbinding : (key, Owner.person holder.id) ∈ personBindings s :=
    mem_personBindings.mpr ⟨holder, held, List.mem_append_left _ acts, rfl⟩
  rw [hostOwners_eq] at h
  rcases Dict.get?_foldl_pairs_cases (installationBindings s)
    ((personBindings s).foldl (fun d e => d.set e.1 e.2) ∅) key with
    ⟨owner, howner, hget⟩ | ⟨-, hget⟩
  · rw [hget] at h
    have heq : owner = .person q := of_decide_eq_true h
    subst heq
    simp [installationBindings] at howner
  · rw [hget] at h
    rcases Dict.get?_foldl_pairs_cases (personBindings s) ∅ key with
      ⟨owner, howner, hget⟩ | ⟨hnone, -⟩
    · rw [hget] at h
      have heq : owner = .person q := of_decide_eq_true h
      subst heq
      obtain ⟨p, hp, hkey, heq⟩ := mem_personBindings.mp howner
      exact ⟨p, hp, (Owner.person.inj heq).symm, hkey⟩
    · exact absurd hbinding (hnone _)

omit [Primitives] in
/-- The table never gives the key of an installation to a person. -/
theorem hostOwners_installation {s : State} {o : Organization} {inst : Installation} {q : Uuid}
    (company : o ∈ s.organizations.values) (installed : inst ∈ o.installations.values) :
    ((hostOwners s).get? inst.keyId).all (· = .person q) = false := by
  have hbinding : (inst.keyId, Owner.installation inst.id) ∈ installationBindings s :=
    List.mem_flatMap.mpr ⟨o, company, List.mem_map.mpr ⟨inst, installed, rfl⟩⟩
  rw [hostOwners_eq]
  rcases Dict.get?_foldl_pairs_cases (installationBindings s)
    ((personBindings s).foldl (fun d e => d.set e.1 e.2) ∅) inst.keyId with
    ⟨owner, howner, hget⟩ | ⟨hnone, -⟩
  · rw [hget]
    have hne : owner ≠ .person q := by
      rintro rfl
      simp [installationBindings] at howner
    exact decide_eq_false hne
  · exact absurd hbinding (hnone _)

omit [Primitives] in
/-- Among people with distinct identifiers each is found under its own. -/
theorem find?_of_nodup {people : List Person} {p : Person}
    (distinct : (people.map Person.id).Nodup) (hp : p ∈ people) :
    people.find? (fun q => decide (q.id = p.id)) = some p := by
  induction people with
  | nil => exact nomatch hp
  | cons q rest ih =>
    rw [List.map_cons, List.nodup_cons] at distinct
    rcases List.mem_cons.mp hp with rfl | hrest
    · simp
    · have hne : q.id ≠ p.id := by
        intro heq
        exact distinct.1 (heq ▸ List.mem_map_of_mem hrest)
      rw [List.find?_cons_of_neg (by simpa using hne)]
      exact ih distinct.2 hrest

theorem claimKey_eq_ok {host claimed claimed' : Owners} {key : KeyId} {owner : Owner}
    {current : Bool} {message : String}
    (h : claimKey host claimed key owner current message = .ok claimed') :
    (claimed.get? key).all (· = owner) = true ∧
      (current = true → (host.get? key).all (· = owner) = true) ∧
      claimed' = claimed.set key owner := by
  simp only [claimKey, Outcome.bind_eq_ok, demand_eq_ok, Outcome.pure_eq_ok] at h
  obtain ⟨_, hclaimed, _, hfree, rfl⟩ := h
  refine ⟨hclaimed, fun hcurrent => ?_, rfl⟩
  rcases hfree with hfree | hfree
  · rw [hcurrent] at hfree
    cases hfree
  · exact hfree

/-- The keys that one person has claimed, beside those claimed before. -/
structure Claims (host before claimed : Owners) (p : Person) (keys : List KeyId)
    (current : Bool) : Prop where
  own : ∀ key ∈ keys, claimed.get? key = some (.person p.id)
  free : current = true → ∀ key ∈ keys, (host.get? key).all (· = .person p.id) = true
  kept : ∀ key owner, before.get? key = some owner → claimed.get? key = some owner

theorem claimKeys_eq_ok {host before claimed : Owners} {p : Person} {keys : List KeyId}
    {current : Bool} (h : claimKeys host before p keys current = .ok claimed) :
    Claims host before claimed p keys current := by
  refine Outcome.foldlM_prefix (fun pre claimed => Claims host before claimed p pre current)
    ?_ ⟨by simp, by simp, fun _ _ h => h⟩ h
  intro pre key claimed claimed' hpre hstep
  simp only [Outcome.bind_eq_ok, demand_eq_ok] at hstep
  obtain ⟨_, -, hstep⟩ := hstep
  obtain ⟨hclaimed, hfree, rfl⟩ := claimKey_eq_ok hstep
  constructor
  · intro k hk
    rw [Dict.get?_set]
    rcases List.mem_append.mp hk with hk | hk
    · by_cases heq : k = key
      · rw [if_pos heq]
      · rw [if_neg heq]
        exact hpre.own k hk
    · rw [if_pos (List.mem_singleton.mp hk)]
  · intro hcurrent k hk
    rcases List.mem_append.mp hk with hk | hk
    · exact hpre.free hcurrent k hk
    · obtain rfl := List.mem_singleton.mp hk
      exact hfree hcurrent
  · intro k owner hk
    rw [Dict.get?_set]
    have hold := hpre.kept k owner hk
    by_cases heq : k = key
    · subst heq
      rw [hold] at hclaimed
      have howner : owner = .person p.id := of_decide_eq_true hclaimed
      rw [if_pos rfl, howner]
    · rw [if_neg heq]
      exact hold

/-- What an accepted list of people is known to satisfy at a host. -/
structure PeopleClaimed (host : Owners) (people : List Person) (claimed : Owners) : Prop where
  distinct : (people.map Person.id).Nodup
  own : ∀ p ∈ people, ∀ key ∈ p.keys, claimed.get? key = some (.person p.id)
  free : ∀ p ∈ people, ∀ key ∈ p.keys, (host.get? key).all (· = .person p.id) = true

theorem validatePersons_eq_ok {s : State} {snap : Snapshot} {claimed : Owners}
    (h : validatePersons s snap = .ok claimed) :
    PeopleClaimed (hostOwners s) snap.persons claimed := by
  simp only [validatePersons, Outcome.bind_eq_ok, Outcome.pure_eq_ok] at h
  obtain ⟨replay, hfold, rfl⟩ := h
  refine Outcome.foldlM_prefix
    (fun pre (r : PeopleReplay) =>
      r.seen = pre.map Person.id ∧ PeopleClaimed (hostOwners s) pre r.claimed)
    ?_ ⟨rfl, by simp, by simp, by simp⟩ hfold |>.2
  rintro pre p r r' ⟨hseen, hpre⟩ hstep
  simp only [validatePerson, Outcome.bind_eq_ok, invalidSnapshot_eq_ok, demand_eq_ok,
    Outcome.pure_eq_ok] at hstep
  obtain ⟨_, ⟨hunseen, -⟩, personal, -, _, ⟨hkeys, -⟩, current, hcurrent, all, hretired, _, -,
    rfl⟩ := hstep
  have hcurrent := claimKeys_eq_ok hcurrent
  have hretired := claimKeys_eq_ok hretired
  refine ⟨by rw [hseen, List.map_append, List.map_singleton], ?_, ?_, ?_⟩
  · rw [List.map_append, List.map_singleton]
    rw [hseen] at hunseen
    exact List.nodup_append_comm.mp (List.nodup_cons.mpr ⟨hunseen, hpre.distinct⟩)
  · intro q hq key hkey
    apply hretired.kept
    rcases List.mem_append.mp hq with hq | hq
    · exact hcurrent.kept _ _ (hpre.own q hq key hkey)
    · obtain rfl := List.mem_singleton.mp hq
      exact hcurrent.own key (hkeys ▸ hkey)
  · intro q hq key hkey
    rcases List.mem_append.mp hq with hq | hq
    · exact hpre.free q hq key hkey
    · obtain rfl := List.mem_singleton.mp hq
      exact hcurrent.free rfl key (hkeys ▸ hkey)

omit [Primitives] in
theorem State.reserve_persons {s : State} {other : Snapshot} {id : Uuid} {p : Person}
    (h : s.persons.get? id = some p) : (s.reserve other).persons.get? id = some p := by
  simp [State.reserve, Dict.get?_foldl_setNew, h]

omit [Primitives] in
/-- A person whom an import sees is one of the host or of another ready stage. -/
theorem reserved_person {s : State} {snap : Snapshot} {id : Uuid} {q : Person}
    (h : (reservedState s snap).persons.get? id = some q) :
    s.persons.get? id = some q ∨
      ∃ other ∈ reservedSnapshots s snap, q ∈ other.persons ∧ q.id = id := by
  revert id q
  refine reservedState_induction (P := fun t => ∀ {id : Uuid} {q : Person},
    t.persons.get? id = some q → s.persons.get? id = some q ∨
      ∃ other ∈ reservedSnapshots s snap, q ∈ other.persons ∧ q.id = id) snap
    (fun h => .inl h) ?_
  intro t other hother ih id q hq
  simp only [State.reserve, Dict.get?_foldl_setNew, Option.or_eq_some_iff] at hq
  rcases hq with hq | ⟨-, hq⟩
  · exact ih hq
  · have hid : q.id = id := by simpa using List.find?_some hq
    exact .inr ⟨other, hother, List.mem_of_find?_eq_some hq, hid⟩

/-- A person unknown to the host brings a key that a person of the host acts under, while
another ready stage holds a copy of the first person with that key. -/
def HolderHidden (s : State) (snap : Snapshot) : Prop :=
  ∃ p ∈ snap.persons, s.persons.get? p.id = none ∧ ∃ key ∈ p.keys,
    (∃ other ∈ reservedSnapshots s snap, ∃ q ∈ other.persons,
      q.id = p.id ∧ key ∈ q.keys ++ q.retiredKeys) ∧
    ∃ holder ∈ s.persons.values, key ∈ holder.keys

instance (s : State) (snap : Snapshot) : Decidable (HolderHidden s snap) := by
  unfold HolderHidden
  infer_instance

/-- The keys that an import binds: those of the people it adds to the host. -/
def Brings (s : State) (snap : Snapshot) (a : Signatory) (key : KeyId) : Prop :=
  ∃ p ∈ snap.persons, s.persons.get? p.id = none ∧ a = .person p.id ∧ key ∈ p.keys

variable [Reducers]

theorem Brings.leftUnique {s : State} {snap : Snapshot}
    (valid : validateSnapshot s snap = .ok ()) : Relator.LeftUnique (Brings s snap) := by
  obtain ⟨_, _, _, _, validated⟩ := (validateSnapshot_eq_ok s snap ()).mp valid
  have hclaimed := validatePersons_eq_ok validated.persons
  rintro a b key ⟨p, hp, -, rfl, hkey⟩ ⟨q, hq, -, rfl, hkey'⟩
  have howner := (hclaimed.own p hp key hkey).symm.trans (hclaimed.own q hq key hkey')
  have hid : p.id = q.id := Owner.person.inj (Option.some.inj howner)
  rw [hid]

/-- A validated import brings the key of an actor of the host only where the actor is
hidden by a copy of the person who brings it. -/
theorem Brings.fresh {s : State} {snap : Snapshot} (keyed : Keyed s)
    (valid : validateSnapshot s snap = .ok ()) (shown : ¬ HolderHidden s snap) {a b : Signatory}
    {key : KeyId} (brings : Brings s snap a key) : ¬ Acts s b key := by
  obtain ⟨_, _, _, _, validated⟩ := (validateSnapshot_eq_ok s snap ()).mp valid
  have hclaimed := validatePersons_eq_ok validated.persons
  obtain ⟨p, hp, habsent, -, hkey⟩ := brings
  have hfree := hclaimed.free p hp key hkey
  intro hacts
  cases b with
  | person id =>
    obtain ⟨holder, hholder, hheld⟩ := hacts
    have hreserved : (reservedState s snap).persons.get? id = some holder :=
      reservedState_induction (P := fun t => t.persons.get? id = some holder) snap hholder
        fun t other _ ht => State.reserve_persons ht
    obtain ⟨q, hq, hid, hkeys⟩ :=
      hostOwners_person (Dict.mem_values_of_get? hreserved) hheld hfree
    obtain ⟨id', hq⟩ := (Dict.mem_values_iff _ _).mp hq
    rcases reserved_person hq with hlive | ⟨other, hother, hmem, -⟩
    · have hname : q.id = id' := keyed.persons id' q hlive
      rw [← hname, hid, habsent] at hlive
      exact nomatch hlive
    · exact shown ⟨p, hp, habsent, key, hkey, ⟨other, hother, q, hmem, hid, hkeys⟩,
        holder, Dict.mem_values_of_get? hholder, hheld⟩
  | installation org id =>
    obtain ⟨o, inst, ho, hinst, -, rfl⟩ := hacts
    have hreserved : (reservedState s snap).organizations.get? org = some o :=
      reservedState_induction (P := fun t => t.organizations.get? org = some o) snap ho
        fun t other _ ht => State.reserve_organizations ht
    have hinstalled : inst ∈ o.installations.values := (mem_values_table _ _).mpr ⟨id, hinst⟩
    have hother := hostOwners_installation (q := p.id)
      (Dict.mem_values_of_get? hreserved) hinstalled
    rw [hfree] at hother
    exact nomatch hother

/-- The actor that an accepted command other than an import can give a key. -/
def Command.enrolls (c : Command) : Signatory :=
  match c.payload, c.organizationId with
  | .mutation (.installationCreate p), some org => .installation org p.installationId
  | _, _ => .person c.actor.id

omit [Primitives] [Reducers] in
theorem pushHistory_persons (s : State) (c : Command) :
    (pushHistory s c).persons = s.persons := by
  unfold pushHistory
  split <;> rfl

omit [Primitives] [Reducers] in
theorem setOrg_persons (k : Call) (o : Organization) : (k.setOrg o).persons = k.s.persons := by
  unfold Call.setOrg
  split <;> rfl

/-- The keys of the people after a command that is not an import. -/
theorem Accepted.personActs {s : State} {c : Command} {ctx : Context} {signed : List KeyId}
    {reply : Reply} (keyed : Keyed s) (h : Accepted s c ctx signed reply)
    (apart : ∀ migrationId token, c.payload ≠ .migrationFinalize migrationId token) {id : Uuid}
    {key : KeyId} (acts : Acts (reply.next c) (.person id) key) :
    Acts s (.person id) key ∨ Signatory.person id = c.enrolls ∧ keyBound s key = false := by
  obtain ⟨p, hp, hkey⟩ := acts
  cases h.effect with
  | register keys payload enrolls =>
    have hset := Dict.get?_set s.persons c.actor.id id ((callOf s c ctx signed).enrolled keys)
    by_cases hid : id = c.actor.id
    · right
      rw [if_pos hid] at hset
      obtain rfl := Option.some.inj (hset.symm.trans hp)
      have hpayload : c.payload = .mutation (.personRegister keys) := payload
      have henrolls : c.enrolls = .person c.actor.id := by
        simp only [Command.enrolls, hpayload]
      exact ⟨by rw [henrolls, hid], (enrolls.proven key hkey).1.unbound⟩
    · left
      rw [if_neg hid] at hset
      exact ⟨p, hset.symm.trans hp, hkey⟩
  | rotate add revoke person payload rotates =>
    have hset := Dict.get?_set s.persons c.actor.id id
      ((callOf s c ctx signed).rotated person add revoke)
    by_cases hid : id = c.actor.id
    · rw [if_pos hid] at hset
      obtain rfl := Option.some.inj (hset.symm.trans hp)
      rcases List.mem_append.mp hkey with hkey | hkey
      · left
        have hfound : s.persons.get? c.actor.id = some person := rotates.found
        exact ⟨person, hid ▸ hfound, List.mem_of_mem_filter hkey⟩
      · right
        have hpayload : c.payload = .mutation (.personRotate add revoke) := payload
        have henrolls : c.enrolls = .person c.actor.id := by
          simp only [Command.enrolls, hpayload]
        exact ⟨by rw [henrolls, hid], (rotates.proven key hkey).1.unbound⟩
    · left
      rw [if_neg hid] at hset
      exact ⟨p, hset.symm.trans hp, hkey⟩
  | found orgId name nonce controllers threshold payload founds =>
    left
    refine ⟨p, ?_, hkey⟩
    have hp : (pushHistory ((callOf s c ctx signed).setOrg
      (Call.founded orgId name controllers threshold)) c).persons.get? id = some p := hp
    rw [pushHistory_persons, setOrg_persons] at hp
    exact hp
  | company old new m result payload fresh inside change =>
    left
    refine ⟨p, ?_, hkey⟩
    have hp : (pushHistory ((callOf s c ctx signed).setOrg new) c).persons.get? id = some p := hp
    rw [pushHistory_persons, setOrg_persons] at hp
    exact hp
  | append old r profile before t company validation payload appends assessed =>
    left
    obtain rfl : s = t := (counterparties_eq keyed.remoteAuthorities appends.attested).symm
    refine ⟨p, ?_, hkey⟩
    cases company <;> exact hp
  | duplicate old r profile before t company recordId recorded payload appends assessed known =>
    left
    obtain rfl : s = t := (counterparties_eq keyed.remoteAuthorities appends.attested).symm
    exact ⟨p, hp, hkey⟩
  | finalize migrationId token stage ready body snapshot payload stages binds inactive held
      absent digest valid activates => exact absurd payload (apart migrationId token)
  | _ => exact .inl ⟨p, hp, hkey⟩

/-- The keys of the active installations after any accepted command. -/
theorem Accepted.installationActs {s : State} {c : Command} {ctx : Context}
    {signed : List KeyId} {reply : Reply} (keyed : Keyed s) (h : Accepted s c ctx signed reply)
    {org id : Uuid} {key : KeyId} (acts : Acts (reply.next c) (.installation org id) key) :
    Acts s (.installation org id) key ∨
      Signatory.installation org id = c.enrolls ∧ keyBound s key = false := by
  obtain ⟨o, inst, ho, hinst, hactive, rfl⟩ := acts
  have hmove := h.companyMove keyed org
  rw [ho] at hmove
  rcases hmove.installed hinst hactive with ⟨old, hold, hinst⟩ | ⟨p, old, release, creates⟩
  · exact .inl ⟨old, inst, hold, hinst, hactive, rfl⟩
  · right
    have hpayload : c.payload = .mutation (.installationCreate p) := creates.payload
    have hnamed : c.organizationId = some org := creates.named
    have henrolls : c.enrolls = .installation org p.installationId := by
      simp only [Command.enrolls, hpayload, hnamed]
    have hunbound : keyBound s p.keyId = false := creates.installs.free.unbound
    rw [henrolls, creates.id, creates.inst]
    exact ⟨rfl, hunbound⟩

/-- The import of a staged snapshot that hides the holder of a key. -/
def Hides (s : State) (c : Command) : Prop :=
  match c.payload with
  | .migrationFinalize migrationId _ => ∃ stage ∈ s.incoming.get? migrationId,
      stage.activated = false ∧ ∃ snap ∈ stage.snapshot, HolderHidden s snap
  | _ => False

instance (s : State) (c : Command) : Decidable (Hides s c) := by
  unfold Hides
  split <;> infer_instance

omit [Primitives] [Reducers] in
theorem hides_iff {s : State} {c : Command} : Hides s c ↔
    ∃ (migrationId : Uuid) (token : SignedToken) (stage : InboundMigration) (snap : Snapshot),
      c.payload = .migrationFinalize migrationId token ∧
      s.incoming.get? migrationId = some stage ∧ stage.activated = false ∧
      stage.snapshot = some snap ∧ HolderHidden s snap := by
  unfold Hides
  constructor
  · intro h
    split at h
    · rename_i migrationId token payload
      obtain ⟨stage, hstage, hpending, snap, hsnap, hidden⟩ := h
      exact ⟨migrationId, token, stage, snap, payload, hstage, hpending, hsnap, hidden⟩
    · exact h.elim
  · rintro ⟨migrationId, token, stage, snap, payload, hstage, hpending, hsnap, hidden⟩
    rw [payload]
    exact ⟨stage, hstage, hpending, snap, hsnap, hidden⟩

omit [Primitives] [Reducers] in
theorem takeOver_acts {s : State} {snap : Snapshot} {a : Signatory} {key : KeyId}
    (h : Acts (takeOver s snap) a key) : Acts s a key ∨ Brings s snap a key := by
  cases a with
  | person id =>
    obtain ⟨p, hp, hkey⟩ := h
    have hp := (Dict.get?_foldl_setNew Person.id snap.persons s.persons id).symm.trans hp
    rcases Option.or_eq_some_iff.mp hp with hp | ⟨habsent, hp⟩
    · exact .inl ⟨p, hp, hkey⟩
    · right
      have hid : p.id = id := by simpa using List.find?_some hp
      exact ⟨p, List.mem_of_find?_eq_some hp, hid ▸ habsent, by rw [hid], hkey⟩
  | installation org id =>
    obtain ⟨o, inst, ho, hinst, hactive, hkey⟩ := h
    have ho := (Dict.get?_set s.organizations snap.organization.id org
      (activated snap.organization)).symm.trans ho
    split at ho
    · obtain rfl := Option.some.inj ho
      have hinst : (snap.organization.installations.map
        fun _ inst => { inst with active := false })[id]? = some inst := hinst
      rw [Std.ExtTreeMap.getElem?_map] at hinst
      obtain ⟨old, -, rfl⟩ := Option.map_eq_some_iff.mp hinst
      cases hactive
    · exact .inl ⟨o, inst, ho, hinst, hactive, hkey⟩

/-- A finalized stage has been activated before, or is taken over now. -/
theorem Accepted.finalizes {s : State} {c : Command} {ctx : Context} {signed : List KeyId}
    {reply : Reply} (h : Accepted s c ctx signed reply) {migrationId : Uuid}
    {token : SignedToken} (payload : c.payload = .migrationFinalize migrationId token) :
    ∃ stage, s.incoming.get? migrationId = some stage ∧
      (stage.activated = true ∧ reply.next c = s ∨
        stage.activated = false ∧ ∃ snap, stage.snapshot = some snap ∧
          validateSnapshot s snap = .ok () ∧
          ∃ incoming, reply.next c = { takeOver s snap with incoming := incoming }) := by
  have hpayload : (callOf s c ctx signed).c.payload = .migrationFinalize migrationId token :=
    payload
  cases h.effect with
  | finalize migrationId' token' stage ready body snapshot payload' stages binds inactive held
      absent digest valid activates =>
    obtain ⟨rfl, rfl⟩ := Payload.migrationFinalize.inj (hpayload.symm.trans payload')
    exact ⟨stage, stages.found, .inr ⟨inactive, snapshot, held, valid, _, rfl⟩⟩
  | finalizeAgain migrationId' token' stage ready body payload' stages binds activated =>
    obtain ⟨rfl, rfl⟩ := Payload.migrationFinalize.inj (hpayload.symm.trans payload')
    exact ⟨stage, stages.found, .inl ⟨activated, rfl⟩⟩
  | read result reads =>
    have hobserves := reads.action
    rw [hpayload] at hobserves
    exact nomatch hobserves
  | revise o create p payload' revises =>
    rw [hpayload] at payload'
    exact nomatch payload'
  | attest token' hop b payload' attests =>
    rw [hpayload] at payload'
    rcases payload' with payload' | ⟨commit, payload'⟩ <;> exact nomatch payload'
  | replay m receipt payload' | register keys payload' | rotate add revoke person payload'
  | found orgId name nonce controllers threshold payload' | company o o' m result payload'
  | publish o p payload' | admitContract o digest contract payload'
  | contractAdmitted o digest contract profile payload' | release o p payload'
  | append o p profile before t company validation payload'
  | duplicate o p profile before t company recordId recorded payload'
  | replayStock o m receipt payload' | stock o m company result payload'
  | prepareAgain o destination snapshot org prior payload'
  | prepare o destination snapshot org payload' | commitAgain id ready out o token' payload'
  | commit o id ready snapshot out org body payload' | cancelAgain id out o token' payload'
  | cancel id out o payload' | stageAgain token' body old payload' | stage token' body payload'
  | upload id index data stage payload' | readyAgain id stage token' payload'
  | ready id stage snapshot payload' | abort id token' stage body payload' =>
    exact nomatch hpayload.symm.trans payload'

/-- A command that hides no holder keeps the keys unambiguous. -/
theorem Accepted.keysUnambiguous {s : State} {c : Command} {ctx : Context}
    {signed : List KeyId} {reply : Reply} (keyed : Keyed s) (unambiguous : KeysUnambiguous s)
    (h : Accepted s c ctx signed reply) (shown : ¬ Hides s c) :
    KeysUnambiguous (reply.next c) := by
  by_cases hfinal : ∃ migrationId token, c.payload = .migrationFinalize migrationId token
  · obtain ⟨migrationId, token, hpayload⟩ := hfinal
    obtain ⟨stage, hstage, ⟨-, heq⟩ | ⟨hpending, snap, hsnap, hvalid, incoming, heq⟩⟩ :=
      h.finalizes hpayload
    · rw [heq]
      exact unambiguous
    · have hvisible : ¬ HolderHidden s snap := fun hidden =>
        shown (hides_iff.mpr
          ⟨migrationId, token, stage, snap, hpayload, hstage, hpending, hsnap, hidden⟩)
      rw [heq]
      exact leftUnique_of_fresh unambiguous (fun a key => takeOver_acts)
        (Brings.leftUnique hvalid)
        fun a b key brings acts => absurd acts (brings.fresh keyed hvalid hvisible)
  · have hfinal : ∀ migrationId token, c.payload ≠ .migrationFinalize migrationId token :=
      fun migrationId token payload => hfinal ⟨migrationId, token, payload⟩
    refine leftUnique_of_fresh (N := fun a key => a = c.enrolls ∧ keyBound s key = false)
      unambiguous ?_ ?_ ?_
    · intro a key acts
      cases a with
      | person id => exact h.personActs keyed hfinal acts
      | installation org id => exact h.installationActs keyed acts
    · intro a b key ha hb
      exact ha.1.trans hb.1.symm
    · intro a b key ha hb
      exact absurd hb (not_acts_of_unbound ha.2 b)

/-- A command that hides a holder leaves one key with two people. -/
theorem Accepted.keysAmbiguous {s : State} {c : Command} {ctx : Context} {signed : List KeyId}
    {reply : Reply} (h : Accepted s c ctx signed reply) (hides : Hides s c) :
    ¬ KeysUnambiguous (reply.next c) := by
  obtain ⟨migrationId, token, stage, snap, hpayload, hstage, hpending, hsnap, p, hp, habsent, key,
    hkey, -, holder, hmem, hheld⟩ := hides_iff.mp hides
  obtain ⟨id, hholder⟩ := (Dict.mem_values_iff _ _).mp hmem
  obtain ⟨stage', hstage', hcases⟩ := h.finalizes hpayload
  obtain rfl := Option.some.inj (hstage.symm.trans hstage')
  obtain ⟨hactivated, -⟩ | ⟨-, snap', hsnap', hvalid, incoming, heq⟩ := hcases
  · rw [hpending] at hactivated
    exact nomatch hactivated
  · obtain rfl := Option.some.inj (hsnap.symm.trans hsnap')
    obtain ⟨_, _, _, _, validated⟩ := (validateSnapshot_eq_ok s snap ()).mp hvalid
    have hdistinct := (validatePersons_eq_ok validated.persons).distinct
    have hget := fun i => Dict.get?_foldl_setNew Person.id snap.persons s.persons i
    have hbrought : Acts (takeOver s snap) (.person p.id) key := by
      refine ⟨p, (hget p.id).trans ?_, hkey⟩
      rw [habsent, Option.none_or]
      exact find?_of_nodup hdistinct hp
    have hstays : Acts (takeOver s snap) (.person id) key := by
      refine ⟨holder, (hget id).trans ?_, hheld⟩
      rw [hholder, Option.some_or]
    rw [heq]
    intro unambiguous
    have hid : p.id = id := Signatory.person.inj (unambiguous hbrought hstays)
    rw [hid, hholder] at habsent
    exact nomatch habsent

/-- Along a run the keys of its states are unambiguous exactly when no command of it imports
a snapshot that hides the holder of a key. -/
theorem keys_unambiguous_iff {l : List Turn} {s : State} (path : Path l s) :
    ((∀ turn ∈ l, KeysUnambiguous turn.state) ∧ KeysUnambiguous s) ↔
      ∀ turn ∈ l, ¬ Hides turn.state turn.command := by
  induction path with
  | nil => simp [keysUnambiguous_empty]
  | @snoc l s s' c ctx result before accepted ih =>
    obtain ⟨signed, reply, haccepted, rfl, -⟩ := execute_eq_ok accepted
    have hlast : ∀ P : Turn → Prop, (∀ turn ∈ l ++ [⟨s, c, ctx⟩], P turn) ↔
        (∀ turn ∈ l, P turn) ∧ P ⟨s, c, ctx⟩ := by
      intro P
      simp [or_imp, forall_and]
    rw [hlast, hlast, ih]
    refine and_congr_right fun hshown => ?_
    have hbefore := (ih.mpr hshown).2
    constructor
    · intro hafter hides
      exact haccepted.keysAmbiguous hides hafter
    · intro hshown
      exact haccepted.keysUnambiguous before.reachable.keyed hbefore hshown

/-- Three hosts, each pinned by the others. The person 10 once controlled a company of host `a`
and a company of host `c`. At `a` the person retired the key 11, which the person 20 registers
at host `b`; at `c` it is current. -/
def threeHosts (audience : String) : Context :=
  { sampleContext audience 0 with
    storeKey := if audience = "a" then 100 else if audience = "b" then 200 else 300
    pins := fun host => if host = "a" then some 100 else if host = "b" then some 200 else
      if host = "c" then some 300 else none }

/-- A command of a person under the key of the same number, with the keys that sign it. -/
def signedBy (audience : String) (requestId person : Uuid) (keys : List KeyId)
    (org : Option Uuid) (payload : Payload) : Command × Context :=
  ({ sampleCommand audience 0 requestId org payload with
      actor := ⟨.person, person, person⟩, requestedBy := some person,
      signatures := keys.map fun key => ⟨key, 0⟩ },
    threeHosts audience)

/-- The persons 1 and 10 found a company, which the person 10 then leaves. -/
def partingCommands (audience : String) (org nonce : Uuid) : List (Command × Context) :=
  [signedBy audience 1 1 [1] none (.mutation (.personRegister [1])),
    signedBy audience 2 10 [10, 11] none (.mutation (.personRegister [10, 11])),
    signedBy audience 3 1 [1, 10] (some org)
      (.mutation (.organizationCreate "acme" nonce [1, 10] 1)),
    signedBy audience 4 1 [1] (some org) (.mutation (.organizationPolicy [1] 1))]

def exported (commands : List (Command × Context)) (audience : String) (org : Uuid) : Snapshot :=
  letI := samplePrimitives none
  letI := sampleReducers
  Outcome.value ⟨"", ⟨0, "", [], 0, 0, .active, ∅, ∅, ∅, []⟩, [], [], [], [], [], [], ∅⟩
    (buildSnapshot (finalState (run emptyState commands)) org (threeHosts audience))

def retiredSnapshot : Snapshot :=
  exported (partingCommands "a" 1005 5 ++
    [signedBy "a" 5 10 [10] none (.mutation (.personRotate [] [11]))]) "a" 1005

def currentSnapshot : Snapshot := exported (partingCommands "c" 1006 6) "c" 1006

/-- The bytes of a snapshot tell the two companies apart. -/
def companyBytes (org : Uuid) : List UInt8 := [UInt8.ofNat org]

@[reducible] def twoSources : Primitives :=
  { samplePrimitives none with
    digestSnapshot := fun snap => snap.organization.id
    snapshotBytes := fun snap => companyBytes snap.organization.id
    parseSnapshot := fun bytes =>
      [retiredSnapshot, currentSnapshot].find? fun snap =>
        companyBytes snap.organization.id = bytes }

def partingManifest (source : HostRef) (migrationId org : Uuid) : MigrationManifest :=
  ⟨migrationId, org, 1, source, ⟨"b", 200⟩, org, 1, [1], 3600000⟩

/-- The company is staged, uploaded and made ready at host `b`. -/
def readying (source : HostRef) (migrationId org : Uuid) : List (Command × Context) :=
  [signedBy "b" (migrationId + 1) 1 [1] none (.migrationStage
      ⟨.manifest ⟨⟨source.audience, 0, 3600000⟩, 1, partingManifest source migrationId org⟩,
        source.keyId, source.keyId⟩),
    signedBy "b" (migrationId + 2) 1 [1] none
      (.migrationUpload migrationId 0 (b64 (companyBytes org))),
    signedBy "b" (migrationId + 3) 1 [1] none (.migrationReady migrationId)]

def finalizing (source : HostRef) (migrationId org : Uuid) : Command × Context :=
  let ready : Signed ReadyBody := ⟨⟨⟨"b", 0, 3600000⟩, migrationId, migrationId, org, 1, source,
    ⟨"b", 200⟩, org⟩, 200, 200⟩
  signedBy "b" (migrationId + 4) 1 [1] none (.migrationFinalize migrationId
    ⟨.commit ⟨⟨source.audience, 0, 3600000⟩, migrationId, migrationId, org, 1, source,
      ⟨"b", 200⟩, org, ready⟩, source.keyId, source.keyId⟩)

/-- Both companies are ready at host `b`, where the person 20 acts under the key 11. -/
def bothReady : List (Command × Context) :=
  [signedBy "b" 1 1 [1] none (.mutation (.personRegister [1])),
    signedBy "b" 2 20 [20, 11] none (.mutation (.personRegister [20, 11]))] ++
  readying ⟨"a", 100⟩ 30 1005 ++ readying ⟨"c", 300⟩ 40 1006

def finishRetired : Command × Context := finalizing ⟨"a", 100⟩ 30 1005

def finishCurrent : Command × Context := finalizing ⟨"c", 300⟩ 40 1006

omit [Primitives] [Reducers] in
/-- When the company whose copy of the person 10 retired the key is finalized first, no
holder is hidden: the person keeps that record. -/
theorem keys_unambiguous_sample :
    letI := twoSources
    letI := sampleReducers
    let path := pathOf (bothReady ++ [finishRetired, finishCurrent])
    (∀ turn ∈ path.1, KeysUnambiguous turn.state) ∧ KeysUnambiguous path.2 := by
  let := twoSources
  let := sampleReducers
  intro path
  have hrun : (runPath (bothReady ++ [finishRetired, finishCurrent])).toBool = true := by
    decide
  have hpath : Path path.1 path.2 := Path.of_pathOf hrun
  have hshown : ∀ turn ∈ path.1, ¬ Hides turn.state turn.command := by decide
  exact (keys_unambiguous_iff hpath).mpr hshown

omit [Primitives] [Reducers] in
/-- Finalized in the other order, the copy of the person 10 in the stage from host `a` hides
the person 20, and the key 11 becomes current for both. -/
theorem stages_share_current_key :
    letI := twoSources
    letI := sampleReducers
    ¬ ∀ s, Reachable s → KeysUnambiguous s := by
  let := twoSources
  let := sampleReducers
  intro h
  have hs : Reachable (finalState (run emptyState (bothReady ++ [finishCurrent]))) :=
    Reachable.finalState (by decide)
  generalize hfinal : finalState (run emptyState (bothReady ++ [finishCurrent])) = s at hs
  have hten : (s.persons.get? 10).any (fun p => decide (11 ∈ p.keys)) = true := by
    rw [← hfinal]
    decide
  have htwenty : (s.persons.get? 20).any (fun p => decide (11 ∈ p.keys)) = true := by
    rw [← hfinal]
    decide
  obtain ⟨p, hp, hten⟩ := (Option.any_eq_true _ _).mp hten
  obtain ⟨q, hq, htwenty⟩ := (Option.any_eq_true _ _).mp htwenty
  have hpacts : Acts s (.person 10) 11 := ⟨p, hp, of_decide_eq_true hten⟩
  have hqacts : Acts s (.person 20) 11 := ⟨q, hq, of_decide_eq_true htwenty⟩
  have hsame : (10 : Uuid) = 20 := Signatory.person.inj (h s hs hpacts hqacts)
  exact absurd hsame (by decide)

end DirectTrade
