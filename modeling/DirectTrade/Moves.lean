import DirectTrade.Compartments
import DirectTrade.KeyOwnership
import DirectTrade.Network

/-!
What becomes of a company that moves. Its source keeps it as it was when it was committed,
whatever commands follow; its destination takes over all of it, so that no update is lost.
-/

namespace DirectTrade

open Library

/-- A company and all that a host keeps for it, the same in two states. -/
structure Untouched (s t : State) (o : Uuid) : Prop where
  company : t.organizations.get? o = s.organizations.get? o
  policies : t.policies.values.filter (·.organizationId = o) =
    s.policies.values.filter (·.organizationId = o)
  records : t.records.values.filter (·.organizationId = o) =
    s.records.values.filter (·.organizationId = o)
  inventory : t.inventory.get? o = s.inventory.get? o

theorem Untouched.refl (s : State) (o : Uuid) : Untouched s s o := ⟨rfl, rfl, rfl, rfl⟩

theorem Untouched.trans {s t u : State} {o : Uuid} (h : Untouched s t o) (h' : Untouched t u o) :
    Untouched s u o :=
  ⟨h'.company.trans h.company, h'.policies.trans h.policies, h'.records.trans h.records,
    h'.inventory.trans h.inventory⟩

/-- The stock of another company. -/
theorem Untouched.setInventory {s : State} {o id : Uuid} (company : Inventory) (h : o ≠ id) :
    Untouched s (s.setInventory id company) o :=
  ⟨rfl, rfl, rfl, Dict.get?_set_of_ne _ _ h⟩

/-- A record of another company. -/
theorem Untouched.insertRecord {s : State} {o org : Uuid} {r : BusinessRecord}
    (h : Appendable s org r) (hne : org ≠ o) : Untouched s (Call.insertRecord s org r) o where
  company := rfl
  policies := rfl
  inventory := rfl
  records := by
    have hr : decide (r.organizationId = o) = false := by
      rw [h.organization]
      exact decide_eq_false hne
    have hretire : (Call.retire s.records r.supersedes).values.filter
        (·.organizationId = o) = s.records.values.filter (·.organizationId = o) := by
      unfold Call.retire
      split
      next => rfl
      next p hp =>
        apply Dict.filter_values_modify
        intro u hu
        obtain ⟨b, hb, hroot, -⟩ := h.linked p hp
        obtain rfl := Option.some.inj (hu.symm.trans hb)
        have hu : u.organizationId ≠ o := by
          rw [hroot.organization, h.organization]
          exact hne
        exact ⟨decide_eq_false hu, decide_eq_false hu⟩
    refine Eq.trans ?_ hretire
    refine Dict.filter_values_set ?_ ?_
    · exact hr
    intro u hu
    have habsent : (Call.retire s.records r.supersedes).get? r.id = none := by
      unfold Call.retire
      split
      · exact h.absent
      · rw [Dict.get?_modify]
        split
        next heq => rw [← heq, h.absent, Option.map_none]
        next => exact h.absent
    rw [habsent] at hu
    cases hu

/-- A snapshot brings the stock of its own company, if any. -/
theorem get?_takeOver_inventory (s : State) (snap : Snapshot) (o : Uuid) :
    (takeOver s snap).inventory.get? o =
      if o = snap.organization.id then
        (snap.inventory[snap.organization.id]?).or (s.inventory.get? o)
      else s.inventory.get? o := by
  unfold takeOver
  simp only
  split
  next hnone => simp [hnone]
  next company hsome => simp [hsome, Dict.get?_set]

section

variable [Primitives] [Reducers]

/-- A company that the host does not have arrives. -/
theorem Untouched.takeOver {s : State} {o : Uuid} {snap : Snapshot}
    (valid : validateSnapshot s snap = .ok ()) (hne : o ≠ snap.organization.id) :
    Untouched s (takeOver s snap) o := by
  obtain ⟨replay, claimed, policyIds, opened, hvalid⟩ :=
    (validateSnapshot_eq_ok s snap ()).mp valid
  have hcarried := validateRecords_carried hvalid.records
  have hpolicies := validatePolicies_carried hvalid.policies
  have hother : ∀ id, id = snap.organization.id → decide (id = o) = false := by
    intro id hid
    rw [hid]
    exact decide_eq_false (Ne.symm hne)
  refine ⟨Dict.get?_set_of_ne _ _ hne, ?_, ?_, ?_⟩
  · apply Dict.filter_values_foldl_set Policy.id
    · intro pol hpol
      exact hother _ (hpolicies pol hpol).1
    · intro pol hpol u hu
      have habsent := policy_absent (hpolicies pol hpol).2
      exact absurd (habsent.symm.trans hu) (by simp)
  · apply Dict.filter_values_foldl_set fun r : BusinessRecord => r.id
    · intro r hr
      obtain ⟨i, hi⟩ := List.mem_iff_getElem?.mp hr
      rw [getElem?_renumber] at hi
      obtain ⟨old, hold, rfl⟩ := Option.map_eq_some_iff.mp hi
      exact hother _ (hcarried.organization old (List.mem_of_getElem? hold))
    · intro r hr u hu
      obtain ⟨i, hi⟩ := List.mem_iff_getElem?.mp hr
      rw [getElem?_renumber] at hi
      obtain ⟨old, hold, rfl⟩ := Option.map_eq_some_iff.mp hi
      have habsent := record_absent (hcarried.absent old (List.mem_of_getElem? hold))
      exact absurd (habsent.symm.trans hu) (by simp)
  · rw [get?_takeOver_inventory, if_neg hne]

variable {s : State} {c : Command} {ctx : Context} {signed : List KeyId} {reply : Reply}

omit [Primitives] [Reducers] in
/-- A command runs in an active company, so in none that has moved. -/
theorem Call.Inside.ne_moved (keyed : Keyed s) {o : Organization}
    (inside : (callOf s c ctx signed).Inside o) {id : Uuid} {org : Organization}
    (found : s.organizations.get? id = some org) (moved : org.status = .migrated) :
    o.id ≠ id := by
  intro hid
  obtain ⟨org', -, horg'⟩ := inside.named
  have hname : o.id = org' := keyed.organizations org' o horg'
  rw [← hname, hid, found] at horg'
  obtain rfl := Option.some.inj horg'
  exact absurd (moved.symm.trans inside.active) (by simp)

/-- No accepted command touches a company that has moved. -/
theorem Accepted.untouched (h : Accepted s c ctx signed reply) (keyed : Keyed s) {id : Uuid}
    {org : Organization} (found : s.organizations.get? id = some org)
    (moved : org.status = .migrated) : Untouched s (reply.next c) id := by
  have hcompany : (reply.next c).organizations.get? id = s.organizations.get? id := by
    obtain ⟨org', hnext, hstep⟩ := h.companyStep keyed found
    rw [hnext, found]
    cases hstep with
    | same => rfl
    | changed o' m result named payload fresh inside change =>
      exact absurd (moved.symm.trans inside.active) (by simp)
    | moved =>
      rw [← moved]
  have hkept : (∃ organizations, reply.next c = { s with organizations := organizations }) →
      Untouched s (reply.next c) id := by
    intro hsame
    obtain ⟨organizations, heq⟩ := hsame
    rw [heq] at hcompany ⊢
    exact ⟨hcompany, rfl, rfl, rfl⟩
  have hset : ∀ {o : Organization} (company : Inventory), (callOf s c ctx signed).Inside o →
      Untouched s (s.setInventory o.id company) id := by
    intro o company inside
    exact .setInventory company (Ne.symm (inside.ne_moved keyed found moved))
  cases h.effect with
  | found orgId name nonce controllers threshold payload founds =>
    exact hkept (pushHistory_setOrg (callOf s c ctx signed) _ c)
  | company o o' m result payload fresh inside change =>
    exact hkept (pushHistory_setOrg (callOf s c ctx signed) _ c)
  | revise o create p payload revises =>
    have hne : o.id ≠ id := revises.inside.ne_moved keyed found moved
    refine ⟨hcompany, ?_, rfl, rfl⟩
    refine Dict.filter_values_set ?_ ?_
    · exact decide_eq_false hne
    intro u hu
    have hauthorized := revises.authorized
    cases create with
    | true => exact absurd (hu.symm.trans hauthorized.2) (by simp)
    | false =>
      obtain ⟨old, hold, hown, -⟩ := hauthorized
      obtain rfl := Option.some.inj (hu.symm.trans hold)
      apply decide_eq_false
      rw [hown]
      exact hne
  | append o p profile before t company validation payload appends assessed =>
    obtain rfl : s = t := (counterparties_eq keyed.remoteAuthorities appends.attested).symm
    have hne : o.id ≠ id := appends.inside.ne_moved keyed found moved
    obtain ⟨org', -, horg'⟩ := appends.inside.named
    have hname : o.id = org' := keyed.organizations org' o horg'
    have happendable := appends.appendable validation (by
      rw [hname]
      exact Option.isSome_of_eq_some horg')
    have hrecord := Untouched.insertRecord happendable hne
    cases company with
    | none => exact ⟨hcompany, hrecord.policies, hrecord.records, hrecord.inventory⟩
    | some company =>
      exact ⟨hcompany, hrecord.policies, hrecord.records, (hset company appends.inside).inventory⟩
  | duplicate o p profile before t company recordId recorded payload appends assessed known =>
    obtain rfl : s = t := (counterparties_eq keyed.remoteAuthorities appends.attested).symm
    exact hset company appends.inside
  | replayStock o m receipt payload opens inside previous => exact hset _ inside
  | stock o m company result payload fresh inside change => exact hset company inside
  | finalize migrationId token stage ready body snapshot payload stages binds inactive held
      absent digest valid activates =>
    have hne : id ≠ snapshot.organization.id := by
      intro hid
      rw [hid] at found
      exact absurd ((takeOver_absent valid).symm.trans found) (by simp)
    have htaken := Untouched.takeOver valid hne
    exact ⟨hcompany, htaken.policies, htaken.records, htaken.inventory⟩
  | _ => exact ⟨hcompany, rfl, rfl, rfl⟩

theorem execute_untouched {s' : State} {result : Option Result} (keyed : Keyed s)
    (accepted : execute s c ctx = .ok (s', result)) {id : Uuid} {org : Organization}
    (found : s.organizations.get? id = some org) (moved : org.status = .migrated) :
    Untouched s s' id := by
  obtain ⟨signed, reply, haccepted, rfl, -⟩ := execute_eq_ok accepted
  have hnext := haccepted.untouched keyed found moved
  exact ⟨hnext.company, hnext.policies, hnext.records, hnext.inventory⟩

/-- Once a company has moved away, no run of its old host changes the company, its policies,
its records or its stock there. -/
theorem moved_company_frozen (hs : Reachable s) {id : Uuid} {org : Organization}
    (found : s.organizations.get? id = some org) (moved : org.status = .migrated)
    {commands : List (Command × Context)} {s' : State} (h : run s commands = .ok s') :
    Untouched s s' id := by
  have hinv : Reachable s' ∧ Untouched s s' id := by
    refine Outcome.foldlM_invariant (fun t => Reachable t ∧ Untouched s t id) _ commands ?_
      ⟨hs, .refl s id⟩ h
    intro entry _ t t' ht hstep
    simp only [Outcome.bind_eq_ok, Outcome.pure_eq_ok] at hstep
    obtain ⟨⟨_, result⟩, hexecute, rfl⟩ := hstep
    have hfound := ht.2.company.trans found
    exact ⟨ht.1.step hexecute, ht.2.trans (execute_untouched ht.1.keyed hexecute hfound moved)⟩
  exact hinv.2

structure Housed (s : State) : Prop where
  policies : ∀ id p, s.policies.get? id = some p →
    (s.organizations.get? p.organizationId).isSome = true
  inventory : ∀ o a, s.inventory.get? o = some a → (s.organizations.get? o).isSome = true

omit [Primitives] [Reducers] in
theorem housed_empty : Housed emptyState := by
  constructor <;> simp [emptyState]

theorem Housed.next (housed : Housed s) (keyed : Keyed s)
    (h : Accepted s c ctx signed reply) : Housed (reply.next c) := by
  have stay : ∀ id, (s.organizations.get? id).isSome = true →
      ((reply.next c).organizations.get? id).isSome = true := by
    intro id hid
    obtain ⟨org, horg⟩ := Option.isSome_iff_exists.mp hid
    obtain ⟨org', horg', -⟩ := (h.keeps keyed).organizations id org horg
    exact Option.isSome_of_eq_some horg'
  have hinside : ∀ {o : Organization}, (callOf s c ctx signed).Inside o →
      (s.organizations.get? o.id).isSome = true := by
    intro o inside
    obtain ⟨org, -, horg⟩ := inside.named
    have hname : o.id = org := keyed.organizations org o horg
    rw [hname]
    exact Option.isSome_of_eq_some horg
  have hpolicies : (reply.next c).policies = s.policies → ∀ id p,
      (reply.next c).policies.get? id = some p →
      ((reply.next c).organizations.get? p.organizationId).isSome = true := by
    intro heq id p hp
    rw [heq] at hp
    exact stay _ (housed.policies id p hp)
  have hinventory : (reply.next c).inventory = s.inventory → ∀ o a,
      (reply.next c).inventory.get? o = some a →
      ((reply.next c).organizations.get? o).isSome = true := by
    intro heq o a ha
    rw [heq] at ha
    exact stay _ (housed.inventory o a ha)
  have hstock : ∀ {o : Organization} {company : Inventory},
      (callOf s c ctx signed).Inside o →
      (reply.next c).inventory = s.inventory.set o.id company → ∀ id a,
      (reply.next c).inventory.get? id = some a →
      ((reply.next c).organizations.get? id).isSome = true := by
    intro o company inside heq id a ha
    rw [heq, Dict.get?_set] at ha
    split at ha
    next hid =>
      rw [hid]
      exact stay _ (hinside inside)
    next => exact stay _ (housed.inventory id a ha)
  have hkept : (∃ organizations, reply.next c = { s with organizations := organizations }) →
      Housed (reply.next c) := by
    intro hsame
    obtain ⟨organizations, heq⟩ := hsame
    have hp : (reply.next c).policies = s.policies := by rw [heq]
    have hi : (reply.next c).inventory = s.inventory := by rw [heq]
    exact ⟨hpolicies hp, hinventory hi⟩
  cases h.effect with
  | found orgId name nonce controllers threshold payload founds =>
    exact hkept (pushHistory_setOrg (callOf s c ctx signed) _ c)
  | company o o' m result payload fresh inside change =>
    exact hkept (pushHistory_setOrg (callOf s c ctx signed) _ c)
  | revise o create p payload revises =>
    refine ⟨?_, hinventory rfl⟩
    intro id pol hpol
    have hpol : (s.policies.set p.policyId ((callOf s c ctx signed).revised o create p)).get? id =
        some pol := hpol
    rw [Dict.get?_set] at hpol
    split at hpol
    · obtain rfl := Option.some.inj hpol
      exact stay _ (hinside revises.inside)
    · exact stay _ (housed.policies id pol hpol)
  | append o p profile before t company validation payload appends assessed =>
    obtain rfl : s = t := (counterparties_eq keyed.remoteAuthorities appends.attested).symm
    cases company with
    | none => exact ⟨hpolicies rfl, hinventory rfl⟩
    | some company => exact ⟨hpolicies rfl, hstock appends.inside rfl⟩
  | duplicate o p profile before t company recordId recorded payload appends assessed known =>
    obtain rfl : s = t := (counterparties_eq keyed.remoteAuthorities appends.attested).symm
    exact ⟨hpolicies rfl, hstock appends.inside rfl⟩
  | replayStock o m receipt payload opens inside previous =>
    exact ⟨hpolicies rfl, hstock inside rfl⟩
  | stock o m company result payload fresh inside change =>
    exact ⟨hpolicies rfl, hstock inside rfl⟩
  | finalize migrationId token stage ready body snapshot payload stages binds inactive held
      absent digest valid activates =>
    obtain ⟨replay, claimed, policyIds, opened, hvalid⟩ :=
      (validateSnapshot_eq_ok s snapshot ()).mp valid
    have hactivated : ((takeOver s snapshot).organizations.get?
        snapshot.organization.id).isSome = true :=
      Option.isSome_of_eq_some (Dict.get?_set_self ..)
    constructor
    · intro id pol hpol
      have hpol : (takeOver s snapshot).policies.get? id = some pol := hpol
      rw [get?_takeOver_policies] at hpol
      cases Option.or_eq_some_iff.mp hpol with
      | inl hnew =>
        have hmem := List.mem_reverse.mp (List.mem_of_find?_eq_some hnew)
        rw [(validatePolicies_carried hvalid.policies pol hmem).1]
        exact hactivated
      | inr hold => exact stay _ (housed.policies id pol hold.2)
    · intro o a ha
      have ha : (takeOver s snapshot).inventory.get? o = some a := ha
      rw [get?_takeOver_inventory] at ha
      split at ha
      next ho =>
        rw [ho]
        exact hactivated
      next => exact stay _ (housed.inventory o a ha)
  | _ => exact ⟨hpolicies rfl, hinventory rfl⟩

theorem Reachable.housed {s : State} (h : Reachable s) : Housed s := by
  have hboth := h.invariant (P := fun s => Keyed s ∧ Housed s) ⟨keyed_empty, housed_empty⟩
    (fun s receipts hs => ⟨{ hs.1 with }, ⟨hs.2.policies, hs.2.inventory⟩⟩)
    (fun s c ctx signed reply hs haccepted => ⟨hs.1.next haccepted, hs.2.next hs.1 haccepted⟩)
  exact hboth.2

/-- The snapshot that a host froze a company with. -/
structure Exported (s : State) (o : Uuid) (snap : Snapshot) : Prop where
  id : snap.organization.id = o
  company : s.organizations.get? o = some { snap.organization with status := .migrated }
  policies : snap.policies = s.policies.values.filter (·.organizationId = o)
  records : snap.records = snapshotRecords s o
  inventory : snap.inventory[o]? = s.inventory.get? o

omit [Primitives] [Reducers] in
theorem Exported.untouched {t : State} {o : Uuid} {snap : Snapshot} (h : Exported s o snap)
    (same : Untouched s t o) : Exported t o snap where
  id := h.id
  company := same.company.trans h.company
  policies := h.policies.trans same.policies.symm
  records := by
    rw [h.records]
    unfold snapshotRecords
    rw [same.records]
  inventory := h.inventory.trans same.inventory.symm

omit [Primitives] [Reducers] in
theorem buildSnapshot_parts {o : Uuid} {snap : Snapshot} (h : buildSnapshot s o ctx = .ok snap) :
    s.organizations.get? o = some snap.organization ∧
      snap.policies = s.policies.values.filter (·.organizationId = o) ∧
      snap.records = snapshotRecords s o ∧ snap.inventory[o]? = s.inventory.get? o := by
  simp only [buildSnapshot, Outcome.bind_eq_ok, require_eq_ok, Outcome.pure_eq_ok] at h
  obtain ⟨org, horg, releases, -, ids, -, profiles, -, persons, -, rfl⟩ := h
  refine ⟨horg, rfl, rfl, ?_⟩
  cases hinventory : s.inventory.get? o with
  | none => simp
  | some company => simp

/-- A committed migration binds the digest of the company as its source froze it. -/
def Carries (s : State) : Prop :=
  ∀ id out tok, Committed s id out tok → ∃ snap, Exported s out.manifest.organizationId snap ∧
    Primitives.digestSnapshot snap = out.manifest.snapshotHash

theorem Carries.next {hosts : Set HostRef} {host : HostRef} (hs : Carries s) (keyed : Keyed s)
    (handover : Handover hosts host s) (h : Accepted s c ctx signed reply) :
    Carries (reply.next c) := by
  have hold : ∀ {id out tok}, Committed s id out tok → ∃ snap,
      Exported (reply.next c) out.manifest.organizationId snap ∧
      Primitives.digestSnapshot snap = out.manifest.snapshotHash := by
    intro id out tok hc
    obtain ⟨org, horg, hmoved, -⟩ := handover.frozen id out tok hc
    obtain ⟨snap, hexported, hdigest⟩ := hs id out tok hc
    exact ⟨snap, hexported.untouched (h.untouched keyed horg hmoved), hdigest⟩
  intro id out tok hc
  cases h.outgoingStep keyed with
  | same outgoing companies => exact hold ⟨outgoing ▸ hc.found, hc.token⟩
  | prepare org snapshot destination absent pinned outgoing companies =>
    rcases hc.cases outgoing with ⟨-, -, hnew⟩ | ⟨-, hc⟩
    · cases hnew
    · exact hold hc
  | cancel migrationId out' o owns uncommitted outgoing companies =>
    rcases hc.cases outgoing with ⟨-, -, hnew⟩ | ⟨-, hc⟩
    · exact absurd (uncommitted.symm.trans hnew) (by simp)
    · exact hold hc
  | commit o migrationId ready snapshot out' org body commits outgoing companies tables =>
    rcases hc.cases outgoing with ⟨-, rfl, -⟩ | ⟨-, hc⟩
    · refine ⟨snapshot, ?_, commits.unchanged⟩
      obtain ⟨hpolicies, hrecords, hinventory⟩ := tables
      obtain ⟨horg, hparts⟩ := buildSnapshot_parts commits.built
      rw [← commits.own] at horg hparts
      have hcompany : s.organizations.get? out'.manifest.organizationId = some org :=
        commits.company
      obtain rfl := Option.some.inj (hcompany.symm.trans horg)
      refine ⟨keyed.organizations _ _ hcompany, ?_, ?_, ?_, ?_⟩
      · rw [companies]
        exact Dict.get?_set_self ..
      · rw [hpolicies]
        exact hparts.1
      · unfold snapshotRecords
        rw [hrecords]
        exact hparts.2.1
      · rw [hinventory]
        exact hparts.2.2
    · exact hold hc

omit [Primitives] [Reducers] in
theorem renumber_renumber (start : ℕ) (l : List BusinessRecord) :
    renumber start (renumber start l) = renumber start l := by
  induction l generalizing start with
  | nil => rfl
  | cons r rest ih => simp [renumber, ih]

omit [Primitives] [Reducers] in
theorem pairwise_renumber (start : ℕ) (l : List BusinessRecord) :
    (renumber start l).Pairwise (·.seq ≤ ·.seq) := by
  rw [List.pairwise_iff_getElem]
  intro i j hi hj hij
  have hfirst := List.getElem?_eq_getElem hi
  have hsecond := List.getElem?_eq_getElem hj
  rw [getElem?_renumber] at hfirst hsecond
  obtain ⟨a, -, ha⟩ := Option.map_eq_some_iff.mp hfirst
  obtain ⟨b, -, hb⟩ := Option.map_eq_some_iff.mp hsecond
  rw [← ha, ← hb]
  show start + i ≤ start + j
  omega

/-- What a destination has of a company once it took over a snapshot of it. -/
theorem takeOver_holds (housed : Housed s) (chained : Chained s) {snap : Snapshot}
    (valid : validateSnapshot s snap = .ok ()) (distinct : (snap.policies.map Policy.id).Nodup) :
    (takeOver s snap).policies.values.filter (·.organizationId = snap.organization.id) =
        snap.policies ∧
      snapshotRecords (takeOver s snap) snap.organization.id = renumber 1 snap.records ∧
      (takeOver s snap).inventory.get? snap.organization.id =
        snap.inventory[snap.organization.id]? := by
  have habsent := takeOver_absent valid
  obtain ⟨replay, claimed, policyIds, opened, hvalid⟩ :=
    (validateSnapshot_eq_ok s snap ()).mp valid
  have hcarried := validateRecords_carried hvalid.records
  have hpolicies := validatePolicies_carried hvalid.policies
  refine ⟨?_, ?_, ?_⟩
  · have hvalues : (takeOver s snap).policies.values = s.policies.values ++ snap.policies :=
      Dict.values_foldl_set distinct fun pol hpol => policy_absent (hpolicies pol hpol).2
    have hold : s.policies.values.filter (·.organizationId = snap.organization.id) = [] := by
      rw [List.filter_eq_nil_iff]
      intro pol hpol horg
      obtain ⟨id, hid⟩ := (Dict.mem_values_iff _ _).mp hpol
      have hsome := housed.policies id pol hid
      rw [of_decide_eq_true horg, habsent] at hsome
      cases hsome
    rw [hvalues, List.filter_append, hold, List.nil_append, List.filter_eq_self]
    intro pol hpol
    exact decide_eq_true (hpolicies pol hpol).1
  · have hnodup : ((renumber 1 snap.records).map (·.id)).Nodup := by
      rw [map_id_renumber]
      exact hcarried.nodup
    have hmem : ∀ r ∈ renumber 1 snap.records, ∃ old ∈ snap.records, r.id = old.id ∧
        r.organizationId = old.organizationId := by
      intro r hr
      obtain ⟨i, hi⟩ := List.mem_iff_getElem?.mp hr
      rw [getElem?_renumber] at hi
      obtain ⟨old, hold, rfl⟩ := Option.map_eq_some_iff.mp hi
      exact ⟨old, List.mem_of_getElem? hold, rfl, rfl⟩
    have hvalues : (takeOver s snap).records.values =
        s.records.values ++ renumber 1 snap.records := by
      apply Dict.values_foldl_set hnodup
      intro r hr
      obtain ⟨old, hold, hid, -⟩ := hmem r hr
      rw [hid]
      exact record_absent (hcarried.absent old hold)
    have hold : s.records.values.filter (·.organizationId = snap.organization.id) = [] := by
      rw [List.filter_eq_nil_iff]
      intro r hr horg
      obtain ⟨id, hid⟩ := (Dict.mem_values_iff _ _).mp hr
      have hsome := chained.company id r hid
      rw [of_decide_eq_true horg, habsent] at hsome
      cases hsome
    have hnew : (renumber 1 snap.records).filter
        (·.organizationId = snap.organization.id) = renumber 1 snap.records := by
      rw [List.filter_eq_self]
      intro r hr
      obtain ⟨old, hold, -, horg⟩ := hmem r hr
      exact decide_eq_true (horg.trans (hcarried.organization old hold))
    unfold snapshotRecords
    rw [hvalues, List.filter_append, hold, List.nil_append, hnew,
      (pairwise_renumber 1 snap.records).insertionSort_eq, renumber_renumber]
  · have hnone : s.inventory.get? snap.organization.id = none := by
      cases hinventory : s.inventory.get? snap.organization.id with
      | none => rfl
      | some company =>
        have hsome := housed.inventory _ company hinventory
        rw [habsent] at hsome
        cases hsome
    rw [get?_takeOver_inventory, if_pos rfl, hnone, Option.or_none]

theorem Network.Reached.carries {hosts : Set HostRef} {home : Uuid → HostRef} {w : Network}
    (hosted : Function.Injective Primitives.digestHost) (hw : Network.Reached hosts home w)
    (a : HostRef) : Carries (w.state a) := by
  induction hw with
  | start =>
    intro id out tok hc
    have hnone : emptyState.outgoing.get? id = none := by simp [emptyState]
    exact absurd (hnone.symm.trans hc.found) (by simp)
  | @turn w h c ctx s result before honest accepted ih =>
    show Carries (Function.update w.state h s a)
    by_cases ha : a = h
    · subst ha
      rw [Function.update_self]
      obtain ⟨signed, reply, haccepted, rfl, -⟩ := execute_eq_ok accepted
      have hnext := ih.next (before.reachable a).keyed ((before.sound hosted).handover a) haccepted
      intro id out tok hc
      obtain ⟨snap, hexported, hdigest⟩ := hnext id out tok ⟨hc.found, hc.token⟩
      exact ⟨snap, hexported.untouched ⟨rfl, rfl, rfl, rfl⟩, hdigest⟩
    · rw [Function.update_of_ne ha]
      exact ih

/-- One host has all that another one still keeps of a company: the company itself in the next
generation, active and without live installations, the same policies and stock, and the same
records in the same order. -/
structure Delivered (s t : State) (o : Uuid) : Prop where
  company : ∃ org, s.organizations.get? o = some org ∧ org.status = .migrated ∧
    t.organizations.get? o = some (activated org)
  policies : t.policies.values.filter (·.organizationId = o) =
    s.policies.values.filter (·.organizationId = o)
  records : snapshotRecords t o = snapshotRecords s o
  inventory : t.inventory.get? o = s.inventory.get? o

theorem Exported.delivered {t : State} {o : Uuid} {snap : Snapshot} (h : Exported t o snap)
    (keyed : Keyed t) (housed : Housed s) (chained : Chained s)
    (valid : validateSnapshot s snap = .ok ()) : Delivered t (takeOver s snap) o := by
  have hid := h.id
  subst hid
  have hdistinct : (snap.policies.map Policy.id).Nodup := by
    rw [h.policies]
    exact (List.filter_sublist.map Policy.id).nodup keyed.policies.nodup
  obtain ⟨hpolicies, hrecords, hinventory⟩ := takeOver_holds housed chained valid hdistinct
  refine ⟨⟨_, h.company, rfl, Dict.get?_set_self ..⟩, ?_, ?_, ?_⟩
  · rw [hpolicies, h.policies]
  · rw [hrecords, h.records]
    exact renumber_renumber 1 _
  · rw [hinventory, h.inventory]

end

theorem reached_committedNetwork :
    @Network.Reached networkPrimitives sampleReducers {hostA, hostB} (fun _ => hostA)
      committedNetwork := by
  exact reached_twoHosts (by decide)

/-- Later commands at the old host: the company's commit once more, the receipt of its move,
another key for its controller, and another company of the same controller. -/
def laterCommands : List (Command × Context) :=
  [sampleCommand "a" 0 5 (some 1005) (.migrationCommit 4 (movedReady.map .ready)),
    sampleCommand "a" 0 7 (some 1005) (.migrationReceipt 4),
    { sampleCommand "a" 0 8 none (.mutation (.personRotate [3] [])) with
      signatures := [⟨1, 0⟩, ⟨3, 0⟩] },
    sampleCommand "a" 0 9 (some 1006) (.mutation (.organizationCreate "other" 6 [1] 1))].map
    fun c => (c, sampleContext "a" 0)

def laterState : State :=
  letI := networkPrimitives
  letI := sampleReducers
  Outcome.value emptyState (run (committedNetwork.state hostA) laterCommands)

theorem moved_company_frozen_sample :
    (laterState.organizations.get? 1006).isSome = true ∧
      (laterState.persons.get? 1).map Person.keys = some [1, 3] ∧
      Untouched (committedNetwork.state hostA) laterState 1005 := by
  let := networkPrimitives
  let := sampleReducers
  have hmoved : ((committedNetwork.state hostA).organizations.get? 1005).any
      (fun x => decide (x.status = .migrated)) = true := by decide
  obtain ⟨x, hx, hstatus⟩ := (Option.any_eq_true _ _).mp hmoved
  have hrun : run (committedNetwork.state hostA) laterCommands = .ok laterState :=
    Outcome.eq_value emptyState (by decide)
  refine ⟨by decide, by decide, ?_⟩
  exact moved_company_frozen (reached_committedNetwork.reachable hostA) hx
    (of_decide_eq_true hstatus) hrun

end DirectTrade
