import DirectTrade.Companies
import DirectTrade.Library.Delegation

/-!
Memberships among people who do not control the company. Along any run without a command
of a controller, no membership gains a permission or a lifetime that one membership with the
right to manage members, or one standing invitation, did not have at its start.
-/

namespace DirectTrade

open Library Library.Delegation

/-- What a membership or an invitation gives one person. -/
structure Mandate where
  personId : Uuid
  permissions : List Permission
  expiresAt : Instant

/-- A mandate is below another that has its permissions and lasts as long. -/
instance : Preorder Mandate where
  le a b := a.permissions ⊆ b.permissions ∧ a.expiresAt ≤ b.expiresAt
  le_refl a := ⟨fun _ h => h, le_refl a.expiresAt⟩
  le_trans _ _ _ h h' := ⟨fun _ hx => h'.1 (h.1 hx), le_trans h.2 h'.2⟩

/-- The mandate of a membership filed under a person. -/
def Membership.mandate (m : Membership) (personId : Uuid) : Mandate :=
  ⟨personId, m.permissions, m.expiresAt⟩

/-- An invitation that can still be accepted at some time after `since`. -/
def Invitation.standing (inv : Invitation) (since : Instant) : Prop :=
  inv.active = true ∧ inv.accepted = false ∧ since < inv.expiresAt

/-- The mandates of a company: its active memberships and its standing invitations. -/
def mandates (since : Instant) (o : Organization) : Rights Mandate where
  held := {a | ∃ (id : Uuid) (m : Membership), o.members[id]? = some m ∧ m.active = true ∧
    m.mandate id = a}
  offered := {a | ∃ (id : Uuid) (inv : Invitation), o.invitations[id]? = some inv ∧
    inv.standing since ∧ inv.mandate inv.personId = a}

/-- The mandates that let their holder invite after `since`. -/
def inviting (since : Instant) : Set Mandate :=
  {a | .membersManage ∈ a.permissions ∧ since < a.expiresAt}

theorem getElem?_consumeInvitations (invitations : Table Uuid Invitation) (personId id : Uuid) :
    (consumeInvitations invitations personId)[id]? = invitations[id]?.map fun inv =>
      if inv.personId = personId then { inv with accepted := true } else inv := by
  simp [consumeInvitations]

theorem getElem?_withdrawInvitations (invitations : Table Uuid Invitation) (personId id : Uuid) :
    (withdrawInvitations invitations personId)[id]? = invitations[id]?.map fun inv =>
      if inv.personId = personId then { inv with active := false } else inv := by
  simp [withdrawInvitations]

/-- An invitation that is open after some were consumed was open before. -/
theorem Invitation.standing.of_consumed {inv inv' : Invitation} {since : Instant} {personId : Uuid}
    (h : (if inv.personId = personId then { inv with accepted := true } else inv) = inv')
    (hstands : inv'.standing since) : inv = inv' := by
  split at h
  · subst h
    exact absurd hstands.2.1 (by simp)
  · exact h

theorem Invitation.standing.of_withdrawn {inv inv' : Invitation} {since : Instant} {personId : Uuid}
    (h : (if inv.personId = personId then { inv with active := false } else inv) = inv')
    (hstands : inv'.standing since) : inv = inv' := by
  split at h
  · subst h
    exact absurd hstands.1 (by simp)
  · exact h

theorem getElem?_deactivate {members : Table Uuid Membership} {personId id : Uuid}
    {m : Membership} (h : (deactivate members personId)[id]? = some m)
    (active : m.active = true) : members[id]? = some m := by
  simp only [deactivate, Std.ExtTreeMap.getElem?_modify] at h
  split at h
  · obtain ⟨old, -, rfl⟩ := Option.map_eq_some_iff.mp h
    simp at active
  · exact h

variable [Primitives]

/-- A person who controls the company signed the command as its actor. -/
def LedBy (o : Organization) (c : Command) : Prop :=
  c.actor.kind = .person ∧ c.actor.id ∈ o.controllers

omit [Primitives] in
/-- The membership that lets a person who is no controller manage members. -/
theorem Manages.membership {s : State} {o : Organization} {c : Command} {action : Permission}
    {ctx : Context} (h : Manages s o c action ctx) (apart : ¬ LedBy o c) :
    ∃ m, o.members[c.actor.id]? = some m ∧ m.active = true ∧ ctx.now < m.expiresAt ∧
      action ∈ m.permissions := by
  have hcontroller : c.actor.id ∉ o.controllers := fun hmem => apart ⟨h.person, hmem⟩
  have hactive := h.active
  have hpermitted := h.permitted.resolve_left hcontroller
  simp only [activeMember, hcontroller, decide_false, Bool.false_or, Bool.and_eq_true] at hactive
  obtain ⟨-, hactive⟩ := hactive
  cases hm : o.members[c.actor.id]? with
  | none => simp [Table.has, hm] at hactive
  | some m =>
    simp only [Table.has, hm, Option.any_some, Bool.and_eq_true, decide_eq_true_eq]
      at hactive hpermitted
    exact ⟨m, rfl, hactive.1, hactive.2, hpermitted⟩

theorem Call.CompanyChange.delegates {k : Call} {o o' : Organization} {m : Mutation}
    {result : Result} {since : Instant} (h : k.CompanyChange o m o' result)
    (clock : since ≤ k.ctx.now) (apart : ¬ LedBy o k.c) :
    Step (inviting since) (mandates since o) (mandates since o') := by
  cases h with
  | control controllers threshold control distinct bound consent =>
    exact absurd ⟨control.person, control.member⟩ apart
  | invite invitationId personId requested permissions expiresAt manages lifetime supported
      target covered absent =>
    refine ⟨fun a ha => .inl ha, ?_⟩
    rintro a ⟨id, inv, hinv, hstands, rfl⟩
    rw [Std.ExtTreeMap.getElem?_insert] at hinv
    split at hinv
    · obtain rfl := Option.some.inj hinv
      obtain ⟨m, hm, hactive, hlater, hmanage⟩ := manages.membership apart
      have hcontroller : k.c.actor.id ∉ o.controllers := fun hmem => apart ⟨manages.person, hmem⟩
      have hcovers := covered.resolve_left hcontroller
      simp only [covers, Table.has, hm, Option.any_some, Bool.and_eq_true, List.all_eq_true,
        decide_eq_true_eq] at hcovers
      exact .inr ⟨m.mandate k.c.actor.id, ⟨_, m, hm, hactive, rfl⟩,
        ⟨hmanage, lt_of_le_of_lt clock hlater⟩, hcovers.1, hcovers.2⟩
    · rw [getElem?_consumeInvitations] at hinv
      obtain ⟨old, hold, heq⟩ := Option.map_eq_some_iff.mp hinv
      obtain rfl := hstands.of_consumed heq
      exact .inl ⟨id, old, hold, hstands, rfl⟩
  | accept invitationId inv found person invitee live lifetime inviter manages covered
      unconsumed =>
    have hstands : inv.standing since := ⟨live, unconsumed, lt_of_le_of_lt clock lifetime⟩
    constructor
    · rintro a ⟨id, m, hm, hactive, rfl⟩
      rw [Std.ExtTreeMap.getElem?_insert] at hm
      split at hm
      · obtain rfl := Option.some.inj hm
        exact .inr ⟨_, ⟨invitationId, inv, found, hstands, rfl⟩, fun _ h => h, le_rfl⟩
      · exact .inl ⟨id, m, hm, hactive, rfl⟩
    · rintro a ⟨id, inv', hinv, hstands', rfl⟩
      rw [Std.ExtTreeMap.getElem?_insert] at hinv
      split at hinv
      · obtain rfl := Option.some.inj hinv
        exact absurd hstands'.2.1 (by simp)
      · exact .inl ⟨id, inv', hinv, hstands', rfl⟩
  | revoke personId manages target ordered =>
    constructor
    · rintro a ⟨id, m, hm, hactive, rfl⟩
      exact .inl ⟨id, m, getElem?_deactivate hm hactive, hactive, rfl⟩
    · rintro a ⟨id, inv, hinv, hstands, rfl⟩
      rw [getElem?_withdrawInvitations] at hinv
      obtain ⟨old, hold, heq⟩ := Option.map_eq_some_iff.mp hinv
      obtain rfl := hstands.of_withdrawn heq
      exact .inl ⟨id, old, hold, hstands, rfl⟩
  | install p release installs => exact ⟨fun a ha => .inl ha, fun a ha => .inl ha⟩
  | uninstall installationId manages found => exact ⟨fun a ha => .inl ha, fun a ha => .inl ha⟩

theorem CompanyStep.delegates {k : Call} {id : Uuid} {o o' : Organization} {since : Instant}
    (h : CompanyStep k id o o') (clock : since ≤ k.ctx.now)
    (apart : k.c.organizationId = some id → ¬ LedBy o k.c) :
    Step (inviting since) (mandates since o) (mandates since o') := by
  cases h with
  | same => exact ⟨fun a ha => .inl ha, fun a ha => .inl ha⟩
  | moved => exact ⟨fun a ha => .inl ha, fun a ha => .inl ha⟩
  | changed o'' m result named payload fresh inside change =>
    exact ⟨(change.delegates clock (apart named)).held,
      (change.delegates clock (apart named)).offered⟩

variable [Reducers]

/-- An accepted command, at a time from `since` on, that no controller of the company signed
for it as its actor. -/
def Unled (id : Uuid) (since : Instant) (s s' : State) : Prop :=
  ∃ c ctx result, execute s c ctx = .ok (s', result) ∧ since ≤ ctx.now ∧
    ∀ o, s.organizations.get? id = some o → c.organizationId = some id → ¬ LedBy o c

theorem Unled.delegates {s s' : State} {id : Uuid} {o : Organization} {since : Instant}
    (h : Unled id since s s') (reachable : Reachable s)
    (found : s.organizations.get? id = some o) :
    Reachable s' ∧ ∃ o', s'.organizations.get? id = some o' ∧
      Step (inviting since) (mandates since o) (mandates since o') := by
  obtain ⟨c, ctx, result, accepted, clock, apart⟩ := h
  refine ⟨reachable.step accepted, ?_⟩
  obtain ⟨signed, reply, haccepted, rfl, -⟩ := execute_eq_ok accepted
  obtain ⟨o', found', hstep⟩ := haccepted.companyStep reachable.keyed found
  exact ⟨o', found', hstep.delegates clock (apart o found)⟩

theorem Unled.run {s s' : State} {id : Uuid} {o : Organization} {since : Instant}
    (h : Relation.ReflTransGen (Unled id since) s s') (reachable : Reachable s)
    (found : s.organizations.get? id = some o) :
    Reachable s' ∧ ∃ o', s'.organizations.get? id = some o' ∧
      Relation.ReflTransGen (Step (inviting since)) (mandates since o) (mandates since o') := by
  induction h with
  | refl => exact ⟨reachable, o, found, .refl⟩
  | tail _ hstep ih =>
    obtain ⟨reachable', o', found', hrun⟩ := ih
    obtain ⟨reachable'', o'', found'', hnext⟩ := hstep.delegates reachable' found'
    exact ⟨reachable'', o'', found'', hrun.tail hnext⟩

/-- Without a controller, every active membership is one of the start, or is at most one
active membership of the start that managed members, or one invitation that stood then. -/
theorem delegation_never_amplifies {s s' : State} {id : Uuid} {o o' : Organization}
    {since : Instant} (reachable : Reachable s) (start : s.organizations.get? id = some o)
    (segment : Relation.ReflTransGen (Unled id since) s s')
    (finish : s'.organizations.get? id = some o') {person : Uuid} {m : Membership}
    (member : o'.members[person]? = some m) (active : m.active = true) :
    (∃ old, o.members[person]? = some old ∧ old.active = true ∧
      old.permissions = m.permissions ∧ old.expiresAt = m.expiresAt) ∨
    (∃ (inviter : Uuid) (held : Membership), o.members[inviter]? = some held ∧
      held.active = true ∧ since < held.expiresAt ∧ .membersManage ∈ held.permissions ∧
      m.permissions ⊆ held.permissions ∧ m.expiresAt ≤ held.expiresAt) ∨
    ∃ (invitation : Uuid) (inv : Invitation), o.invitations[invitation]? = some inv ∧
      inv.active = true ∧ inv.accepted = false ∧ since < inv.expiresAt ∧
      m.permissions ⊆ inv.permissions ∧ m.expiresAt ≤ inv.expiresAt := by
  obtain ⟨-, o'', found, hrun⟩ := Unled.run segment reachable start
  obtain rfl := Option.some.inj (finish.symm.trans found)
  rcases (Bounded.run hrun).held _ ⟨person, m, member, active, rfl⟩ with hheld | hcovers
  · obtain ⟨holder, old, hold, holds, heq⟩ := hheld
    simp only [Membership.mandate, Mandate.mk.injEq] at heq
    obtain ⟨rfl, hpermissions, hexpires⟩ := heq
    exact .inl ⟨old, hold, holds, hpermissions, hexpires⟩
  · rcases hcovers with ⟨-, ⟨inviter, held, found, hactive, rfl⟩, hinviting, hle⟩ |
      ⟨-, ⟨invitation, inv, found, hstands, rfl⟩, hle⟩
    · exact .inr (.inl ⟨inviter, held, found, hactive, hinviting.2, hinviting.1, hle.1, hle.2⟩)
    · exact .inr (.inr ⟨invitation, inv, found, hstands.1, hstands.2.1, hstands.2.2, hle.1,
        hle.2⟩)

/-- A command that a person signs with the key of the same number. -/
def sampleBy (person : Uuid) (requestId : Uuid) (org : Option Uuid) (m : Mutation) :
    Command × Context :=
  ({ sampleCommand "a" 0 requestId org (.mutation m) with
      actor := ⟨.person, person, person⟩, requestedBy := some person,
      signatures := [⟨person, 0⟩] },
    sampleContext "a" 0)

/-- The controller 1 lets the member 2 manage members. -/
def staffingCommands : List (Command × Context) :=
  [sampleBy 1 1 none (.personRegister [1]), sampleBy 2 2 none (.personRegister [2]),
    sampleBy 3 3 none (.personRegister [3]),
    sampleBy 1 4 (some 1005) (.organizationCreate "acme" 5 [1] 1),
    sampleBy 1 5 (some 1005)
      (.membershipInvite 51 2 [.membersManage, .policiesCreate] 1000000),
    sampleBy 2 6 (some 1005) (.membershipAccept 51)]

/-- The member 2 brings in the member 3. -/
def sampleInvite : Command × Context :=
  sampleBy 2 7 (some 1005) (.membershipInvite 52 3 [.policiesCreate] 900000)

def sampleAccept : Command × Context := sampleBy 3 8 (some 1005) (.membershipAccept 52)

omit [Primitives] [Reducers] in
/-- The member 3 has no more than the member 2, who invited it, had at the start. -/
theorem delegation_never_amplifies_sample :
    letI := samplePrimitives none
    letI := sampleReducers
    let s := finalState (run emptyState staffingCommands)
    ∃ o o', s.organizations.get? 1005 = some o ∧
      (after (after s sampleInvite).1 sampleAccept).1.organizations.get? 1005 = some o' ∧
      ∃ m, o'.members[3]? = some m ∧ m.active = true ∧
        ∃ (inviter : Uuid) (held : Membership), o.members[inviter]? = some held ∧
          held.active = true ∧ 0 < held.expiresAt ∧ .membersManage ∈ held.permissions ∧
          m.permissions ⊆ held.permissions ∧ m.expiresAt ≤ held.expiresAt := by
  let := samplePrimitives none
  let := sampleReducers
  intro s
  have hs : Reachable s := Reachable.finalState (by decide)
  have hinvite := execute_after s sampleInvite (by decide)
  have haccept := execute_after (after s sampleInvite).1 sampleAccept (by decide)
  have hsegment : Relation.ReflTransGen (Unled 1005 0) s
      (after (after s sampleInvite).1 sampleAccept).1 := by
    refine .tail (.single ⟨_, _, _, hinvite, by decide, fun o ho _ hled => ?_⟩)
      ⟨_, _, _, haccept, by decide, fun o ho _ hled => ?_⟩
    · have hcontrollers : (s.organizations.get? 1005).all (fun o => 2 ∉ o.controllers) = true := by
        decide
      exact of_decide_eq_true ((Option.all_eq_true _ _).mp hcontrollers o ho) hled.2
    · have hcontrollers : ((after s sampleInvite).1.organizations.get? 1005).all
          (fun o => 3 ∉ o.controllers) = true := by
        decide
      exact of_decide_eq_true ((Option.all_eq_true _ _).mp hcontrollers o ho) hled.2
  have hstart : (s.organizations.get? 1005).any (fun o => o.members[3]? = none &&
      o.invitations.toList.all fun entry => entry.2.accepted) = true := by decide
  have hfinish : ((after (after s sampleInvite).1 sampleAccept).1.organizations.get? 1005).any
      (fun o => o.members.has 3 fun m => m.active) = true := by decide
  obtain ⟨o, ho, hnone⟩ := (Option.any_eq_true _ _).mp hstart
  obtain ⟨o', ho', hmember⟩ := (Option.any_eq_true _ _).mp hfinish
  obtain ⟨m, hm, hactive⟩ := (Option.any_eq_true _ _).mp hmember
  simp only [Bool.and_eq_true, decide_eq_true_eq, List.all_eq_true] at hnone
  refine ⟨o, o', ho, ho', m, hm, hactive, ?_⟩
  rcases delegation_never_amplifies hs ho hsegment ho' hm hactive with
    ⟨old, hold, -⟩ | hheld | ⟨id, inv, hinv, -, hopen, -⟩
  · simp [hnone.1] at hold
  · exact hheld
  · have hconsumed := hnone.2 (id, inv)
      (Std.ExtTreeMap.mem_toList_iff_getElem?_eq_some.mpr hinv)
    simp [hopen] at hconsumed

end DirectTrade
