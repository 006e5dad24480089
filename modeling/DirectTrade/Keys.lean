import DirectTrade.Run

/-!
Every table of a reachable state files a value under the identifier that it carries.
-/

namespace DirectTrade

open Library

structure Keyed (s : State) : Prop where
  persons : s.persons.Named Person.id
  organizations : s.organizations.Named Organization.id
  policies : s.policies.Named Policy.id
  profiles : s.profiles.Named Profile.digest
  releases : s.releases.Named Release.digest
  records : s.records.Named fun r => r.id
  remoteAuthorities : s.remoteAuthorities.Named fun a => a.token.body.organizationId
  outgoing : s.outgoing.Named fun m => m.manifest.migrationId
  incoming : s.incoming.Named fun m => m.manifest.migrationId

theorem keyed_empty : Keyed emptyState := by
  constructor <;> exact Dict.named_empty _

theorem Keyed.pushHistory {s : State} (h : Keyed s) (c : Command) :
    Keyed (pushHistory s c) := by
  unfold DirectTrade.pushHistory
  split
  · exact { h with organizations := h.organizations.modify _ _ fun _ => rfl }
  · exact h

theorem Keyed.setOrg {k : Call} (h : Keyed k.s) {o : Organization}
    (ho : ∀ id, k.c.organizationId = some id → o.id = id) : Keyed (k.setOrg o) := by
  unfold Call.setOrg
  split
  · exact h
  · rename_i id hid
    exact { h with organizations := h.organizations.set (ho id hid) }

theorem Keyed.insertRecord {s : State} (h : Keyed s) (org : Uuid) (r : BusinessRecord) :
    Keyed (Call.insertRecord s org r) := by
  have hretire : (Call.retire s.records r.supersedes).Named fun r => r.id := by
    unfold Call.retire
    split
    · exact h.records
    · exact h.records.modify _ _ fun _ => rfl
  exact { h with records := hretire.set rfl }

theorem Keyed.takeOver {s : State} (h : Keyed s) (snap : Snapshot) :
    Keyed (takeOver s snap) where
  persons := h.persons.foldl_setNew _
  organizations := h.organizations.set rfl
  policies := h.policies.foldl_set _
  profiles := h.profiles.foldl_set _
  releases := h.releases.foldl_set _
  records := h.records.foldl_set _
  remoteAuthorities := h.remoteAuthorities
  outgoing := h.outgoing
  incoming := h.incoming

variable [Primitives] [Reducers]

omit [Reducers] in
/-- Re-accepting a stored attestation writes what is stored. -/
theorem requireRemoteAuthority_eq {s s' : State} {org : Uuid} {ctx : Context}
    (named : s.remoteAuthorities.Named fun a => a.token.body.organizationId)
    (h : requireRemoteAuthority s org ctx = .ok s') : s' = s := by
  simp only [requireRemoteAuthority, authorityAccept, Outcome.bind_eq_ok, require_eq_ok,
    Outcome.pure_eq_ok] at h
  obtain ⟨stored, found, ⟨_, result⟩, accepted, rfl⟩ := h
  obtain ⟨b, attests, rfl, -⟩ := Call.acceptAuthority_attests accepted
  have hb : stored.token.body = b := by
    have verified := attests.verified
    simp only [verifyToken, Outcome.bind_eq_ok, require_eq_ok, Outcome.pure_eq_ok] at verified
    obtain ⟨_, selected, _, -, _, -, _, -, rfl⟩ := verified
    simpa [Signed.map, TokenBody.authority?] using selected
  have hself : s.remoteAuthorities.get? b.organizationId =
      some ⟨⟨b, stored.token.keyId, stored.token.signature⟩⟩ := by
    have hname : stored.token.body.organizationId = org := named org stored found
    rw [← hb, hname, found]
  simp only [Call.attested, Signed.map, Dict.set_eq_self hself]

omit [Reducers] in
theorem counterparties_eq {k : Call} {parties : List Uuid} {s : State}
    (named : k.s.remoteAuthorities.Named fun a => a.token.body.organizationId)
    (h : k.counterparties parties = .ok s) : s = k.s := by
  refine Outcome.foldlM_invariant (· = k.s) _ parties ?_ rfl h
  rintro party - _ t rfl hstep
  split at hstep
  · exact ((Outcome.pure_eq_ok _ _).mp hstep).symm
  · exact requireRemoteAuthority_eq named hstep

theorem Keyed.next {s : State} {c : Command} {ctx : Context} {signed : List KeyId}
    {reply : Reply} (h : Keyed s) (accepted : Accepted s c ctx signed reply) :
    Keyed (reply.next c) := by
  have hk : Keyed (callOf s c ctx signed).s := h
  cases accepted.effect with
  | replay m receipt payload recorded previous => exact h
  | read result reads => exact h
  | register keys payload enrolls => exact { h with persons := h.persons.set rfl }
  | rotate add revoke person payload rotates =>
    exact { h with persons := h.persons.replace rotates.found rfl }
  | found orgId name nonce controllers threshold payload founds =>
    refine Keyed.pushHistory (hk.setOrg ?_) c
    intro id hid
    exact Option.some.inj (founds.named.symm.trans hid)
  | company o o' m result payload fresh inside change =>
    refine Keyed.pushHistory (hk.setOrg ?_) c
    intro id hid
    have hc : c.organizationId = some id := hid
    have horg : c.organizationId.bind s.organizations.get? = some o := inside.org
    have ho : o.id = id := by
      rw [hc] at horg
      exact h.organizations id o horg
    cases change <;> exact ho
  | revise o create p payload revises => exact { h with policies := h.policies.set rfl }
  | publish o p payload publishes => exact { h with profiles := h.profiles.set rfl }
  | admitContract o digest contract payload admits absent =>
    exact { h with profiles := h.profiles.set rfl }
  | contractAdmitted o digest contract profile payload admits known => exact h
  | release o p payload releases => exact { h with releases := h.releases.set rfl }
  | append o p profile before t company validation payload appends assessed =>
    obtain rfl := counterparties_eq h.remoteAuthorities appends.attested
    refine Keyed.insertRecord ?_ _ _
    cases company with
    | none => exact h
    | some company => exact { h with }
  | duplicate o p profile before t company recordId recorded payload appends assessed known =>
    obtain rfl := counterparties_eq h.remoteAuthorities appends.attested
    exact { h with }
  | replayStock o m receipt payload opens inside previous => exact { h with }
  | stock o m company result payload fresh inside change => exact { h with }
  | attest token hop b payload attests =>
    exact { h with remoteAuthorities := h.remoteAuthorities.set rfl }
  | prepareAgain o destination snapshot org prior payload prepares known same => exact h
  | prepare o destination snapshot org payload prepares absent =>
    exact { h with outgoing := h.outgoing.set rfl }
  | commitAgain migrationId ready out o token payload owns known => exact h
  | commit o migrationId ready snapshot out org body payload commits =>
    exact { h with
      organizations := h.organizations.replace commits.company rfl
      outgoing := h.outgoing.replace commits.found rfl }
  | cancelAgain migrationId out o token payload owns known => exact h
  | cancel migrationId out o payload owns uncommitted uncancelled =>
    exact { h with outgoing := h.outgoing.replace owns.found rfl }
  | stageAgain token body old payload manifests known live => exact h
  | stage token body payload manifests absent company unreserved =>
    exact { h with incoming := h.incoming.set rfl }
  | upload migrationId index data stage payload stages pending known =>
    exact { h with incoming := h.incoming.replace stages.found rfl }
  | readyAgain migrationId stage token payload stages pending known => exact h
  | ready migrationId stage snapshot payload stages pending unready lifetime assembled absent
      valid =>
    exact { h with incoming := h.incoming.replace stages.found rfl }
  | finalizeAgain migrationId token stage ready body payload stages binds activated => exact h
  | finalize migrationId token stage ready body snapshot payload stages binds inactive held
      absent digest valid activates =>
    exact { h.takeOver snapshot with
      incoming := h.incoming.replace stages.found rfl }
  | abort migrationId token stage body payload stages inactive verified source matching =>
    exact { h with incoming := h.incoming.replace stages.found rfl }

theorem Reachable.keyed {s : State} (h : Reachable s) : Keyed s :=
  h.invariant keyed_empty (fun _ _ hs => { hs with }) fun _ _ _ _ _ hs => hs.next

end DirectTrade
