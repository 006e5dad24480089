import DirectTrade.Store.Ledger

/-!
The tables of identities, keys and grants state what the heads of their chains state. A key that
is revoked stays revoked.
-/

namespace DirectTrade.Store

open Library Library.Outcome Library.Serial

/-- The identity that a record is a revision of. -/
def identityOf (env : Envelope) : Option (PrincipalKind × String) :=
  if env.type = "core.company" then some (.company, env.subjectCompanyId)
  else if env.type = "core.module" then (text? env.body "module_id").map fun id => (.module, id)
  else none

/-- The record to which the row of an identity points. -/
def Db.headRecord? (db : Db) : PrincipalKind → String → Option String
  | .company, id => (db.companies.get? id).bind CompanyRow.headRecordId
  | .module, id => (db.modules.get? id).bind ModuleRow.headRecordId

@[simp] theorem headRecord?_company (db : Db) (id : String) :
    db.headRecord? .company id = (db.companies.get? id).bind CompanyRow.headRecordId := rfl

@[simp] theorem headRecord?_module (db : Db) (id : String) :
    db.headRecord? .module id = (db.modules.get? id).bind ModuleRow.headRecordId := rfl

theorem identityOf_company {env : Envelope} (h : env.type = "core.company") :
    identityOf env = some (.company, env.subjectCompanyId) := if_pos h

theorem identityOf_module {env : Envelope} {moduleId : String} (h : env.type = "core.module")
    (hmodule : text? env.body "module_id" = some moduleId) :
    identityOf env = some (.module, moduleId) := by
  unfold identityOf
  rw [if_neg (by rw [h]; decide), if_pos h, hmodule]
  rfl

theorem identityOf_none {env : Envelope} (h : ¬ isIdentity env.type) : identityOf env = none := by
  unfold identityOf
  rw [if_neg fun hc => h (.inl hc), if_neg fun hm => h (.inr hm)]

theorem identityOf_congr {q env : Envelope} (htype : q.type = env.type)
    (hsubject : q.subjectCompanyId = env.subjectCompanyId)
    (hmodule : env.type = "core.module" →
      text? q.body "module_id" = text? env.body "module_id") :
    identityOf q = identityOf env := by
  unfold identityOf
  rw [htype, hsubject]
  by_cases hcompany : env.type = "core.company"
  · rw [if_pos hcompany, if_pos hcompany]
  rw [if_neg hcompany, if_neg hcompany]
  by_cases hm : env.type = "core.module"
  · rw [if_pos hm, if_pos hm, hmodule hm]
  · rw [if_neg hm, if_neg hm]

theorem headRecord?_congr {s t : Db} (hcompanies : t.companies = s.companies)
    (hmodules : t.modules = s.modules) (kind : PrincipalKind) (owner : String) :
    t.headRecord? kind owner = s.headRecord? kind owner := by
  cases kind with
  | company => rw [headRecord?_company, headRecord?_company, hcompanies]
  | module => rw [headRecord?_module, headRecord?_module, hmodules]

theorem text?_of_member {body : Json} {field value : String}
    (h : body.member? field = some (.str value)) : text? body field = some value := by
  unfold text?
  rw [h]

theorem text?_of_readGrant {body : Json} {grant : GrantBody} (h : readGrant body = some grant) :
    text? body "module_id" = some grant.moduleId := by
  unfold readGrant at h
  cases hmodule : text? body "module_id" with
  | none => simp [hmodule] at h
  | some moduleId =>
    simp only [hmodule] at h
    cases hscopes : readScopes body with
    | none => simp [hscopes] at h
    | some scopes =>
      cases hstatus : (text? body "status").bind status? with
      | none => simp [hscopes, hstatus] at h
      | some status =>
        cases hexpiry : readExpiry body with
        | none => simp [hscopes, hstatus, hexpiry] at h
        | some expiresAt =>
          simp only [hscopes, hstatus, hexpiry, Option.some.injEq] at h
          rw [← h]

/-- The keys of an owner stand as a list has them, one root among them being active; a key that
is not listed is revoked. -/
structure KeysMatch (kind : PrincipalKind) (ownerId : String) (keys : List KeyEntry)
    (table : Dict String KeyRow) : Prop where
  listed : ∀ k ∈ keys, ∃ row, table.get? k.keyId = some row ∧ row.owned kind ownerId ∧
    row.role = k.role ∧ row.status = k.status
  unlisted : ∀ keyId row, table.get? keyId = some row → row.owned kind ownerId →
    keyId ∉ keys.map KeyEntry.keyId → row.status = .revoked
  root : ∃ keyId row, table.get? keyId = some row ∧ row.owned kind ownerId ∧
    row.role = .root ∧ row.status = .active

theorem KeyRow.owned_unique {row : KeyRow} {kind kind' : PrincipalKind} {id id' : String}
    (h : row.owned kind id) (h' : row.owned kind' id') : kind = kind' ∧ id = id' :=
  ⟨h.1.symm.trans h'.1, h.2.symm.trans h'.2⟩

section
variable {kind : PrincipalKind} {ownerId : String} {keys : List KeyEntry}
  {before after : Dict String KeyRow}

theorem Synced.keysMatch (h : Synced kind ownerId keys before after)
    (hroot : hasActiveRoot keys) : KeysMatch kind ownerId keys after := by
  refine ⟨?_, ?_, ?_⟩
  · intro k hk
    obtain ⟨row, hrow, hsynced⟩ := h.listed k hk
    exact ⟨row, hrow, hsynced.owned, hsynced.role, hsynced.status⟩
  · intro keyId row hrow howned hgone
    rw [h.unlisted keyId hgone] at hrow
    obtain ⟨old, -, rfl⟩ := Option.map_eq_some_iff.mp hrow
    by_cases hold : old.owned kind ownerId
    · rw [if_pos hold]
      rfl
    · rw [if_neg hold] at howned
      exact absurd howned hold
  · obtain ⟨k, hk, hrole, hactive⟩ := hroot
    obtain ⟨row, hrow, hsynced⟩ := h.listed k hk
    exact ⟨k.keyId, row, hrow, hsynced.owned, hsynced.role.trans hrole,
      hsynced.status.trans hactive⟩

/-- The keys of other owners stay as they were. -/
theorem Synced.others (h : Synced kind ownerId keys before after) {keyId : String} {row : KeyRow}
    (hother : ¬ row.owned kind ownerId) :
    after.get? keyId = some row ↔ before.get? keyId = some row := by
  by_cases hlisted : keyId ∈ keys.map KeyEntry.keyId
  · obtain ⟨k, hk, rfl⟩ := List.mem_map.mp hlisted
    obtain ⟨row', hrow', hsynced⟩ := h.listed k hk
    constructor
    · intro hrow
      obtain rfl := Option.some.inj (hrow'.symm.trans hrow)
      exact absurd hsynced.owned hother
    · intro hrow
      exact absurd (hsynced.same row hrow).1 hother
  · rw [h.unlisted keyId hlisted]
    constructor
    · intro hrow
      obtain ⟨old, hold, hrow⟩ := Option.map_eq_some_iff.mp hrow
      by_cases howned : old.owned kind ownerId
      · rw [if_pos howned] at hrow
        subst hrow
        exact absurd howned hother
      · rw [if_neg howned] at hrow
        subst hrow
        exact hold
    · intro hrow
      rw [hrow, Option.map_some, if_neg hother]

/-- A key keeps its owner, and stays revoked if it is. -/
theorem Synced.kept (h : Synced kind ownerId keys before after) {keyId : String} {row : KeyRow}
    (hrow : before.get? keyId = some row) : ∃ row', after.get? keyId = some row' ∧
      row'.owned row.ownerKind row.ownerId ∧ (row.status = .revoked → row'.status = .revoked) := by
  by_cases hlisted : keyId ∈ keys.map KeyEntry.keyId
  · obtain ⟨k, hk, rfl⟩ := List.mem_map.mp hlisted
    obtain ⟨row', hrow', hsynced⟩ := h.listed k hk
    obtain ⟨howned, hrevoked⟩ := hsynced.same row hrow
    refine ⟨row', hrow', ?_, fun hold => hsynced.status.trans (hrevoked hold)⟩
    rw [howned.1, howned.2]
    exact hsynced.owned
  · rw [h.unlisted keyId hlisted, hrow]
    by_cases howned : row.owned kind ownerId
    · refine ⟨row.revoked, by simp [howned], ⟨rfl, rfl⟩, fun _ => rfl⟩
    · exact ⟨row, by simp [howned], ⟨rfl, rfl⟩, id⟩

/-- What is synced of one owner leaves the match of another. -/
theorem KeysMatch.other {kind' : PrincipalKind} {ownerId' : String} {keys' : List KeyEntry}
    (h : KeysMatch kind' ownerId' keys' before) (hsynced : Synced kind ownerId keys before after)
    (hne : ¬ (kind' = kind ∧ ownerId' = ownerId)) : KeysMatch kind' ownerId' keys' after := by
  have hother : ∀ row : KeyRow, row.owned kind' ownerId' → ¬ row.owned kind ownerId :=
    fun row howned howned' => hne (KeyRow.owned_unique howned howned')
  refine ⟨?_, ?_, ?_⟩
  · intro k hk
    obtain ⟨row, hrow, howned, hstands⟩ := h.listed k hk
    exact ⟨row, (hsynced.others (hother row howned)).mpr hrow, howned, hstands⟩
  · intro keyId row hrow howned hgone
    exact h.unlisted keyId row ((hsynced.others (hother row howned)).mp hrow) howned hgone
  · obtain ⟨keyId, row, hrow, howned, hstands⟩ := h.root
    exact ⟨keyId, row, (hsynced.others (hother row howned)).mpr hrow, howned, hstands⟩

end

/-- Keys keep their owners, and those that are revoked stay so. -/
def KeysKept (s t : Db) : Prop := ∀ keyId row, s.keys.get? keyId = some row →
  ∃ row', t.keys.get? keyId = some row' ∧ row'.owned row.ownerKind row.ownerId ∧
    (row.status = .revoked → row'.status = .revoked)

theorem KeysKept.refl (s : Db) : KeysKept s s := fun _ row hrow => ⟨row, hrow, ⟨rfl, rfl⟩, id⟩

theorem KeysKept.trans {s t u : Db} (h : KeysKept s t) (h' : KeysKept t u) : KeysKept s u := by
  intro keyId row hrow
  obtain ⟨row', hrow', howned, hrevoked⟩ := h keyId row hrow
  obtain ⟨row'', hrow'', howned', hrevoked'⟩ := h' keyId row' hrow'
  rw [howned.1, howned.2] at howned'
  exact ⟨row'', hrow'', howned', fun hold => hrevoked' (hrevoked hold)⟩

/-- What a state keeps of an earlier one: its events come first, what was signed stays, and keys
that were revoked stay so. -/
structure Extends (s : Db) (n : ℕ) (t : Db) : Prop where
  events : ∃ more, t.events = s.events ++ more ∧ ∀ e ∈ more, n < e.seq
  records : ∀ id r, s.records.get? id = some r → ∃ r', t.records.get? id = some r' ∧
    r'.toEnvelope = r.toEnvelope ∧ r'.seq = r.seq
  keys : KeysKept s t

theorem Extends.refl (s : Db) (n : ℕ) : Extends s n s :=
  ⟨⟨[], (List.append_nil _).symm, fun _ h => nomatch h⟩, fun _ r hr => ⟨r, hr, rfl, rfl⟩, .refl s⟩

theorem Extends.trans {s t u : Db} {n m : ℕ} (h : Extends s n t) (hle : n ≤ m)
    (h' : Extends t m u) : Extends s n u := by
  obtain ⟨more, hmore, hlater⟩ := h.events
  obtain ⟨more', hmore', hlater'⟩ := h'.events
  refine ⟨⟨more ++ more', by rw [hmore', hmore, List.append_assoc], ?_⟩, ?_, h.keys.trans h'.keys⟩
  · intro e he
    rcases List.mem_append.mp he with he | he
    · exact hlater e he
    · exact Nat.lt_of_le_of_lt hle (hlater' e he)
  · intro id r hr
    obtain ⟨r', hr', henv, hseq⟩ := h.records id r hr
    obtain ⟨r'', hr'', henv', hseq'⟩ := h'.records id r' hr'
    exact ⟨r'', hr'', henv'.trans henv, hseq'.trans hseq⟩

/-- A record of an identity lists a key as active. -/
def listsActive (body : Json) (keyId : String) : Prop :=
  ∃ k ∈ keysOf body, k.keyId = keyId ∧ k.status = .active

def Db.revoked (db : Db) (keyId : String) : Prop :=
  ∃ row, db.keys.get? keyId = some row ∧ row.status = .revoked

theorem KeysKept.revoked {s t : Db} (h : KeysKept s t) {keyId : String} (hs : s.revoked keyId) :
    t.revoked keyId := by
  obtain ⟨row, hrow, hrevoked⟩ := hs
  obtain ⟨row', hrow', -, hkept⟩ := h keyId row hrow
  exact ⟨row', hrow', hkept hrevoked⟩

/-- A key that a revision of an identity took back is revoked. -/
def Withdrawn (db : Db) : Prop := ∀ id r p q, db.records.get? id = some r →
  r.supersedes = some p → db.records.get? p = some q → isIdentity r.type →
    ∀ keyId, listsActive q.body keyId → ¬ listsActive r.body keyId → db.revoked keyId

/-- A key that was active of an owner and is not listed as active any more. -/
theorem Synced.revoked {kind : PrincipalKind} {ownerId : String} {keys : List KeyEntry}
    {before after : Dict String KeyRow} (h : Synced kind ownerId keys before after)
    {keyId : String} {row : KeyRow} (hrow : before.get? keyId = some row)
    (howned : row.owned kind ownerId)
    (hgone : ¬ ∃ k ∈ keys, k.keyId = keyId ∧ k.status = .active) :
    ∃ row', after.get? keyId = some row' ∧ row'.status = .revoked := by
  by_cases hlisted : keyId ∈ keys.map KeyEntry.keyId
  · obtain ⟨k, hk, rfl⟩ := List.mem_map.mp hlisted
    obtain ⟨row', hrow', hsynced⟩ := h.listed k hk
    refine ⟨row', hrow', ?_⟩
    rw [hsynced.status]
    cases hstatus : k.status with
    | revoked => rfl
    | active => exact absurd ⟨k, hk, rfl, hstatus⟩ hgone
  · rw [h.unlisted keyId hlisted, hrow]
    exact ⟨row.revoked, by simp [howned], rfl⟩

section
variable [Platform]

/-- A row of a grant states what the record at the head of its chain does. -/
def GrantStands (table : Dict String GrantRow) (r : RecordRow) : Prop :=
  ∃ grant expiresAt, readGrant r.body = some grant ∧ expiry grant = .ok expiresAt ∧
    table.get? r.rootId = some (grantRow r.toEnvelope grant expiresAt)

/-- The tables beside the records state what the heads of the chains state, and nothing else. -/
structure Projected (db : Db) : Prop where
  points : ∀ id r, db.records.get? id = some r → r.isHead = true → ∀ kind owner,
    identityOf r.toEnvelope = some (kind, owner) → db.headRecord? kind owner = some id
  identity : ∀ kind owner id, db.headRecord? kind owner = some id →
    ∃ r, db.records.get? id = some r ∧ r.isHead = true ∧
      identityOf r.toEnvelope = some (kind, owner) ∧
      KeysMatch kind owner (keysOf r.body) db.keys
  company : ∀ id row, db.companies.get? id = some row → row.headRecordId.isSome = true
  module : ∀ id row, db.modules.get? id = some row → row.headRecordId.isSome = true
  owner : ∀ keyId row, db.keys.get? keyId = some row →
    (db.headRecord? row.ownerKind row.ownerId).isSome = true
  grant : ∀ id r, db.records.get? id = some r → r.isHead = true → r.type = "core.grant" →
    GrantStands db.grants r
  grantHead : ∀ root row, db.grants.get? root = some row →
    ∃ r, db.records.get? row.grantRecordId = some r ∧ r.isHead = true ∧ r.type = "core.grant" ∧
      r.rootId = root

theorem projected_empty : Projected Db.empty := by
  refine ⟨?_, ?_, ?_, ?_, ?_, ?_, ?_⟩
  · exact fun _ _ h => nomatch h
  · intro kind owner id h
    cases kind with
    | company => exact nomatch h
    | module => exact nomatch h
  · exact fun _ _ h => nomatch h
  · exact fun _ _ h => nomatch h
  · exact fun _ _ h => nomatch h
  · exact fun _ _ h => nomatch h
  · exact fun _ _ h => nomatch h

/-- What a new record does to identities: nothing, or it becomes the head of its own. -/
inductive Identified (env : Envelope) (s t : Db) : Prop
  | other (none : identityOf env = none) (keys : t.keys = s.keys)
      (companies : t.companies = s.companies) (modules : t.modules = s.modules)
  | revised {kind : PrincipalKind} {owner : String} (some : identityOf env = some (kind, owner))
      (synced : Synced kind owner (keysOf env.body) s.keys t.keys)
      (root : hasActiveRoot (keysOf env.body))
      (heads : ∀ k o, t.headRecord? k o =
        if k = kind ∧ o = owner then .some env.recordId else s.headRecord? k o)
      (company : ∀ id row, t.companies.get? id = .some row →
        row.headRecordId.isSome = true ∨ s.companies.get? id = .some row)
      (module : ∀ id row, t.modules.get? id = .some row →
        row.headRecordId.isSome = true ∨ s.modules.get? id = .some row)
      (new : env.supersedes = .none → s.headRecord? kind owner = .none)

variable {s t : Db} {seq : ℕ}

theorem CompanyFounded.identified {ctx : Context} {env : Envelope} {info : TypeInfo}
    (h : CompanyFounded ctx env info s t seq) (hs : Projected s) : Identified env s t := by
  have hidentity : isIdentity env.type := .inl h.type
  have hnew : s.headRecord? .company env.subjectCompanyId = none := by
    simp [h.absent]
  have howned : ∀ keyId row, s.keys.get? keyId = some row →
      ¬ row.owned .company env.subjectCompanyId := by
    intro keyId row hrow howned
    have hthere := hs.owner keyId row hrow
    rw [howned.1, howned.2, hnew] at hthere
    cases hthere
  refine .revised (identityOf_company h.type) (synced_of_inserted howned h.inserted h.others)
    (h.valid.activeRoot hidentity) ?_ ?_ ?_ fun _ => hnew
  · intro k o
    cases k with
    | company =>
      rw [headRecord?_company, headRecord?_company, h.companies, Dict.get?_set]
      by_cases ho : o = env.subjectCompanyId
      · simp [ho]
      · simp [ho]
    | module => simp [h.modules]
  · intro id row hrow
    rw [h.companies, Dict.get?_set] at hrow
    by_cases hid : id = env.subjectCompanyId
    · rw [if_pos hid] at hrow
      obtain rfl := Option.some.inj hrow
      exact .inl rfl
    · rw [if_neg hid] at hrow
      exact .inr hrow
  · intro id row hrow
    rw [h.modules] at hrow
    exact .inr hrow

theorem ModuleFounded.identified {moduleId : String} {p : Principal} {ctx : Context}
    {env : Envelope} {info : TypeInfo} (h : ModuleFounded moduleId p ctx env info s t seq)
    (hs : Projected s) : Identified env s t := by
  have hidentity : isIdentity env.type := .inr h.type
  have hnew : s.headRecord? .module moduleId = none := by
    simp [h.absent]
  have howned : ∀ keyId row, s.keys.get? keyId = some row → ¬ row.owned .module moduleId := by
    intro keyId row hrow howned
    have hthere := hs.owner keyId row hrow
    rw [howned.1, howned.2, hnew] at hthere
    cases hthere
  refine .revised (identityOf_module h.type h.named)
    (synced_of_inserted howned h.inserted h.others) (h.valid.activeRoot hidentity) ?_ ?_ ?_
    fun _ => hnew
  · intro k o
    cases k with
    | company => simp [h.companies]
    | module =>
      rw [headRecord?_module, headRecord?_module, h.modules, Dict.get?_set]
      by_cases ho : o = moduleId
      · simp [ho]
      · simp [ho]
  · intro id row hrow
    rw [h.companies] at hrow
    exact .inr hrow
  · intro id row hrow
    rw [h.modules, Dict.get?_set] at hrow
    by_cases hid : id = moduleId
    · rw [if_pos hid] at hrow
      obtain rfl := Option.some.inj hrow
      exact .inl rfl
    · rw [if_neg hid] at hrow
      exact .inr hrow

/-- The record that is superseded is of the same identity. -/
theorem Accepted.sameIdentity {ctx : Context} {env : Envelope} {p : Principal} {info : TypeInfo}
    {prev : Option RecordRow} (h : Accepted ctx env p info prev s t seq) {q : RecordRow}
    (hq : prev = some q) : identityOf q.toEnvelope = identityOf env := by
  have hcontinues := h.continues q hq
  apply identityOf_congr hcontinues.type hcontinues.subject
  intro htype
  obtain ⟨moduleId, hmodule, hsame, -⟩ := h.hooked.module htype
  rw [hmodule]
  exact text?_of_member (hsame q hq)

theorem Accepted.identified {ctx : Context} {env : Envelope} {p : Principal} {info : TypeInfo}
    {prev : Option RecordRow} (h : Accepted ctx env p info prev s t seq) (hs : Projected s) :
    Identified env s t := by
  by_cases hidentity : isIdentity env.type
  swap
  · exact .other (identityOf_none hidentity) (h.hooked.keys hidentity)
      (h.hooked.companies fun hc => hidentity (.inl hc))
      (h.hooked.modules fun hm => hidentity (.inr hm))
  -- an identity has a head already
  obtain ⟨q, hq⟩ : ∃ q, prev = some q := by
    cases hprev : prev with
    | some q => exact ⟨q, rfl⟩
    | none =>
      have hgenesis := h.supersedes
      rw [hprev] at hgenesis
      exact absurd ⟨hgenesis, hidentity⟩ h.notGenesis
  have hstored := (h.target q hq).1
  have hhead := hs.points _ q hstored (h.continues q hq).isHead
  have hnew : env.supersedes ≠ none := by
    rw [h.supersedes, hq]
    exact nofun
  by_cases hcompany : env.type = "core.company"
  · have howner := identityOf_company hcompany
    obtain ⟨-, -, hsynced, hcompanies⟩ := h.hooked.company hcompany
    have hmodules := h.hooked.modules (by rw [hcompany]; decide)
    have hpoints := hhead .company env.subjectCompanyId ((h.sameIdentity hq).trans howner)
    refine .revised howner hsynced (h.valid.activeRoot hidentity) ?_ ?_ ?_
      fun hnone => absurd hnone hnew
    · intro k o
      cases k with
      | module => simp [hmodules]
      | company =>
        rw [headRecord?_company] at hpoints
        rw [headRecord?_company, headRecord?_company, hcompanies, Dict.get?_modify]
        by_cases ho : o = env.subjectCompanyId
        · subst ho
          obtain ⟨row, hrow, -⟩ := Option.bind_eq_some_iff.mp hpoints
          simp [hrow]
        · simp [ho]
    · intro id row hrow
      rw [hcompanies, Dict.get?_modify] at hrow
      by_cases hid : id = env.subjectCompanyId
      · rw [if_pos hid] at hrow
        obtain ⟨_, -, rfl⟩ := Option.map_eq_some_iff.mp hrow
        exact .inl rfl
      · rw [if_neg hid] at hrow
        exact .inr hrow
    · intro id row hrow
      rw [hmodules] at hrow
      exact .inr hrow
  · have hmodule := hidentity.resolve_left hcompany
    obtain ⟨moduleId, hnamed, -, hsynced, hmodules⟩ := h.hooked.module hmodule
    have howner := identityOf_module hmodule hnamed
    have hcompanies := h.hooked.companies hcompany
    have hpoints := hhead .module moduleId ((h.sameIdentity hq).trans howner)
    refine .revised howner hsynced (h.valid.activeRoot hidentity) ?_ ?_ ?_
      fun hnone => absurd hnone hnew
    · intro k o
      cases k with
      | company => simp [hcompanies]
      | module =>
        rw [headRecord?_module] at hpoints
        rw [headRecord?_module, headRecord?_module, hmodules, Dict.get?_modify]
        by_cases ho : o = moduleId
        · subst ho
          obtain ⟨row, hrow, -⟩ := Option.bind_eq_some_iff.mp hpoints
          simp [hrow]
        · simp [ho]
    · intro id row hrow
      rw [hcompanies] at hrow
      exact .inr hrow
    · intro id row hrow
      rw [hmodules, Dict.get?_modify] at hrow
      by_cases hid : id = moduleId
      · rw [if_pos hid] at hrow
        obtain ⟨_, -, rfl⟩ := Option.map_eq_some_iff.mp hrow
        exact .inl rfl
      · rw [if_neg hid] at hrow
        exact .inr hrow

/-- A new revision of a grant puts its terms in the row of its chain, whose parties stay. -/
theorem Accepted.granted {ctx : Context} {env : Envelope} {p : Principal} {info : TypeInfo}
    {prev : Option RecordRow} (h : Accepted ctx env p info prev s t seq) (hs : Projected s)
    (hchained : Chained s) (htype : env.type = "core.grant") :
    ∃ grant expiresAt, readGrant env.body = some grant ∧ expiry grant = .ok expiresAt ∧
      t.grants = s.grants.set env.rootId (grantRow env grant expiresAt) := by
  obtain ⟨-, grant, expiresAt, hgrant, hexpiry, hsame, row, hgrants, hrow⟩ :=
    h.hooked.grant htype
  refine ⟨grant, expiresAt, hgrant, hexpiry, ?_⟩
  rcases hrow with ⟨-, rfl⟩ | ⟨old, hold, rfl⟩
  · exact hgrants
  rw [hgrants]
  congr 1
  cases hprev : prev with
  | none =>
    -- the root of a new chain is the new record itself
    have hgenesis := h.supersedes
    rw [hprev] at hgenesis
    obtain ⟨r, hr, -, -, hroot⟩ := hs.grantHead env.rootId old hold
    have hthere := hchained.rooted _ r hr
    rw [hroot, h.valid.genesis hgenesis, h.appended.fresh] at hthere
    exact nomatch hthere
  | some q =>
    have hcontinues := h.continues q hprev
    obtain ⟨grant', expiresAt', hgrant', -, hrow⟩ := hs.grant _ q (h.target q hprev).1
      hcontinues.isHead (hcontinues.type.trans htype)
    rw [hcontinues.root] at hrow
    obtain rfl := Option.some.inj (hold.symm.trans hrow)
    have hmodule : grant'.moduleId = grant.moduleId :=
      Option.some.inj ((text?_of_readGrant hgrant').symm.trans (text?_of_member (hsame q hprev)))
    unfold GrantRow.update grantRow
    rw [hmodule, hcontinues.subject]

/-- What a new record does to identities and grants. -/
structure Revises (env : Envelope) (prev : Option RecordRow) (s t : Db) : Prop where
  same : ∀ q, prev = some q → identityOf q.toEnvelope = identityOf env
  identified : Identified env s t
  granted : env.type = "core.grant" → ∃ grant expiresAt, readGrant env.body = some grant ∧
    expiry grant = .ok expiresAt ∧ t.grants = s.grants.set env.rootId (grantRow env grant expiresAt)
  grants : env.type ≠ "core.grant" → t.grants = s.grants

theorem Written.revises {req : Request} (h : Written req s t seq) (hs : Projected s)
    (hchained : Chained s) {info : TypeInfo} {prev : Option RecordRow}
    (hj : Joins req.input info prev s) : Revises req.input prev s t := by
  have hgenesis : req.input.supersedes = none → ∀ q, prev ≠ some q := by
    intro hnone q hq
    have hsup := hj.supersedes
    rw [hnone, hq] at hsup
    exact nomatch hsup
  cases h with
  | company hp h =>
    have hother : req.input.type ≠ "core.grant" := by
      rw [h.type]
      decide
    exact ⟨fun q hq => absurd hq (hgenesis h.genesis q), h.identified hs,
      fun htype => absurd htype hother, fun _ => h.grants⟩
  | module hp h =>
    have hother : req.input.type ≠ "core.grant" := by
      rw [h.type]
      decide
    exact ⟨fun q hq => absurd hq (hgenesis h.genesis q), h.identified hs,
      fun htype => absurd htype hother, fun _ => h.grants⟩
  | @record _ _ _ prev' hp h =>
    refine ⟨?_, h.identified hs, h.granted hs hchained, h.hooked.grants⟩
    intro q hq
    -- there is one record under the identifier that is superseded
    have hsup := hj.supersedes.symm.trans h.supersedes
    rw [hq, Option.map_some] at hsup
    obtain ⟨q', hq', hid⟩ := Option.map_eq_some_iff.mp hsup.symm
    have hstored := (h.target q' hq').1
    rw [hid] at hstored
    obtain rfl := Option.some.inj ((hj.target q hq).1.symm.trans hstored)
    exact h.sameIdentity hq'

variable {env : Envelope} {status eventStatus : Option String} {prev : Option RecordRow}
  {info : TypeInfo}

/-- The heads of identities after one more record. -/
theorem Appended.projectedHead (h : Appended env status eventStatus prev s t seq)
    (hr : Revises env prev s t) (hj : Joins env info prev s) (hs : Projected s) {id : String}
    {r : RecordRow} (hget : t.records.get? id = some r) (hhead : r.isHead = true)
    {kind : PrincipalKind} {owner : String}
    (howner : identityOf r.toEnvelope = some (kind, owner)) :
    t.headRecord? kind owner = some id := by
  by_cases hid : id = env.recordId
  · subst hid
    obtain rfl := Option.some.inj (h.get?_new.symm.trans hget)
    cases hr.identified with
    | other hnone => exact nomatch hnone.symm.trans howner
    | revised hsome hsynced hroot hheads =>
      obtain ⟨rfl, rfl⟩ := Prod.mk.inj (Option.some.inj (hsome.symm.trans howner))
      rw [hheads, if_pos ⟨rfl, rfl⟩]
  · obtain ⟨r₀, hget₀, henv, -, hiff⟩ := h.old_of_ne hget hid
    obtain ⟨hhead₀, hother⟩ := hiff.mp hhead
    rw [henv] at howner
    have hpoints := hs.points id r₀ hget₀ hhead₀ kind owner howner
    cases hr.identified with
    | other hnone hkeys hcompanies hmodules =>
      rw [headRecord?_congr hcompanies hmodules]
      exact hpoints
    | @revised kind' owner' hsome hsynced hroot hheads _ _ hnew =>
      rw [hheads, if_neg]
      · exact hpoints
      -- the old head of the identity is the one that was superseded
      rintro ⟨rfl, rfl⟩
      cases hprev : prev with
      | none =>
        have hsup := hj.supersedes
        rw [hprev] at hsup
        exact nomatch (hnew hsup).symm.trans hpoints
      | some q =>
        obtain ⟨hq, hcontinues, -⟩ := hj.target q hprev
        have hpoints' := hs.points _ q hq hcontinues.isHead kind owner
          ((hr.same q hprev).trans hsome)
        apply hother
        rw [hprev]
        exact hpoints'.symm.trans hpoints

/-- The identities after one more record. -/
theorem Appended.projectedIdentity (h : Appended env status eventStatus prev s t seq)
    (hr : Revises env prev s t) (hj : Joins env info prev s) (hs : Projected s)
    {kind : PrincipalKind} {owner id : String}
    (hpoints : t.headRecord? kind owner = some id) :
    ∃ r, t.records.get? id = some r ∧ r.isHead = true ∧
      identityOf r.toEnvelope = some (kind, owner) ∧
      KeysMatch kind owner (keysOf r.body) t.keys := by
  -- another identity keeps its head
  have hkept : s.headRecord? kind owner = some id → identityOf env ≠ some (kind, owner) →
      (∀ keys, KeysMatch kind owner keys s.keys → KeysMatch kind owner keys t.keys) →
      ∃ r, t.records.get? id = some r ∧ r.isHead = true ∧
        identityOf r.toEnvelope = some (kind, owner) ∧
        KeysMatch kind owner (keysOf r.body) t.keys := by
    intro hold hother hkeys
    obtain ⟨r, hget, hhead, howner, hmatch⟩ := hs.identity kind owner id hold
    have hsuperseded : prev.map (·.recordId) ≠ some id := by
      intro hprev
      obtain ⟨q, hq, rfl⟩ := Option.map_eq_some_iff.mp hprev
      obtain rfl := Option.some.inj ((hj.target q hq).1.symm.trans hget)
      exact hother ((hr.same q hq).symm.trans howner)
    have hget' := (h.get?_old hget).2
    rw [if_neg hsuperseded] at hget'
    exact ⟨r, hget', hhead, howner, hkeys _ hmatch⟩
  cases hr.identified with
  | other hnone hkeys hcompanies hmodules =>
    rw [headRecord?_congr hcompanies hmodules] at hpoints
    apply hkept hpoints
    · rw [hnone]
      exact nofun
    · intro keys hmatch
      rw [hkeys]
      exact hmatch
  | @revised kind' owner' hsome hsynced hroot hheads =>
    rw [hheads] at hpoints
    by_cases hsame : kind = kind' ∧ owner = owner'
    · obtain ⟨rfl, rfl⟩ := hsame
      rw [if_pos ⟨rfl, rfl⟩] at hpoints
      obtain rfl := Option.some.inj hpoints
      exact ⟨_, h.get?_new, rfl, hsome, hsynced.keysMatch hroot⟩
    · rw [if_neg hsame] at hpoints
      refine hkept hpoints ?_ fun keys hmatch => hmatch.other hsynced hsame
      rw [hsome]
      intro heq
      obtain ⟨rfl, rfl⟩ := Prod.mk.inj (Option.some.inj heq)
      exact hsame ⟨rfl, rfl⟩

/-- Every key has an owner after one more record. -/
theorem Revises.owner (hr : Revises env prev s t) (hs : Projected s) {keyId : String}
    {row : KeyRow} (hrow : t.keys.get? keyId = some row) :
    (t.headRecord? row.ownerKind row.ownerId).isSome = true := by
  cases hr.identified with
  | other hnone hkeys hcompanies hmodules =>
    rw [headRecord?_congr hcompanies hmodules]
    rw [hkeys] at hrow
    exact hs.owner keyId row hrow
  | @revised kind owner hsome hsynced hroot hheads =>
    rw [hheads]
    by_cases howned : row.ownerKind = kind ∧ row.ownerId = owner
    · rw [if_pos howned]
      rfl
    · rw [if_neg howned]
      exact hs.owner keyId row ((hsynced.others howned).mp hrow)

/-- Rows of identities point to heads after one more record. -/
theorem Revises.rows (hr : Revises env prev s t) (hs : Projected s) :
    (∀ id row, t.companies.get? id = some row → row.headRecordId.isSome = true) ∧
      ∀ id row, t.modules.get? id = some row → row.headRecordId.isSome = true := by
  cases hr.identified with
  | other hnone hkeys hcompanies hmodules =>
    rw [hcompanies, hmodules]
    exact ⟨hs.company, hs.module⟩
  | revised hsome hsynced hroot hheads hcompany hmodule =>
    constructor
    · intro id row hrow
      exact (hcompany id row hrow).elim (fun hhead => hhead) (hs.company id row)
    · intro id row hrow
      exact (hmodule id row hrow).elim (fun hhead => hhead) (hs.module id row)

/-- The heads of grants after one more record. -/
theorem Appended.projectedGrant (h : Appended env status eventStatus prev s t seq)
    (hr : Revises env prev s t) (hs : Projected s) (ht : Chained t) {id : String} {r : RecordRow}
    (hget : t.records.get? id = some r) (hhead : r.isHead = true) (htype : r.type = "core.grant") :
    GrantStands t.grants r := by
  by_cases hid : id = env.recordId
  · subst hid
    obtain rfl := Option.some.inj (h.get?_new.symm.trans hget)
    obtain ⟨grant, expiresAt, hgrant, hexpiry, hgrants⟩ := hr.granted htype
    refine ⟨grant, expiresAt, hgrant, hexpiry, ?_⟩
    rw [hgrants]
    exact Dict.get?_set_self ..
  · obtain ⟨r₀, hget₀, henv, -, hiff⟩ := h.old_of_ne hget hid
    have hstands := hs.grant id r₀ hget₀ (hiff.mp hhead).1 (by rw [← henv]; exact htype)
    unfold GrantStands at hstands ⊢
    rw [henv]
    obtain ⟨grant, expiresAt, hgrant, hexpiry, hrow⟩ := hstands
    refine ⟨grant, expiresAt, hgrant, hexpiry, ?_⟩
    by_cases hnew : env.type = "core.grant"
    · obtain ⟨_, _, -, -, hgrants⟩ := hr.granted hnew
      rw [hgrants, Dict.get?_set_of_ne _ _ fun hroot => ?_]
      · exact hrow
      -- two heads are of two chains
      have hroot' : r.rootId = (storedRow env status seq).rootId := by
        rw [show r.rootId = r₀.rootId from congrArg Envelope.rootId henv]
        exact hroot
      exact hid (ht.oneHead id r hget _ _ h.get?_new hhead rfl hroot')
    · rw [hr.grants hnew]
      exact hrow

/-- The rows of grants after one more record. -/
theorem Appended.projectedGrantHead (h : Appended env status eventStatus prev s t seq)
    (hr : Revises env prev s t) (hj : Joins env info prev s) (hs : Projected s) {root : String}
    {row : GrantRow} (hrow : t.grants.get? root = some row) :
    ∃ r, t.records.get? row.grantRecordId = some r ∧ r.isHead = true ∧ r.type = "core.grant" ∧
      r.rootId = root := by
  -- a row that was there keeps its head
  have hkept : s.grants.get? root = some row → (env.type = "core.grant" → root ≠ env.rootId) →
      ∃ r, t.records.get? row.grantRecordId = some r ∧ r.isHead = true ∧ r.type = "core.grant" ∧
        r.rootId = root := by
    intro hold hother
    obtain ⟨r, hget, hhead, htype, hroot⟩ := hs.grantHead root row hold
    have hsuperseded : prev.map (·.recordId) ≠ some row.grantRecordId := by
      intro hprev
      obtain ⟨q, hq, hid⟩ := Option.map_eq_some_iff.mp hprev
      obtain ⟨hstored, hcontinues, -⟩ := hj.target q hq
      rw [hid] at hstored
      obtain rfl := Option.some.inj (hstored.symm.trans hget)
      exact hother (hcontinues.type.symm.trans htype) (hroot.symm.trans hcontinues.root)
    have hget' := (h.get?_old hget).2
    rw [if_neg hsuperseded] at hget'
    exact ⟨r, hget', hhead, htype, hroot⟩
  by_cases hnew : env.type = "core.grant"
  · obtain ⟨grant, expiresAt, -, -, hgrants⟩ := hr.granted hnew
    rw [hgrants, Dict.get?_set] at hrow
    by_cases hroot : root = env.rootId
    · rw [if_pos hroot] at hrow
      obtain rfl := Option.some.inj hrow
      exact ⟨_, h.get?_new, rfl, hnew, hroot.symm⟩
    · rw [if_neg hroot] at hrow
      exact hkept hrow fun _ => hroot
  · rw [hr.grants hnew] at hrow
    exact hkept hrow fun htype => absurd htype hnew

theorem Written.projected {req : Request} (h : Written req s t (seq + 1)) (hs : Projected s)
    (hledger : Ledger s seq) : Projected t := by
  obtain ⟨info, prev, eventStatus, hjoins, happended⟩ := h.joins
  have hrevises := h.revises hs hledger.toChained hjoins
  have ht := (h.ledger hledger).toChained
  obtain ⟨hcompanies, hmodules⟩ := hrevises.rows hs
  refine ⟨?_, ?_, hcompanies, hmodules, ?_, ?_, ?_⟩
  · exact fun id r hget hhead kind owner howner =>
      happended.projectedHead hrevises hjoins hs hget hhead howner
  · exact fun kind owner id hpoints => happended.projectedIdentity hrevises hjoins hs hpoints
  · exact fun keyId row hrow => hrevises.owner hs hrow
  · exact fun id r hget hhead htype => happended.projectedGrant hrevises hs ht hget hhead htype
  · exact fun root row hrow => happended.projectedGrantHead hrevises hjoins hs hrow

theorem Revises.keysKept (hr : Revises env prev s t) : KeysKept s t := by
  intro keyId row hrow
  cases hr.identified with
  | other hnone hkeys =>
    rw [hkeys]
    exact ⟨row, hrow, ⟨rfl, rfl⟩, id⟩
  | revised hsome hsynced => exact hsynced.kept hrow

/-- A record of an identity tells which. -/
theorem Valid.identityOf_ne_none (h : Valid env info) (hidentity : isIdentity env.type) :
    identityOf env ≠ none := by
  rcases hidentity with htype | htype
  · rw [identityOf_company htype]
    exact nofun
  · obtain ⟨moduleId, hmodule⟩ := Option.isSome_iff_exists.mp (h.readable.2.1 htype)
    rw [identityOf_module htype hmodule]
    exact nofun

/-- Keys that revisions took back are revoked after one more record. -/
theorem Written.withdrawn {req : Request} (h : Written req s t (seq + 1)) (hs : Projected s)
    (hledger : Ledger s seq) (hw : Withdrawn s) : Withdrawn t := by
  obtain ⟨info, prev, eventStatus, hjoins, happended⟩ := h.joins
  have hrevises := h.revises hs hledger.toChained hjoins
  intro id r p q hr hsup hq hidentity keyId hlists hgone
  by_cases hid : id = req.input.recordId
  · subst hid
    obtain rfl := Option.some.inj (happended.get?_new.symm.trans hr)
    have hprev := hjoins.supersedes
    rw [show req.input.supersedes = some p from hsup] at hprev
    obtain ⟨q₀, hq₀, rfl⟩ := Option.map_eq_some_iff.mp hprev.symm
    obtain ⟨hstored, hcontinues, -⟩ := hjoins.target q₀ hq₀
    have hbody : q.body = q₀.body := by
      obtain rfl := Option.some.inj ((happended.get?_old hstored).2.symm.trans hq)
      exact congrArg Envelope.body (toEnvelope_ite _ q₀).1
    rw [hbody] at hlists
    cases hrevises.identified with
    | other hnone =>
      exact absurd hnone (hjoins.valid.identityOf_ne_none hidentity)
    | @revised kind owner hsome hsynced =>
      have hpoints := hs.points _ q₀ hstored hcontinues.isHead kind owner
        ((hrevises.same q₀ hq₀).trans hsome)
      obtain ⟨q₁, hq₁, -, -, hmatch⟩ := hs.identity kind owner _ hpoints
      obtain rfl := Option.some.inj (hstored.symm.trans hq₁)
      obtain ⟨k, hk, rfl, -⟩ := hlists
      obtain ⟨row, hrow, howned, -⟩ := hmatch.listed k hk
      exact hsynced.revoked hrow howned hgone
  · obtain ⟨r₀, hr₀, henv, -, -⟩ := happended.old_of_ne hr hid
    rw [henv] at hsup hidentity hgone
    obtain ⟨q₀, hq₀, -⟩ := hledger.linked id r₀ hr₀ p hsup
    have hbody : q.body = q₀.body := by
      obtain rfl := Option.some.inj ((happended.get?_old hq₀).2.symm.trans hq)
      exact congrArg Envelope.body (toEnvelope_ite _ q₀).1
    rw [hbody] at hlists
    exact hrevises.keysKept.revoked
      (hw id r₀ p q₀ hr₀ hsup hq₀ hidentity keyId hlists hgone)

/-- What holds of every committed state, `n` being the last number drawn before it. -/
structure Standing (db : Db) (n : ℕ) : Prop extends Ledger db n, Projected db where
  withdrawn : Withdrawn db

theorem Written.extends {req : Request} {n : ℕ} (h : Written req s t (n + 1))
    (hs : Standing s n) : Extends s n t := by
  obtain ⟨info, prev, eventStatus, hjoins, happended⟩ := h.joins
  refine ⟨⟨_, happended.events, ?_⟩, ?_, (h.revises hs.toProjected hs.toChained hjoins).keysKept⟩
  · intro e he
    rw [List.mem_singleton.mp he]
    exact Nat.lt_succ_self n
  · intro id r hr
    obtain ⟨henv, hseq, -⟩ := toEnvelope_ite (prev.map (·.recordId) = some id) r
    exact ⟨_, (happended.get?_old hr).2, henv, hseq⟩

theorem Written.standing {req : Request} {n : ℕ} (h : Written req s t (n + 1))
    (hs : Standing s n) : Standing t (n + 1) :=
  ⟨h.ledger hs.toLedger, h.projected hs.toProjected hs.toLedger,
    h.withdrawn hs.toProjected hs.toLedger hs.withdrawn⟩

theorem standing_empty : Standing Db.empty 0 :=
  ⟨ledger_empty 0, projected_empty, fun _ _ _ _ h => nomatch h⟩

/-- What requests leave behind stands, and extends what was there before them. -/
theorem Standing.serially {n m : ℕ} (hs : Standing s n) (h : Serially Writer s n t m) :
    Standing t m ∧ Extends s n t ∧ n ≤ m := by
  refine h.invariant (P := fun t m => Standing t m ∧ Extends s n t ∧ n ≤ m) ?_ ?_
    ⟨hs, .refl s n, Nat.le_refl n⟩
  · intro p t k a u k' hp hrun ht
    obtain ⟨hstanding, hextends, hle⟩ := ht
    rcases hstanding.toLedger.runs hp hrun with ⟨-, rfl, rfl⟩ | ⟨-, rfl, req, -, hwritten⟩
    · exact ⟨hstanding, hextends, hle⟩
    · exact ⟨hwritten.standing hstanding, hextends.trans hle (hwritten.extends hstanding),
        Nat.le_succ_of_le hle⟩
  · intro t k k' hkk' ht
    obtain ⟨hstanding, hextends, hle⟩ := ht
    exact ⟨⟨hstanding.toLedger.mono hkk', hstanding.toProjected, hstanding.withdrawn⟩, hextends,
      Nat.le_trans hle hkk'⟩

/-- What is committed at two moments of a run. -/
theorem standing_of_reaches {ι β : Type} [DecidableEq ι]
    {readers : Query Db StoreError β → Prop} {w w' : World ι Db StoreError WriteResult β}
    (h : Reaches Writer readers (World.start Db.empty 0) w) (h' : Reaches Writer readers w w') :
    ∃ n n', Atomic Writer readers w n ∧ Standing w.committed n ∧ Standing w'.committed n' ∧
      Extends w.committed n w'.committed := by
  obtain ⟨n, hatomic, hserial, -⟩ := h.atomic (atomic_start Db.empty 0)
  obtain ⟨hstanding, -⟩ := standing_empty.serially hserial
  obtain ⟨n', -, hserial', -⟩ := h'.atomic hatomic
  obtain ⟨hstanding', hextends, -⟩ := hstanding.serially hserial'
  exact ⟨n, n', hatomic, hstanding, hstanding', hextends⟩

end

/-- However requests interleave, keys and grants are what the heads of their chains state, and a
key that is revoked is never active again. -/
theorem projections_match [Platform] {ι β : Type} [DecidableEq ι]
    {readers : Query Db StoreError β → Prop} {w w' : World ι Db StoreError WriteResult β}
    (h : Reaches Writer readers (World.start Db.empty 0) w) (h' : Reaches Writer readers w w') :
    Projected w.committed ∧ ∀ keyId row, w.committed.keys.get? keyId = some row →
      row.status = .revoked →
      ∃ row', w'.committed.keys.get? keyId = some row' ∧ row'.status = .revoked := by
  obtain ⟨n, n', -, hstanding, -, hextends⟩ := standing_of_reaches h h'
  refine ⟨hstanding.toProjected, ?_⟩
  intro keyId row hrow hrevoked
  obtain ⟨row', hrow', -, hkept⟩ := hextends.keys keyId row hrow
  exact ⟨row', hrow', hkept hrevoked⟩

/-- The key that the sample's company dropped is revoked, and so is its grant. -/
def droppedRevoked (db : Db) : Bool :=
  (db.keys.get? droppedKey).any (·.status == .revoked) &&
    (db.grants.get? grantRoot).any (·.status == .revoked)

theorem projections_match_sample : letI := samplePlatform
    ∃ w : World ℕ Db StoreError WriteResult Empty,
      Reaches Writer (fun _ => False) (World.start Db.empty 0) w ∧ Projected w.committed ∧
        ∃ row, w.committed.keys.get? droppedKey = some row ∧ row.status = .revoked := by
  let := samplePlatform
  obtain ⟨w, hreach, -, hcheck⟩ := sample_reaches (fun _ : Query Db StoreError Empty => False)
    droppedRevoked (by decide +kernel)
  obtain ⟨hprojected, hkept⟩ := projections_match hreach .refl
  rw [droppedRevoked, Bool.and_eq_true, Option.any_eq_true] at hcheck
  obtain ⟨⟨row, hrow, hrevoked⟩, -⟩ := hcheck
  exact ⟨w, hreach, hprojected, hkept droppedKey row hrow (beq_iff_eq.mp hrevoked)⟩

end DirectTrade.Store
