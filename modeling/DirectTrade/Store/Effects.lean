import DirectTrade.Store.Writing

/-!
What an accepted request has checked and leaves behind. Each program is read back once: a record
and its event are appended, and the tables of identities and grants follow.
-/

namespace DirectTrade.Store

open Library Library.Outcome Library.Serial

theorem runs_check_bind {α β : Type} (x : Except StoreError α) (f : α → Program Db StoreError β)
    {s t : Db} {n m : ℕ} (b : β) :
    (check x >>= f).Runs s n b t m ↔ ∃ a, x = .ok a ∧ (f a).Runs s n b t m :=
  Program.runs_ofExcept_bind x f b

theorem runs_ask_bind {α β : Type} (q : Query Db StoreError α) (f : α → Program Db StoreError β)
    {s t : Db} {n m : ℕ} (b : β) :
    (ask q >>= f).Runs s n b t m ↔ ∃ a, q.eval s = .ok a ∧ (f a).Runs s n b t m :=
  Program.runs_query_bind q f b

/-- Only records and events differ. -/
structure SameIdentities (s t : Db) : Prop where
  companies : t.companies = s.companies
  modules : t.modules = s.modules
  keys : t.keys = s.keys
  grants : t.grants = s.grants

theorem insertEvent_runs {env : Envelope} {status : Option String} {s t : Db} {n m seq : ℕ}
    (h : (insertEvent env status).Runs s n seq t m) : seq = n + 1 ∧ m = n + 1 ∧
      t = { s with events := s.events ++ [eventRow env status (n + 1)],
                   records := s.records.modify env.recordId (RecordRow.numbered (n + 1)) } := by
  simp only [insertEvent, Program.runs_bind, Program.runs_next, Program.runs_write,
    Program.runs_pure, insertEventRow, setSeq, bind_eq_ok, demand_eq_ok, pure_eq_ok,
    exists_const] at h
  obtain ⟨_, _, _, ⟨rfl, rfl, rfl⟩, _, _, ⟨⟨-, -, rfl⟩, rfl⟩, _, _, ⟨⟨-, rfl⟩, rfl⟩, rfl, rfl,
    rfl⟩ := h
  exact ⟨rfl, rfl, rfl⟩

theorem supersedeHead_runs {prev : Option RecordRow} {s t : Db} {n m : ℕ} {u : Unit}
    (h : (supersedeHead prev).Runs s n u t m) : m = n ∧ SameIdentities s t ∧
      t.events = s.events ∧ ∀ id, t.records.get? id = (s.records.get? id).map fun r =>
        if prev.map (·.recordId) = some id then r.superseded else r := by
  cases prev with
  | none =>
    obtain ⟨-, rfl, rfl⟩ := (Program.runs_pure ..).mp h
    refine ⟨rfl, ⟨rfl, rfl, rfl, rfl⟩, rfl, ?_⟩
    intro id
    simp
  | some r =>
    simp only [supersedeHead, Program.runs_write, supersede, pure_eq_ok] at h
    obtain ⟨rfl, rfl⟩ := h
    refine ⟨rfl, ⟨rfl, rfl, rfl, rfl⟩, rfl, ?_⟩
    intro id
    show (s.records.modify r.recordId RecordRow.superseded).get? id = _
    rw [Dict.get?_modify]
    by_cases hid : id = r.recordId
    · simp [hid]
    · simp [hid, Ne.symm hid]

section
variable [Platform]

/-- The row of a record once its event is there. -/
def storedRow (env : Envelope) (status : Option String) (seq : ℕ) : RecordRow :=
  (recordRow env status (Platform.payloadHash env)).numbered seq

/-- One record and one event more; the record that is superseded is no head any longer. -/
structure Appended (env : Envelope) (status eventStatus : Option String)
    (prev : Option RecordRow) (s t : Db) (seq : ℕ) : Prop where
  fresh : s.records.get? env.recordId = none
  oneSuccessor : env.supersedes = none ∨ ∀ r ∈ s.records.values, r.supersedes ≠ env.supersedes
  target : ∀ id, env.supersedes = some id → (s.records.get? id).isSome = true
  records : ∀ id, t.records.get? id = if id = env.recordId then some (storedRow env status seq)
    else (s.records.get? id).map fun r =>
      if prev.map (·.recordId) = some id then r.superseded else r
  events : t.events = s.events ++ [eventRow env eventStatus seq]

theorem insertRecord_runs {taken : StoreError} {env : Envelope} {status : Option String}
    {s t : Db} {n m : ℕ} {u : Unit} (h : (insertRecord taken env status).Runs s n u t m) :
    m = n ∧ s.records.get? env.recordId = none ∧
      (env.supersedes = none ∨ ∀ r ∈ s.records.values, r.supersedes ≠ env.supersedes) ∧
      (∀ id, env.supersedes = some id → (s.records.get? id).isSome = true) ∧
      t = { s with records :=
        (s.records.set env.recordId (recordRow env status (Platform.payloadHash env))) } := by
  simp only [insertRecord, Program.runs_write, insertRecordRow, bind_eq_ok, demand_eq_ok,
    pure_eq_ok, exists_const] at h
  obtain ⟨⟨hfresh, -, -, htarget, hone, rfl⟩, rfl⟩ := h
  exact ⟨rfl, hfresh, hone, htarget, rfl⟩

theorem Appended.mono {env : Envelope} {status eventStatus : Option String}
    {prev : Option RecordRow} {s s' t : Db} {seq : ℕ}
    (h : Appended env status eventStatus prev s' t seq) (hrecords : s'.records = s.records)
    (hevents : s'.events = s.events) : Appended env status eventStatus prev s t seq := by
  obtain ⟨h₁, h₂, h₃, h₄, h₅⟩ := h
  rw [hrecords] at h₁ h₂ h₃ h₄
  rw [hevents] at h₅
  exact ⟨h₁, h₂, h₃, h₄, h₅⟩

/-- The three statements that append a record. -/
theorem appended_of_runs {taken : StoreError} {env : Envelope}
    {status eventStatus : Option String} {prev : Option RecordRow}
    (hprev : ∀ r, prev = some r → r.recordId ≠ env.recordId) {s s₁ s₂ t : Db}
    {n n₁ n₂ m seq : ℕ} {u v : Unit}
    (hinsert : (insertRecord taken env status).Runs s n u s₁ n₁)
    (hhead : (supersedeHead prev).Runs s₁ n₁ v s₂ n₂)
    (hevent : (insertEvent env eventStatus).Runs s₂ n₂ seq t m) :
    seq = n + 1 ∧ m = n + 1 ∧ SameIdentities s t ∧
      Appended env status eventStatus prev s t (n + 1) := by
  obtain ⟨rfl, hfresh, hone, htarget, rfl⟩ := insertRecord_runs hinsert
  obtain ⟨rfl, hsame, hevents, hrecords⟩ := supersedeHead_runs hhead
  obtain ⟨rfl, rfl, rfl⟩ := insertEvent_runs hevent
  refine ⟨rfl, rfl, ⟨hsame.companies, hsame.modules, hsame.keys, hsame.grants⟩, hfresh, hone,
    htarget, ?_, ?_⟩
  · intro id
    show (s₂.records.modify env.recordId _).get? id = _
    rw [Dict.get?_modify, hrecords, hrecords, Dict.get?_set, Dict.get?_set]
    by_cases hid : id = env.recordId
    · have hother : prev.map (·.recordId) ≠ some env.recordId := by
        cases prev with
        | none => exact nofun
        | some r => exact fun heq => hprev r rfl (Option.some.inj heq)
      simp only [hid, if_true, Option.map_some, if_neg hother]
      rfl
    · simp only [if_neg hid]
  · show s₂.events ++ _ = _
    rw [hevents]

end

def KeyRow.owned (k : KeyRow) (kind : PrincipalKind) (ownerId : String) : Prop :=
  k.ownerKind = kind ∧ k.ownerId = ownerId

instance (k : KeyRow) (kind : PrincipalKind) (ownerId : String) :
    Decidable (k.owned kind ownerId) := inferInstanceAs (Decidable (_ ∧ _))

/-- The row that a listed key leaves; a row before it was the owner's, and not revoked unless the
key still is. -/
structure SyncedAt (kind : PrincipalKind) (ownerId : String) (k : KeyEntry)
    (before : Option KeyRow) (row : KeyRow) : Prop where
  keyId : row.keyId = k.keyId
  owned : row.owned kind ownerId
  role : row.role = k.role
  status : row.status = k.status
  same : ∀ old, before = some old → old.owned kind ownerId ∧
    (old.status = .revoked → k.status = .revoked)

/-- The key table follows the list of one owner: what is listed stands as listed, other keys of
the owner are revoked, and the keys of others stay. -/
structure Synced (kind : PrincipalKind) (ownerId : String) (keys : List KeyEntry)
    (before after : Dict String KeyRow) : Prop where
  listed : ∀ k ∈ keys, ∃ row, after.get? k.keyId = some row ∧
    SyncedAt kind ownerId k (before.get? k.keyId) row
  unlisted : ∀ keyId, keyId ∉ keys.map KeyEntry.keyId → after.get? keyId =
    (before.get? keyId).map fun row => if row.owned kind ownerId then row.revoked else row

/-- Only keys differ. -/
structure OnlyKeys (s t : Db) : Prop where
  companies : t.companies = s.companies
  modules : t.modules = s.modules
  records : t.records = s.records
  grants : t.grants = s.grants
  events : t.events = s.events

theorem OnlyKeys.refl (s : Db) : OnlyKeys s s := ⟨rfl, rfl, rfl, rfl, rfl⟩

theorem OnlyKeys.trans {s t u : Db} (h : OnlyKeys s t) (h' : OnlyKeys t u) : OnlyKeys s u :=
  ⟨h'.companies.trans h.companies, h'.modules.trans h.modules, h'.records.trans h.records,
    h'.grants.trans h.grants, h'.events.trans h.events⟩

theorem insertKey_runs {taken : StoreError} {row : KeyRow} {s t : Db} {n m : ℕ} {u : Unit}
    (h : (Program.write (insertKey taken row) : Handler Unit).Runs s n u t m) :
    m = n ∧ OnlyKeys s t ∧ s.keys.get? row.keyId = none ∧
      ∀ keyId, t.keys.get? keyId = if keyId = row.keyId then some row else s.keys.get? keyId := by
  simp only [Program.runs_write, insertKey, bind_eq_ok, demand_eq_ok, pure_eq_ok,
    exists_const] at h
  obtain ⟨⟨hnone, -, rfl⟩, rfl⟩ := h
  exact ⟨rfl, ⟨rfl, rfl, rfl, rfl, rfl⟩, hnone, fun keyId => Dict.get?_set ..⟩

/-- An owner's key that is listed no more. -/
theorem dropKey_runs {listed : List String} {k : KeyRow} {s t : Db} {n m : ℕ} {u : Unit}
    (h : (dropKey listed k).Runs s n u t m) : m = n ∧ OnlyKeys s t ∧
      ∀ keyId, t.keys.get? keyId = (s.keys.get? keyId).map fun row =>
        if keyId = k.keyId ∧ keyId ∉ listed ∧ k.status = .active then row.revoked else row := by
  simp only [dropKey, Program.runs_onlyIf, Program.runs_write, revokeKey, pure_eq_ok] at h
  rcases h with ⟨⟨hlisted, hactive⟩, rfl, rfl⟩ | ⟨hkept, rfl, rfl⟩
  · refine ⟨rfl, ⟨rfl, rfl, rfl, rfl, rfl⟩, fun keyId => ?_⟩
    show (s.keys.modify k.keyId KeyRow.revoked).get? keyId = _
    rw [Dict.get?_modify]
    by_cases hid : keyId = k.keyId
    · simp [hid, hlisted, hactive]
    · simp [hid]
  · refine ⟨rfl, .refl _, fun keyId => ?_⟩
    have hnever : ¬ (keyId = k.keyId ∧ keyId ∉ listed ∧ k.status = .active) := by
      rintro ⟨rfl, hgone⟩
      exact hkept hgone
    simp [hnever]

theorem dropKeys_runs {listed : List String} {rows : List KeyRow} {s t : Db} {n m : ℕ}
    {us : List Unit} (h : (Program.forEach (dropKey listed) rows).Runs s n us t m) :
    m = n ∧ OnlyKeys s t ∧ ∀ keyId, t.keys.get? keyId = (s.keys.get? keyId).map fun row =>
      if keyId ∉ listed ∧ ∃ k ∈ rows, k.keyId = keyId ∧ k.status = .active then row.revoked
      else row := by
  induction rows generalizing s n us with
  | nil =>
    obtain ⟨-, rfl, rfl⟩ := (Program.runs_forEach_nil ..).mp h
    exact ⟨rfl, .refl _, fun keyId => by simp⟩
  | cons k rest ih =>
    obtain ⟨_, s₁, n₁, hfirst, _, s₂, n₂, hrest, -, rfl, rfl⟩ :=
      (Program.runs_forEach_cons ..).mp h
    obtain ⟨rfl, hframe, hkeys⟩ := dropKey_runs hfirst
    obtain ⟨rfl, hframe', hkeys'⟩ := ih hrest
    refine ⟨rfl, hframe.trans hframe', fun keyId => ?_⟩
    rw [hkeys', hkeys, Option.map_map]
    congr 1
    funext row
    simp only [Function.comp_apply, List.exists_mem_cons_iff]
    by_cases hlisted : keyId ∈ listed
    · simp [hlisted]
    · by_cases hk : k.keyId = keyId ∧ k.status = .active
      · by_cases hr : ∃ k ∈ rest, k.keyId = keyId ∧ k.status = .active
        · simp [hlisted, hk, hr, KeyRow.revoked]
        · simp [hlisted, hk, hr]
      · have hk' : ¬ (keyId = k.keyId ∧ keyId ∉ listed ∧ k.status = .active) :=
          fun hall => hk ⟨hall.1.symm, hall.2.2⟩
        simp only [if_neg hk', hk, false_or]

section
variable [Platform]

/-- One listed key whose row is still as it was before the list was gone through. -/
theorem syncKey_runs {kind : PrincipalKind} {ownerId : String} {minted : String → String}
    {before : Dict String KeyRow} (hnamed : before.Named KeyRow.keyId) {k : KeyEntry} {s t : Db}
    (hcur : s.keys.get? k.keyId = before.get? k.keyId) {n m : ℕ}
    {token : Option (String × String)}
    (h : (syncKey kind ownerId minted (before.values.filter fun k => k.ownerKind == kind &&
      k.ownerId == ownerId) k).Runs s n token t m) :
    m = n ∧ OnlyKeys s t ∧
      (∃ row, t.keys.get? k.keyId = some row ∧
        SyncedAt kind ownerId k (before.get? k.keyId) row) ∧
      ∀ keyId, keyId ≠ k.keyId → t.keys.get? keyId = s.keys.get? keyId := by
  unfold syncKey at h
  cases hfind : (before.values.filter fun k => k.ownerKind == kind &&
      k.ownerId == ownerId).find? (·.keyId == k.keyId) with
  | none =>
    rw [hfind] at h
    simp only [ask, check, Program.runs_bind, Program.runs_query, Query.eval_read,
      Except.ok.injEq, Program.runs_ofExcept, demand_eq_ok, Program.runs_pure] at h
    obtain ⟨_, _, _, ⟨rfl, rfl, rfl⟩, _, _, _, ⟨hforeign, rfl, rfl⟩, _, _, _, hinsert, -, rfl,
      rfl⟩ := h
    obtain ⟨rfl, hframe, hnone, hkeys⟩ := insertKey_runs hinsert
    refine ⟨rfl, hframe, ⟨keyRow kind ownerId minted k, ?_, rfl, ⟨rfl, rfl⟩, rfl, rfl, ?_⟩, ?_⟩
    · rw [hkeys]
      exact if_pos rfl
    · intro old hold
      rw [← hcur, show s.keys.get? k.keyId = none from hnone] at hold
      cases hold
    · intro keyId hne
      rw [hkeys]
      exact if_neg hne
  | some cur =>
    rw [hfind] at h
    have hkey : cur.keyId = k.keyId := by
      have hkey := List.find?_some hfind
      exact beq_iff_eq.mp hkey
    have hmem := List.mem_of_find?_eq_some hfind
    rw [List.mem_filter, Bool.and_eq_true, beq_iff_eq, beq_iff_eq, Dict.mem_values_iff] at hmem
    obtain ⟨⟨id, hget⟩, howned⟩ := hmem
    have hid : k.keyId = id := hkey.symm.trans (hnamed id cur hget)
    subst hid
    simp only [check, Program.runs_bind, Program.runs_ofExcept, demand_eq_ok,
      Program.runs_onlyIf, Program.runs_write, revokeKey, setKeyRole, Program.runs_pure,
      pure_eq_ok] at h
    obtain ⟨_, s₁, n₁, hrevoke, _, _, _, ⟨hkept, rfl, rfl⟩, _, s₂, n₂, hrole, -, rfl, rfl⟩ := h
    -- the row after the first of the two updates
    have hfirst : n₁ = n ∧ OnlyKeys s s₁ ∧
        s₁.keys.get? k.keyId = some { cur with status := k.status } ∧
        ∀ keyId, keyId ≠ k.keyId → s₁.keys.get? keyId = s.keys.get? keyId := by
      rcases hrevoke with ⟨⟨hactive, hrevoked⟩, rfl, rfl⟩ | ⟨hsame, rfl, rfl⟩
      · refine ⟨rfl, ⟨rfl, rfl, rfl, rfl, rfl⟩, ?_, fun keyId hne => ?_⟩
        · rw [Dict.get?_modify, if_pos rfl, hcur, hget, hrevoked]
          rfl
        · exact Dict.get?_modify_of_ne _ _ hne
      · have hstatus : k.status = cur.status := by
          cases hk : k.status with
          | active =>
            cases hc : cur.status with
            | active => rfl
            | revoked => exact absurd ⟨hc, hk⟩ hkept
          | revoked =>
            cases hc : cur.status with
            | active => exact absurd ⟨hc, hk⟩ hsame
            | revoked => rfl
        refine ⟨rfl, .refl _, ?_, fun _ _ => rfl⟩
        rw [hcur, hget, hstatus]
    obtain ⟨rfl, hframe, hrow, hothers⟩ := hfirst
    have hsame : ∀ old, before.get? k.keyId = some old → old.owned kind ownerId ∧
        (old.status = .revoked → k.status = .revoked) := by
      intro old hold
      obtain rfl := Option.some.inj (hget.symm.trans hold)
      refine ⟨howned, fun hrevoked => ?_⟩
      cases hk : k.status with
      | revoked => rfl
      | active => exact absurd ⟨hrevoked, hk⟩ hkept
    rcases hrole with ⟨-, rfl, rfl⟩ | ⟨heq, rfl, rfl⟩
    · refine ⟨rfl, hframe.trans ⟨rfl, rfl, rfl, rfl, rfl⟩,
        ⟨{ cur with status := k.status, role := k.role }, ?_, hkey, howned, rfl, rfl, hsame⟩, ?_⟩
      · rw [Dict.get?_modify, if_pos rfl, hrow]
        rfl
      · intro keyId hne
        rw [Dict.get?_modify_of_ne _ _ hne]
        exact hothers keyId hne
    · have hrole : cur.role = k.role := by
        by_contra hne
        exact heq hne
      exact ⟨rfl, hframe, ⟨_, hrow, hkey, howned, hrole, rfl, hsame⟩, hothers⟩

theorem syncListed_runs {kind : PrincipalKind} {ownerId : String} {minted : String → String}
    {before : Dict String KeyRow} (hnamed : before.Named KeyRow.keyId) {keys : List KeyEntry}
    (hkeys : (keys.map KeyEntry.keyId).Nodup) {s t : Db}
    (hcur : ∀ k ∈ keys, s.keys.get? k.keyId = before.get? k.keyId) {n m : ℕ}
    {tokens : List (Option (String × String))}
    (h : (Program.forEach (syncKey kind ownerId minted (before.values.filter fun k =>
      k.ownerKind == kind && k.ownerId == ownerId)) keys).Runs s n tokens t m) :
    m = n ∧ OnlyKeys s t ∧
      (∀ k ∈ keys, ∃ row, t.keys.get? k.keyId = some row ∧
        SyncedAt kind ownerId k (before.get? k.keyId) row) ∧
      ∀ keyId, keyId ∉ keys.map KeyEntry.keyId → t.keys.get? keyId = s.keys.get? keyId := by
  induction keys generalizing s n tokens with
  | nil =>
    obtain ⟨-, rfl, rfl⟩ := (Program.runs_forEach_nil ..).mp h
    exact ⟨rfl, .refl _, (fun k hk => nomatch hk), fun _ _ => rfl⟩
  | cons k rest ih =>
    obtain ⟨_, s₁, n₁, hfirst, _, s₂, n₂, hrest, -, rfl, rfl⟩ :=
      (Program.runs_forEach_cons ..).mp h
    rw [List.map_cons, List.nodup_cons] at hkeys
    obtain ⟨rfl, hframe, ⟨row, hrow, hsynced⟩, hothers⟩ :=
      syncKey_runs hnamed (hcur k (List.mem_cons_self ..)) hfirst
    have hne : ∀ k' ∈ rest, k'.keyId ≠ k.keyId := by
      intro k' hk' heq
      exact hkeys.1 (heq ▸ List.mem_map_of_mem hk')
    obtain ⟨rfl, hframe', hlisted, hothers'⟩ := ih hkeys.2
      (fun k' hk' => (hothers k'.keyId (hne k' hk')).trans
        (hcur k' (List.mem_cons_of_mem _ hk'))) hrest
    refine ⟨rfl, hframe.trans hframe', ?_, ?_⟩
    · intro k' hk'
      cases List.mem_cons.mp hk' with
      | inl heq =>
        subst heq
        exact ⟨row, (hothers' k'.keyId hkeys.1).trans hrow, hsynced⟩
      | inr hk' => exact hlisted k' hk'
    · intro keyId hgone
      rw [List.map_cons, List.mem_cons, not_or] at hgone
      rw [hothers' keyId hgone.2, hothers keyId hgone.1]

/-- The key table follows the list of a record. -/
theorem syncKeys_runs {kind : PrincipalKind} {ownerId : String} {body : Json}
    {prev : Option Json} {p : Principal} {minted : String → String} {s t : Db} {n m : ℕ}
    {tokens : List (String × String)} (hnamed : s.keys.Named KeyRow.keyId)
    (hkeys : ((keysOf body).map KeyEntry.keyId).Nodup)
    (h : (syncKeys kind ownerId body prev p minted).Runs s n tokens t m) :
    m = n ∧ OnlyKeys s t ∧ hasActiveRoot (keysOf body) ∧
      Synced kind ownerId (keysOf body) s.keys t.keys := by
  simp only [syncKeys, check, ask, Program.runs_bind, Program.runs_ofExcept, demand_eq_ok,
    Program.runs_query, Query.eval_read, Except.ok.injEq, Program.runs_pure] at h
  obtain ⟨_, _, _, ⟨hroot, rfl, rfl⟩, _, _, _, ⟨-, rfl, rfl⟩, _, _, _, ⟨rfl, rfl, rfl⟩, _, s₁, n₁,
    hsync, _, s₂, n₂, hdrop, -, rfl, rfl⟩ := h
  obtain ⟨rfl, hframe, hlisted, hothers⟩ := syncListed_runs hnamed hkeys (fun _ _ => rfl) hsync
  obtain ⟨rfl, hframe', hdropped⟩ := dropKeys_runs hdrop
  refine ⟨rfl, hframe.trans hframe', hroot, ?_, ?_⟩
  · intro k hk
    obtain ⟨row, hrow, hsynced⟩ := hlisted k hk
    refine ⟨row, ?_, hsynced⟩
    rw [hdropped, hrow]
    simp [List.mem_map_of_mem hk]
  · intro keyId hgone
    rw [hdropped, hothers keyId hgone]
    cases hrow : s.keys.get? keyId with
    | none => rfl
    | some row =>
      have hkey : row.keyId = keyId := hnamed keyId row hrow
      rw [Option.map_some, Option.map_some, Option.some.injEq]
      by_cases howned : row.owned kind ownerId
      · rw [if_pos howned]
        by_cases hactive : row.status = .active
        · have hmem : row ∈ s.keys.values.filter fun k =>
              k.ownerKind == kind && k.ownerId == ownerId := by
            rw [List.mem_filter, Bool.and_eq_true, beq_iff_eq, beq_iff_eq]
            exact ⟨Dict.mem_values_of_get? hrow, howned⟩
          rw [if_pos ⟨hgone, row, hmem, hkey, hactive⟩]
        · -- a revoked row is as it would be revoked
          have hrevoked : row.revoked = row := by
            cases hs : row.status with
            | active => exact absurd hs hactive
            | revoked =>
              unfold KeyRow.revoked
              rw [← hs]
          rw [hrevoked, ite_self]
      · rw [if_neg howned, if_neg]
        rintro ⟨-, k, hk, hkid, -⟩
        rw [List.mem_filter, Bool.and_eq_true, beq_iff_eq, beq_iff_eq, Dict.mem_values_iff] at hk
        obtain ⟨⟨id, hget⟩, hk⟩ := hk
        have hid : id = keyId := (hnamed id k hget).symm.trans hkid
        subst hid
        obtain rfl := Option.some.inj (hget.symm.trans hrow)
        exact howned hk

/-- The keys of a new identity, none of which was there. -/
theorem insertKeys_runs {taken : StoreError} {kind : PrincipalKind} {ownerId : String}
    {minted : String → String} {keys : List KeyEntry} {s t : Db} {n m : ℕ}
    {tokens : List (String × String)}
    (h : (insertKeys taken kind ownerId minted keys).Runs s n tokens t m) :
    m = n ∧ OnlyKeys s t ∧
      (∀ k ∈ keys, s.keys.get? k.keyId = none ∧
        t.keys.get? k.keyId = some (keyRow kind ownerId minted k)) ∧
      ∀ keyId, keyId ∉ keys.map KeyEntry.keyId → t.keys.get? keyId = s.keys.get? keyId := by
  simp only [insertKeys, Program.runs_bind, Program.runs_pure] at h
  obtain ⟨fresh, s₁, n₁, h, -, rfl, rfl⟩ := h
  induction keys generalizing s n fresh with
  | nil =>
    obtain ⟨-, rfl, rfl⟩ := (Program.runs_forEach_nil ..).mp h
    exact ⟨rfl, .refl _, (by intro k hk; cases hk), fun _ _ => rfl⟩
  | cons k rest ih =>
    obtain ⟨_, s₂, n₂, hfirst, _, s₃, n₃, hrest, -, rfl, rfl⟩ :=
      (Program.runs_forEach_cons ..).mp h
    simp only [Program.runs_bind, Program.runs_pure] at hfirst
    obtain ⟨_, _, _, hinsert, -, rfl, rfl⟩ := hfirst
    obtain ⟨rfl, hframe, hnone, hkeys⟩ := insertKey_runs hinsert
    obtain ⟨rfl, hframe', hlisted, hothers⟩ := ih _ hrest
    have hself : ∀ k' ∈ rest, k'.keyId ≠ k.keyId := by
      intro k' hk' heq
      have hgone := (hlisted k' hk').1
      rw [hkeys, heq] at hgone
      cases (if_pos rfl).symm.trans hgone
    have hunlisted : k.keyId ∉ rest.map KeyEntry.keyId := by
      intro hmem
      obtain ⟨k', hk', heq⟩ := List.mem_map.mp hmem
      exact hself k' hk' heq
    refine ⟨rfl, hframe.trans hframe', ?_, ?_⟩
    · intro k' hk'
      cases List.mem_cons.mp hk' with
      | inl heq =>
        subst heq
        refine ⟨hnone, ?_⟩
        rw [hothers k'.keyId hunlisted, hkeys]
        exact if_pos rfl
      | inr hk' =>
        obtain ⟨hgone, hrow⟩ := hlisted k' hk'
        rw [hkeys, show (keyRow kind ownerId minted k).keyId = k.keyId from rfl,
          if_neg (hself k' hk')] at hgone
        exact ⟨hgone, hrow⟩
    · intro keyId hgone
      rw [List.map_cons, List.mem_cons, not_or] at hgone
      rw [hothers keyId hgone.2, hkeys]
      exact if_neg hgone.1

/-- A new owner's keys are in line with its list. -/
theorem synced_of_inserted {kind : PrincipalKind} {ownerId : String} {minted : String → String}
    {keys : List KeyEntry} {before after : Dict String KeyRow}
    (hnew : ∀ keyId row, before.get? keyId = some row → ¬ row.owned kind ownerId)
    (hlisted : ∀ k ∈ keys, before.get? k.keyId = none ∧
      after.get? k.keyId = some (keyRow kind ownerId minted k))
    (hothers : ∀ keyId, keyId ∉ keys.map KeyEntry.keyId → after.get? keyId = before.get? keyId) :
    Synced kind ownerId keys before after := by
  refine ⟨?_, ?_⟩
  · intro k hk
    obtain ⟨hnone, hrow⟩ := hlisted k hk
    refine ⟨_, hrow, rfl, ⟨rfl, rfl⟩, rfl, rfl, ?_⟩
    intro old hold
    exact nomatch hnone.symm.trans hold
  · intro keyId hgone
    rw [hothers keyId hgone]
    cases hrow : before.get? keyId with
    | none => rfl
    | some row => rw [Option.map_some, if_neg (hnew keyId row hrow)]

/-- What a record changes in the tables beside records and events. -/
structure Hooked (env : Envelope) (prev : Option RecordRow) (s t : Db) : Prop where
  company : env.type = "core.company" → env.subjectCompanyId = env.issuer.companyId ∧
    env.issuer.moduleId = none ∧
    Synced .company env.subjectCompanyId (keysOf env.body) s.keys t.keys ∧
    t.companies = s.companies.modify env.subjectCompanyId
      fun c => { c with headRecordId := some env.recordId }
  companies : env.type ≠ "core.company" → t.companies = s.companies
  module : env.type = "core.module" → ∃ moduleId, text? env.body "module_id" = some moduleId ∧
    (∀ r, prev = some r → r.body.member? "module_id" = some (.str moduleId)) ∧
    Synced .module moduleId (keysOf env.body) s.keys t.keys ∧
    t.modules = s.modules.modify moduleId
      fun c => { c with headRecordId := some env.recordId }
  modules : env.type ≠ "core.module" → t.modules = s.modules
  keys : ¬ isIdentity env.type → t.keys = s.keys
  grant : env.type = "core.grant" → env.subjectCompanyId = env.issuer.companyId ∧
    ∃ grant expiresAt, readGrant env.body = some grant ∧ expiry grant = .ok expiresAt ∧
      (∀ r, prev = some r → r.body.member? "module_id" = some (.str grant.moduleId)) ∧
      ∃ row, t.grants = s.grants.set env.rootId row ∧
        ((s.grants.get? env.rootId = none ∧ row = grantRow env grant expiresAt) ∨
          ∃ old, s.grants.get? env.rootId = some old ∧
            row = old.update (grantRow env grant expiresAt))
  grants : env.type ≠ "core.grant" → t.grants = s.grants

theorem Hooked.mono {env : Envelope} {prev : Option RecordRow} {s s' t : Db}
    (hsame : SameIdentities s s') (h : Hooked env prev s' t) : Hooked env prev s t := by
  obtain ⟨h₁, h₂, h₃, h₄, h₅, h₆, h₇⟩ := h
  rw [hsame.companies, hsame.keys] at h₁
  rw [hsame.companies] at h₂
  rw [hsame.modules, hsame.keys] at h₃
  rw [hsame.modules] at h₄
  rw [hsame.keys] at h₅
  rw [hsame.grants] at h₆ h₇
  exact ⟨h₁, h₂, h₃, h₄, h₅, h₆, h₇⟩

theorem companyHook_runs {ctx : Context} {p : Principal} {env : Envelope}
    {prev : Option RecordRow} {s t : Db} {n m : ℕ} {tokens : List (String × String)}
    (hnamed : s.keys.Named KeyRow.keyId) (htype : env.type = "core.company")
    (hkeys : ((keysOf env.body).map KeyEntry.keyId).Nodup)
    (h : (companyHook ctx p env prev).Runs s n tokens t m) :
    m = n ∧ t.records = s.records ∧ t.events = s.events ∧ Hooked env prev s t := by
  simp only [companyHook, check, Program.runs_bind, Program.runs_ofExcept, demand_eq_ok,
    Program.runs_write, setCompanyHead, pure_eq_ok, Program.runs_pure] at h
  obtain ⟨_, _, _, ⟨⟨hself, hmodule⟩, rfl, rfl⟩, _, s₁, n₁, hsync, _, _, _, ⟨rfl, rfl⟩, -, rfl,
    rfl⟩ := h
  obtain ⟨rfl, hframe, -, hsynced⟩ := syncKeys_runs hnamed hkeys hsync
  refine ⟨rfl, hframe.records, hframe.events, ?_⟩
  constructor
  · intro _
    refine ⟨hself, hmodule, hsynced, ?_⟩
    rw [← hframe.companies]
  · exact fun hne => absurd htype hne
  · intro hother
    rw [htype] at hother
    exact absurd hother (by decide)
  · exact fun _ => hframe.modules
  · exact fun hne => absurd (.inl htype) hne
  · intro hother
    rw [htype] at hother
    exact absurd hother (by decide)
  · exact fun _ => hframe.grants

theorem moduleHook_runs {ctx : Context} {p : Principal} {env : Envelope}
    {prev : Option RecordRow} {s t : Db} {n m : ℕ} {tokens : List (String × String)}
    (hnamed : s.keys.Named KeyRow.keyId) (htype : env.type = "core.module")
    (hkeys : ((keysOf env.body).map KeyEntry.keyId).Nodup)
    (hmodule : (text? env.body "module_id").isSome = true)
    (h : (moduleHook ctx p env prev).Runs s n tokens t m) :
    m = n ∧ t.records = s.records ∧ t.events = s.events ∧ Hooked env prev s t := by
  obtain ⟨moduleId, hmodule⟩ := Option.isSome_iff_exists.mp hmodule
  unfold moduleHook at h
  simp only [↓runs_check_bind, ↓Program.runs_write_bind, Program.runs_bind, demand_eq_ok,
    setModuleHead, pure_eq_ok, Program.runs_pure, hmodule, Option.getD_some] at h
  obtain ⟨_, hsame, _, s₁, n₁, hsync, _, rfl, -, rfl, rfl⟩ := h
  obtain ⟨rfl, hframe, -, hsynced⟩ := syncKeys_runs hnamed hkeys hsync
  refine ⟨rfl, hframe.records, hframe.events, ?_⟩
  constructor
  · intro hother
    rw [htype] at hother
    exact absurd hother (by decide)
  · exact fun _ => hframe.companies
  · intro _
    refine ⟨moduleId, hmodule, hsame, hsynced, ?_⟩
    rw [← hframe.modules]
  · exact fun hne => absurd htype hne
  · exact fun hne => absurd (.inr htype) hne
  · intro hother
    rw [htype] at hother
    exact absurd hother (by decide)
  · exact fun _ => hframe.grants

theorem grantHook_runs {env : Envelope} {prev : Option RecordRow} {s t : Db} {n m : ℕ} {u : Unit}
    (htype : env.type = "core.grant") (h : (grantHook env prev).Runs s n u t m) :
    m = n ∧ t.records = s.records ∧ t.events = s.events ∧ Hooked env prev s t := by
  simp only [grantHook, runs_check_bind, runs_ask_bind, demand_eq_ok, require_eq_ok,
    Query.eval_read, Except.ok.injEq, Program.runs_write, upsertGrant, bind_eq_ok,
    pure_eq_ok] at h
  obtain ⟨_, hself, grant, hgrant, _, -, _, -, _, hsame, expiresAt, hexpiry,
    ⟨_, -, _, -, _, -, rfl⟩, rfl⟩ := h
  refine ⟨rfl, rfl, rfl, ?_⟩
  constructor
  · intro hother
    rw [htype] at hother
    exact absurd hother (by decide)
  · exact fun _ => rfl
  · intro hother
    rw [htype] at hother
    exact absurd hother (by decide)
  · exact fun _ => rfl
  · exact fun _ => rfl
  · intro _
    refine ⟨hself, grant, expiresAt, hgrant, hexpiry, hsame, _, rfl, ?_⟩
    cases hold : s.grants.get? env.rootId with
    | none => exact .inl ⟨rfl, by simp [grantRow, hold]⟩
    | some old => exact .inr ⟨old, rfl, by simp [grantRow, hold]⟩
  · exact fun hne => absurd htype hne

theorem runHooks_runs {ctx : Context} {p : Principal} {env : Envelope} {info : TypeInfo}
    {prev : Option RecordRow} {s t : Db} {n m : ℕ} {tokens : List (String × String)}
    (hvalid : Valid env info) (hnamed : s.keys.Named KeyRow.keyId)
    (h : (runHooks ctx p env prev).Runs s n tokens t m) :
    m = n ∧ t.records = s.records ∧ t.events = s.events ∧ Hooked env prev s t := by
  unfold runHooks at h
  by_cases hcompany : env.type = "core.company"
  · rw [if_pos hcompany] at h
    exact companyHook_runs hnamed hcompany (hvalid.keyIds (.inl hcompany)) h
  by_cases hmodule : env.type = "core.module"
  · rw [if_neg hcompany, if_pos hmodule] at h
    exact moduleHook_runs hnamed hmodule (hvalid.keyIds (.inr hmodule))
      (hvalid.readable.2.1 hmodule) h
  by_cases hgrant : env.type = "core.grant"
  · rw [if_neg hcompany, if_neg hmodule, if_pos hgrant] at h
    simp only [Program.runs_bind, Program.runs_pure] at h
    obtain ⟨_, _, _, h, -, rfl, rfl⟩ := h
    exact grantHook_runs hgrant h
  · rw [if_neg hcompany, if_neg hmodule, if_neg hgrant] at h
    obtain ⟨-, rfl, rfl⟩ := (Program.runs_pure ..).mp h
    exact ⟨rfl, rfl, rfl, fun heq => absurd heq hcompany, fun _ => rfl,
      fun heq => absurd heq hmodule, fun _ => rfl, fun _ => rfl, fun heq => absurd heq hgrant,
      fun _ => rfl⟩

end

/-- The rows of each table stand under their own keys. -/
structure Tidy (db : Db) : Prop where
  companies : db.companies.Named CompanyRow.id
  modules : db.modules.Named ModuleRow.id
  keys : db.keys.Named KeyRow.keyId
  records : db.records.Named (·.recordId)
  grants : db.grants.Named GrantRow.grantRootId

/-- The active grants that a caller holds. -/
def Db.grantsOf (db : Db) (p : Principal) : List GrantRow :=
  match p.kind with
  | .module =>
    db.grants.values.filter fun g => g.granteeModuleId == p.id && g.status == .active
  | .company => []

@[simp] theorem eval_grantsFor (p : Principal) (db : Db) :
    (grantsFor p).eval db = .ok (db.grantsOf p) := by
  unfold grantsFor Db.grantsOf
  cases p.kind with
  | company => rfl
  | module => rfl

@[simp] theorem eval_fetchRecordRow (recordId : String) (db : Db) :
    (fetchRecordRow recordId).eval db =
      .ok (if isUuidText recordId = true then db.record? recordId else none) := by
  unfold fetchRecordRow
  by_cases h : isUuidText recordId = true
  · rw [if_pos h, if_pos h, Query.eval_read]
  · rw [if_neg h, if_neg h, Query.eval_pure]

theorem get?_of_record? {db : Db} {recordId : String} {row : RecordRow × Option String}
    (h : db.record? recordId = some row) : db.records.get? recordId = some row.1 := by
  obtain ⟨r, hr, rfl⟩ := Option.map_eq_some_iff.mp h
  exact hr

/-- The record to be superseded is there, and its writer may read it. -/
theorem eval_target {p : Principal} {now : ℤ} {env : Envelope} {db : Db}
    {prev : Option (RecordRow × Option String)} (h : (target p now env).eval db = .ok prev) :
    (env.supersedes = none ∧ prev = none) ∨ ∃ recordId row, env.supersedes = some recordId ∧
      prev = some row ∧ db.records.get? recordId = some row.1 ∧
      canRead row.1.visibilityInput (some p) (db.grantsOf p) now = true := by
  unfold target at h
  cases hsup : env.supersedes with
  | none =>
    rw [hsup] at h
    exact .inl ⟨rfl, (Except.ok.inj h).symm⟩
  | some recordId =>
    rw [hsup] at h
    simp only [answer, Query.eval_bind, Query.eval_pure, eval_fetchRecordRow, eval_grantsFor,
      Query.eval_ofExcept, bind_eq_ok, Except.ok.injEq, demand_eq_ok, require_eq_ok] at h
    obtain ⟨_, rfl, _, rfl, row, hrow, _, hread, rfl⟩ := h
    refine .inr ⟨recordId, row, rfl, rfl, ?_, hread⟩
    by_cases huuid : isUuidText recordId = true
    · rw [if_pos huuid] at hrow
      exact get?_of_record? hrow
    · rw [if_neg huuid] at hrow
      cases hrow

/-- What lets a caller write a record. -/
structure Authorized (db : Db) (p : Principal) (now : ℤ) (env : Envelope) (info : TypeInfo)
    (prev : Option RecordRow) : Prop where
  issuer : authorizeIssuer p env info = .ok ()
  party : authorizeParty env prev = .ok ()
  grant : p.kind = .module →
    hasGrant (db.grantsOf p) env.issuer.companyId env.type "write" now = true

theorem eval_authorizeWrite {p : Principal} {now : ℤ} {env : Envelope} {info : TypeInfo}
    {prev : Option RecordRow} {db : Db} {grants : List GrantRow}
    (h : (authorizeWrite p now env info prev).eval db = .ok grants) :
    Authorized db p now env info prev := by
  simp only [authorizeWrite, answer, Query.eval_bind, Query.eval_ofExcept, bind_eq_ok] at h
  obtain ⟨_, hissuer, _, hparty, h⟩ := h
  refine ⟨hissuer, hparty, ?_⟩
  intro hkind
  simp only [hkind, grantsForModule, Query.eval_bind, Query.eval_read, Query.eval_ofExcept,
    bind_eq_ok, Except.ok.injEq, demand_eq_ok] at h
  obtain ⟨_, rfl, _, hgrant, -⟩ := h
  unfold Db.grantsOf
  rw [hkind]
  exact hgrant

/-- What a record keeps of the one that it supersedes. -/
structure Continues (env : Envelope) (r : RecordRow) : Prop where
  isHead : r.isHead = true
  type : r.type = env.type
  subject : r.subjectCompanyId = env.subjectCompanyId
  root : r.rootId = env.rootId
  counterparties : sameSet r.counterpartyIds env.counterpartyIds
  visibility : r.visibility = env.visibility

theorem continues_of_check {env : Envelope} {prev : Option (RecordRow × Option String)}
    (h : checkChain? env prev = .ok ()) {r : RecordRow} (hr : prev.map Prod.fst = some r) :
    Continues env r := by
  cases prev with
  | none => exact nomatch hr
  | some row =>
    obtain rfl := Option.some.inj hr
    simp only [checkChain?, checkChain, bind_eq_ok, demand_eq_ok, exists_const] at h
    obtain ⟨hhead, htype, hsubject, hroot, hparties, hvisibility⟩ := h
    exact ⟨hhead, htype, hsubject, hroot, hparties, hvisibility⟩

theorem checkParties_runs {env : Envelope} {s t : Db} {n m : ℕ} {u : Unit}
    (h : (checkParties env).Runs s n u t m) : s = t ∧ m = n := by
  simp only [checkParties, ask, check, Program.runs_bind, Program.runs_query,
    Program.runs_ofExcept, Program.runs_pure] at h
  obtain ⟨_, _, _, ⟨-, rfl, rfl⟩, _, _, _, ⟨-, rfl, rfl⟩, _, s₁, n₁, h, -, rfl, rfl⟩ := h
  -- each counterparty is looked up in the same tables
  generalize env.counterpartyIds = ids at h
  rename_i us
  induction ids generalizing us s n with
  | nil =>
    obtain ⟨-, rfl, rfl⟩ := (Program.runs_forEach_nil ..).mp h
    exact ⟨rfl, rfl⟩
  | cons c rest ih =>
    obtain ⟨_, _, _, hfirst, _, _, _, hrest, -, rfl, rfl⟩ := (Program.runs_forEach_cons ..).mp h
    simp only [Program.runs_bind, Program.runs_query, Program.runs_ofExcept] at hfirst
    obtain ⟨_, _, _, ⟨-, rfl, rfl⟩, -, rfl, rfl⟩ := hfirst
    exact ih _ hrest

theorem checkKeysFree_runs {keys : List KeyEntry} {s t : Db} {n m : ℕ} {u : Unit}
    (h : (checkKeysFree keys).Runs s n u t m) : s = t ∧ m = n := by
  simp only [checkKeysFree, Program.runs_bind, Program.runs_pure] at h
  obtain ⟨us, s₁, n₁, h, -, rfl, rfl⟩ := h
  induction keys generalizing us s n with
  | nil =>
    obtain ⟨-, rfl, rfl⟩ := (Program.runs_forEach_nil ..).mp h
    exact ⟨rfl, rfl⟩
  | cons k rest ih =>
    obtain ⟨_, _, _, hfirst, _, _, _, hrest, -, rfl, rfl⟩ := (Program.runs_forEach_cons ..).mp h
    simp only [ask, check, Program.runs_bind, Program.runs_query, Program.runs_ofExcept] at hfirst
    obtain ⟨_, _, _, ⟨-, rfl, rfl⟩, -, rfl, rfl⟩ := hfirst
    exact ih _ hrest

section
variable [Platform]

/-- A record that was written: by whom, what it was checked against, and what it left behind. -/
structure Accepted (ctx : Context) (env : Envelope) (p : Principal) (info : TypeInfo)
    (prev : Option RecordRow) (s t : Db) (seq : ℕ) : Prop where
  principal : ctx.principal = some p
  valid : Valid env info
  notGenesis : ¬ (env.supersedes = none ∧ isIdentity env.type)
  subject : info.subject ≠ "self" →
    env.body.member? info.subject = some (.str env.subjectCompanyId)
  supersedes : env.supersedes = prev.map (·.recordId)
  target : ∀ r, prev = some r → s.records.get? r.recordId = some r ∧
    canRead r.visibilityInput (some p) (s.grantsOf p) ctx.now = true
  authorized : Authorized s p ctx.now env info prev
  continues : ∀ r, prev = some r → Continues env r
  judged : judge info env (prev.map (·.body)) = .ok ()
  appended : Appended env (statusOf info env.body) (statusOf info env.body) prev s t seq
  hooked : Hooked env prev s t

/-- A record that was written, or acknowledged as one that is there. -/
theorem writeRecord_runs {ctx : Context} {env : Envelope} {s t : Db} {n m : ℕ} {a : WriteResult}
    (htidy : Tidy s) (h : (writeRecord ctx env).Runs s n a t m) :
    (a.created = false ∧ t = s ∧ m = n) ∨ (a.created = true ∧ m = n + 1 ∧
      t.records.get? env.recordId = some a.record ∧
      ∃ p info prev, Accepted ctx env p info prev s t m) := by
  simp only [writeRecord, runs_check_bind, runs_ask_bind, require_eq_ok, eval_fetchRecordRow,
    Except.ok.injEq] at h
  obtain ⟨info, hvalidate, _, hrequest, p, hp, prev, htarget, _, hauth, existing, hexisting, h⟩ :=
    h
  cases existing with
  | some row =>
    left
    simp only [ask, Program.runs_query, acknowledge, answer, Query.eval_bind, eval_grantsFor,
      Query.eval_ofExcept, Query.eval_pure, bind_eq_ok, Except.ok.injEq] at h
    obtain ⟨⟨_, -, _, -, _, -, rfl⟩, rfl, rfl⟩ := h
    exact ⟨rfl, rfl, rfl⟩
  | none =>
    right
    have hvalid := valid_of_validate hvalidate
    unfold append at h
    simp only [↓runs_check_bind, ↓runs_ask_bind, Program.runs_bind, require_eq_ok,
      eval_fetchRecordRow, Except.ok.injEq, Program.runs_pure] at h
    obtain ⟨_, hchain, _, _, _, hparties, _, hjudged, keys, s₄, n₄, ⟨_, s₁, n₁, hinsert, _, s₂,
      n₂, hhead, seq, s₃, n₃, hevent, hhooks⟩, _, hrow, row, rfl, rfl, rfl, rfl⟩ := h
    obtain ⟨rfl, rfl⟩ := checkParties_runs hparties
    simp only [checkRequest, bind_eq_ok, demand_eq_ok, exists_const] at hrequest
    have htarget := eval_target htarget
    -- the record that is superseded is the one under the identifier given
    have hprev : env.supersedes = (prev.map Prod.fst).map (·.recordId) ∧
        ∀ r, prev.map Prod.fst = some r → s.records.get? r.recordId = some r ∧
          canRead r.visibilityInput (some p) (s.grantsOf p) ctx.now = true := by
      rcases htarget with ⟨hnone, rfl⟩ | ⟨recordId, row, hsome, rfl, hget, hread⟩
      · exact ⟨hnone, fun r hr => absurd hr.symm (Option.some_ne_none r)⟩
      · have hid : row.1.recordId = recordId := htidy.records _ _ hget
        refine ⟨hsome.trans (by rw [← hid]; rfl), ?_⟩
        intro r hr
        obtain rfl := Option.some.inj hr
        rw [hid]
        exact ⟨hget, hread⟩
    have hother : ∀ r, prev.map Prod.fst = some r → r.recordId ≠ env.recordId := by
      intro r hr heq
      obtain ⟨-, hfresh, -⟩ := insertRecord_runs hinsert
      rw [← heq, (hprev.2 r hr).1] at hfresh
      cases hfresh
    obtain ⟨rfl, rfl, hsame, happended⟩ := appended_of_runs hother hinsert hhead hevent
    have hnamed : s₃.keys.Named KeyRow.keyId := by
      rw [hsame.keys]
      exact htidy.keys
    obtain ⟨rfl, hrecords, hevents, hhooked⟩ := runHooks_runs hvalid hnamed hhooks
    refine ⟨rfl, rfl, ?_, p, info, prev.map Prod.fst, hp, hvalid, hrequest.1, hrequest.2,
      hprev.1, hprev.2, eval_authorizeWrite hauth, fun r hr => continues_of_check hchain hr, ?_,
      ⟨happended.fresh, happended.oneSuccessor, happended.target, ?_, ?_⟩, hhooked.mono hsame⟩
    · by_cases huuid : isUuidText env.recordId = true
      · rw [if_pos huuid] at hrow
        exact get?_of_record? hrow
      · rw [if_neg huuid] at hrow
        cases hrow
    · rw [Option.map_map]
      exact hjudged
    · rw [hrecords]
      exact happended.records
    · rw [hevents]
      exact happended.events

/-- The first record of an identity that was not there. -/
structure Founded (kind : PrincipalKind) (ownerId : String) (ctx : Context) (env : Envelope)
    (info : TypeInfo) (s t : Db) (seq : ℕ) : Prop where
  valid : Valid env info
  genesis : env.supersedes = none
  judged : checkGenesis info env = .ok ()
  inserted : ∀ k ∈ keysOf env.body, s.keys.get? k.keyId = none ∧
    t.keys.get? k.keyId = some (keyRow kind ownerId ctx.minted k)
  others : ∀ keyId, keyId ∉ (keysOf env.body).map KeyEntry.keyId →
    t.keys.get? keyId = s.keys.get? keyId
  appended : Appended env (statusOf info env.body) none none s t seq
  grants : t.grants = s.grants

/-- A company's own key signs its first record. -/
structure CompanyFounded (ctx : Context) (env : Envelope) (info : TypeInfo) (s t : Db)
    (seq : ℕ) : Prop extends Founded .company env.subjectCompanyId ctx env info s t seq where
  type : env.type = "core.company"
  issuer : env.issuer.companyId = env.subjectCompanyId ∧ env.issuer.moduleId = none
  counterparties : env.counterpartyIds = []
  signing : isActiveRoot (keysOf env.body) env.issuer.keyId
  absent : s.companies.get? env.subjectCompanyId = none
  companies : t.companies =
    s.companies.set env.subjectCompanyId ⟨env.subjectCompanyId, some env.recordId⟩
  modules : t.modules = s.modules

/-- A root key of the publisher lets a module register. -/
structure ModuleFounded (moduleId : String) (p : Principal) (ctx : Context) (env : Envelope)
    (info : TypeInfo) (s t : Db) (seq : ℕ) : Prop
    extends Founded .module moduleId ctx env info s t seq where
  type : env.type = "core.module"
  named : text? env.body "module_id" = some moduleId
  principal : ctx.principal = some p
  publisher : p.kind = .company ∧ p.id = env.subjectCompanyId ∧ p.role = .root
  issuer : env.issuer.companyId = env.subjectCompanyId
  signing : checkModuleIssuer p env moduleId = .ok ()
  absent : s.modules.get? moduleId = none
  modules : t.modules =
    s.modules.set moduleId ⟨moduleId, env.subjectCompanyId, some env.recordId⟩
  companies : t.companies = s.companies

/-- What the first record of an identity writes once the identity itself is there. -/
theorem founded_of_runs {kind : PrincipalKind} {ownerId : String} {ctx : Context}
    {env : Envelope} {info : TypeInfo} {taken : StoreError} {s s₁ s₂ t : Db}
    {n n₁ n₂ m seq : ℕ} {tokens : List (String × String)} {u : Unit}
    (hkeys : (insertKeys taken kind ownerId ctx.minted (keysOf env.body)).Runs s n tokens s₁ n₁)
    (hrecord : (insertRecord taken env (statusOf info env.body)).Runs s₁ n₁ u s₂ n₂)
    (hevent : (insertEvent env none).Runs s₂ n₂ seq t m) (hvalid : Valid env info)
    (hgenesis : env.supersedes = none) (hjudged : checkGenesis info env = .ok ()) :
    m = n + 1 ∧ Founded kind ownerId ctx env info s t m ∧ t.companies = s.companies ∧
      t.modules = s.modules := by
  obtain ⟨rfl, hframe, hinserted, hothers⟩ := insertKeys_runs hkeys
  have hfirst : ∀ r : RecordRow, none = some r → r.recordId ≠ env.recordId :=
    fun r hr => absurd hr.symm (Option.some_ne_none r)
  obtain ⟨rfl, rfl, hsame, happended⟩ := appended_of_runs hfirst hrecord
    ((Program.runs_pure () ()).mpr ⟨rfl, rfl, rfl⟩) hevent
  refine ⟨rfl, ⟨hvalid, hgenesis, hjudged, ?_, ?_, happended.mono hframe.records hframe.events,
    hsame.grants.trans hframe.grants⟩, hsame.companies.trans hframe.companies,
    hsame.modules.trans hframe.modules⟩
  · rw [hsame.keys]
    exact hinserted
  · rw [hsame.keys]
    exact hothers

theorem replay_runs {ctx : Context} {env : Envelope} {row : RecordRow} {s t : Db} {n m : ℕ}
    {a : WriteResult} (h : (ask (replay ctx env row)).Runs s n a t m) :
    a.created = false ∧ t = s ∧ m = n := by
  simp only [ask, Program.runs_query, replay, answer, Query.eval_bind, Query.eval_ofExcept,
    Query.eval_pure, bind_eq_ok, Except.ok.injEq] at h
  obtain ⟨⟨_, -, _, -, rfl⟩, rfl, rfl⟩ := h
  exact ⟨rfl, rfl, rfl⟩

theorem createCompany_runs {ctx : Context} {env : Envelope} {s t : Db} {n m : ℕ} {a : WriteResult}
    (h : (createCompany ctx env).Runs s n a t m) :
    (a.created = false ∧ t = s ∧ m = n) ∨ (a.created = true ∧ m = n + 1 ∧
      t.records.get? env.recordId = some a.record ∧
      ∃ info, CompanyFounded ctx env info s t m) := by
  simp only [createCompany, runs_check_bind, runs_ask_bind, demand_eq_ok] at h
  obtain ⟨info, hvalidate, _, htype, _, hgenesis, _, hissuer, _, hparties, _, hsigning, existing,
    hexisting, h⟩ := h
  cases existing with
  | some row => exact .inl (replay_runs h)
  | none =>
    right
    simp only [↓runs_check_bind, ↓runs_ask_bind, ↓Program.runs_write_bind, Program.runs_bind,
      require_eq_ok, eval_fetchRecordRow,
      companyExists, Query.eval_read, Except.ok.injEq, Program.runs_pure, demand_eq_ok,
      insertCompany, bind_eq_ok, pure_eq_ok] at h
    obtain ⟨_, -, _, -, _, _, _, hfree, _, hjudged, _, ⟨_, habsent, rfl⟩, keys, s₁, n₁, hkeys, _,
      s₂, n₂, hrecord, seq, s₃, n₃, hevent, _, hrow, row, rfl, rfl, rfl, rfl⟩ := h
    obtain ⟨rfl, rfl⟩ := checkKeysFree_runs hfree
    obtain ⟨rfl, hfounded, hcompanies, hmodules⟩ := founded_of_runs hkeys hrecord hevent
      (valid_of_validate hvalidate) hgenesis hjudged
    refine ⟨rfl, rfl, ?_, info, ⟨hfounded.valid, hgenesis, hjudged, hfounded.inserted,
      hfounded.others, hfounded.appended.mono rfl rfl, hfounded.grants⟩, htype, hissuer, hparties,
      hsigning, habsent, hcompanies, hmodules⟩
    by_cases huuid : isUuidText env.recordId = true
    · rw [if_pos huuid] at hrow
      exact get?_of_record? hrow
    · rw [if_neg huuid] at hrow
      cases hrow

theorem createModule_runs {ctx : Context} {env : Envelope} {s t : Db} {n m : ℕ} {a : WriteResult}
    (h : (createModule ctx env).Runs s n a t m) :
    (a.created = false ∧ t = s ∧ m = n) ∨ (a.created = true ∧ m = n + 1 ∧
      t.records.get? env.recordId = some a.record ∧
      ∃ info p moduleId, ModuleFounded moduleId p ctx env info s t m) := by
  simp only [createModule, runs_check_bind, runs_ask_bind, demand_eq_ok, require_eq_ok] at h
  obtain ⟨info, hvalidate, _, htype, _, hgenesis, _, hissuer, publisher, hpublisher, _, -, p, hp,
    _, hroot, existing, hexisting, h⟩ := h
  cases existing with
  | some row => exact .inl (replay_runs h)
  | none =>
    right
    have hvalid := valid_of_validate hvalidate
    obtain ⟨moduleId, hnamed⟩ := Option.isSome_iff_exists.mp (hvalid.readable.2.1 htype)
    simp only [↓runs_check_bind, ↓runs_ask_bind, ↓Program.runs_write_bind, Program.runs_bind,
      require_eq_ok, eval_fetchRecordRow,
      Query.eval_read, Except.ok.injEq, hnamed, Option.getD_some, Program.runs_pure,
      demand_eq_ok, insertModule, bind_eq_ok, pure_eq_ok] at h
    obtain ⟨_, -, _, -, _, hsigning, _, _, _, hfree, _, hjudged, _, ⟨_, habsent, _, -, rfl⟩, keys,
      s₁, n₁, hkeys, _, s₂, n₂, hrecord, seq, s₃, n₃, hevent, _, hrow, row, rfl, rfl, rfl,
      rfl⟩ := h
    obtain ⟨rfl, rfl⟩ := checkKeysFree_runs hfree
    obtain ⟨rfl, hfounded, hcompanies, hmodules⟩ :=
      founded_of_runs hkeys hrecord hevent hvalid hgenesis hjudged
    refine ⟨rfl, rfl, ?_, info, p, moduleId, ⟨hvalid, hgenesis, hjudged, hfounded.inserted,
      hfounded.others, hfounded.appended.mono rfl rfl, hfounded.grants⟩, htype, hnamed, hp, hroot,
      hissuer.2, hsigning, habsent, hmodules, hcompanies⟩
    by_cases huuid : isUuidText env.recordId = true
    · rw [if_pos huuid] at hrow
      exact get?_of_record? hrow
    · rw [if_neg huuid] at hrow
      cases hrow

/-- A token identifies the owner of an active key. -/
structure Holds (db : Db) (token : String) (p : Principal) (row : KeyRow) : Prop where
  stored : db.keys.get? p.keyId = some row
  token : row.tokenHash = some (Platform.tokenHash token)
  active : row.status = .active
  owned : row.owned p.kind p.id
  role : row.role = p.role

theorem eval_resolvePrincipal {db : Db} (htidy : Tidy db) {token : Option String}
    {principal : Option Principal}
    (h : (resolvePrincipal token).eval db = .ok principal) {p : Principal}
    (hp : principal = some p) : ∃ text row, token = some text ∧ Holds db text p row := by
  subst hp
  unfold resolvePrincipal at h
  cases token with
  | none => exact nomatch h
  | some text =>
    simp only [answer, Query.eval_bind, Query.eval_ofExcept, Query.eval_read, Query.eval_pure,
      bind_eq_ok, Except.ok.injEq, require_eq_ok, demand_eq_ok, Option.some.injEq] at h
    obtain ⟨_, -, rows, rfl, row, hrow, _, hactive, rfl⟩ := h
    have hmem := List.mem_of_head? hrow
    rw [List.mem_filter, beq_iff_eq, Dict.mem_values_iff] at hmem
    obtain ⟨⟨id, hget⟩, htoken⟩ := hmem
    have hid : row.keyId = id := htidy.keys id row hget
    refine ⟨text, row, rfl, ?_, htoken, hactive, ⟨rfl, rfl⟩, rfl⟩
    rw [hid]
    exact hget

/-- A request that was accepted as a new record. -/
inductive Written (req : Request) (s t : Db) (seq : ℕ) : Prop
  | company {principal : Option Principal} {info : TypeInfo}
      (hp : (resolvePrincipal req.token).eval s = .ok principal)
      (h : CompanyFounded ⟨principal, req.now, req.minted⟩ req.input info s t seq)
  | module {principal : Option Principal} {info : TypeInfo} {p : Principal} {moduleId : String}
      (hp : (resolvePrincipal req.token).eval s = .ok principal)
      (h : ModuleFounded moduleId p ⟨principal, req.now, req.minted⟩ req.input info s t seq)
  | record {principal : Option Principal} {info : TypeInfo} {p : Principal}
      {prev : Option RecordRow} (hp : (resolvePrincipal req.token).eval s = .ok principal)
      (h : Accepted ⟨principal, req.now, req.minted⟩ req.input p info prev s t seq)

/-- An accepted request acknowledges what is there, or appends one record. -/
theorem atomicWrite_runs {route : Route} {req : Request} {s t : Db} {n m : ℕ} {a : WriteResult}
    (htidy : Tidy s) (h : (atomicWrite route req).Runs s n a t m) :
    (a.created = false ∧ t = s ∧ m = n) ∨ (a.created = true ∧ m = n + 1 ∧
      t.records.get? req.input.recordId = some a.record ∧ Written req s t m) := by
  simp only [atomicWrite, ask, Program.runs_bind, Program.runs_query] at h
  obtain ⟨principal, _, _, ⟨hp, rfl, rfl⟩, h⟩ := h
  cases route with
  | companies =>
    apply (createCompany_runs h).imp_right
    rintro ⟨hcreated, hm, hrow, info, hfounded⟩
    exact ⟨hcreated, hm, hrow, .company hp hfounded⟩
  | modules =>
    apply (createModule_runs h).imp_right
    rintro ⟨hcreated, hm, hrow, info, p, moduleId, hfounded⟩
    exact ⟨hcreated, hm, hrow, .module hp hfounded⟩
  | records =>
    apply (writeRecord_runs htidy h).imp_right
    rintro ⟨hcreated, hm, hrow, p, info, prev, haccepted⟩
    exact ⟨hcreated, hm, hrow, .record hp haccepted⟩

end

end DirectTrade.Store
