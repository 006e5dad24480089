import DirectTrade.Import
import DirectTrade.Library.Linking

/-!
The records of a root form one chain. `Chained` is the invariant that appends and imports
keep; from it every root has one head, from which the predecessors lead through each of
its records back to its genesis.
-/

namespace DirectTrade

open Library

/-- A record and its predecessor continue the same root. -/
structure SameRoot (a b : BusinessRecord) : Prop where
  root : a.rootId = b.rootId
  organization : a.organizationId = b.organizationId
  policy : a.policyId = b.policyId
  resource : a.resourceId = b.resourceId
  profile : a.profileDigest = b.profileDigest
  counterparties : a.counterpartyIds = b.counterpartyIds

structure Chained (s : State) : Prop where
  company : ∀ id r, s.records.get? id = some r →
    (s.organizations.get? r.organizationId).isSome = true
  genesis : ∀ id r, s.records.get? id = some r → r.supersedes = none → r.rootId = r.id
  linked : ∀ id r, s.records.get? id = some r → ∀ p, r.supersedes = some p →
    ∃ b, s.records.get? p = some b ∧ SameRoot b r ∧ b.seq < r.seq
  single : ∀ id r, s.records.get? id = some r → ∀ id' r', s.records.get? id' = some r' →
    ∀ p, r.supersedes = some p → r'.supersedes = some p → id = id'
  heads : ∀ id r, s.records.get? id = some r →
    (r.isHead = true ↔ ∀ id' r', s.records.get? id' = some r' → r'.supersedes ≠ some id)
  numbered : ∀ id r, s.records.get? id = some r → ∀ id' r', s.records.get? id' = some r' →
    r.organizationId = r'.organizationId → r.seq = r'.seq → id = id'
  counted : ∀ id r, s.records.get? id = some r → ∀ n,
    s.recordSeq.get? r.organizationId = some n → r.seq < n

theorem chained_empty : Chained emptyState := by
  constructor <;> simp [emptyState]

/-- A step that keeps the records and their numbering, and loses no company. -/
theorem Chained.frame {s t : State} (h : Chained s) (hrecords : t.records = s.records)
    (hseq : t.recordSeq = s.recordSeq)
    (horgs : ∀ id, (s.organizations.get? id).isSome = true →
      (t.organizations.get? id).isSome = true) : Chained t where
  company id r hr := horgs _ (h.company id r (hrecords ▸ hr))
  genesis := hrecords ▸ h.genesis
  linked := hrecords ▸ h.linked
  single := hrecords ▸ h.single
  heads := hrecords ▸ h.heads
  numbered := hrecords ▸ h.numbered
  counted := hrecords ▸ hseq ▸ h.counted

theorem lt_nextRecordSeq {s : State} (h : Chained s) {id : Uuid} {r : BusinessRecord}
    (hr : s.records.get? id = some r) : r.seq < nextRecordSeq s r.organizationId := by
  unfold nextRecordSeq
  cases hseq : s.recordSeq.get? r.organizationId with
  | some n => exact h.counted id r hr n hseq
  | none =>
    have hle : ∀ (l : List BusinessRecord) (start : ℕ),
        start ≤ l.foldl (fun highest x => if x.organizationId = r.organizationId ∧
          x.seq > highest then x.seq else highest) start ∧
        (r ∈ l → r.seq ≤ l.foldl (fun highest x => if x.organizationId = r.organizationId ∧
          x.seq > highest then x.seq else highest) start) := by
      intro l
      induction l with
      | nil => simp
      | cons x rest ih =>
        intro start
        simp only [List.foldl_cons, List.mem_cons]
        refine ⟨le_trans ?_ (ih _).1, ?_⟩
        · split <;> omega
        · rintro (rfl | hmem)
          · refine le_trans ?_ (ih _).1
            simp only [true_and]
            split <;> omega
          · exact (ih _).2 hmem
    exact Nat.lt_succ_of_le ((hle _ 0).2 (Dict.mem_values_of_get? hr))

/-- The records once a new head follows its predecessor. -/
theorem get?_insertRecord (s : State) (org : Uuid) (r : BusinessRecord) (id : Uuid) :
    (Call.insertRecord s org r).records.get? id =
      if id = r.id then some r
      else (s.records.get? id).map fun x =>
        if r.supersedes = some id then { x with isHead := false } else x := by
  simp only [Call.insertRecord, Dict.get?_set]
  split
  · rfl
  · cases hprev : r.supersedes with
    | none => simp [Call.retire]
    | some p =>
      simp only [Call.retire, Dict.get?_modify, Option.some.injEq]
      by_cases hp : id = p
      · simp [hp]
      · simp [hp, Ne.symm hp]

/-- A record that may be appended to a company's records. -/
structure Appendable (s : State) (org : Uuid) (r : BusinessRecord) : Prop where
  organization : r.organizationId = org
  company : (s.organizations.get? org).isSome = true
  absent : s.records.get? r.id = none
  seq : r.seq = nextRecordSeq s org
  head : r.isHead = true
  genesis : r.supersedes = none → r.rootId = r.id
  linked : ∀ p, r.supersedes = some p →
    ∃ b, s.records.get? p = some b ∧ SameRoot b r ∧ b.isHead = true

theorem SameRoot.demote {a b : BusinessRecord} (h : SameRoot a b) (c d : Bool) :
    SameRoot { a with isHead := c } { b with isHead := d } :=
  ⟨h.root, h.organization, h.policy, h.resource, h.profile, h.counterparties⟩

/-- The records after an append: the new one, or an old one whose head flag may be gone. -/
theorem insertRecord_cases {s : State} {org : Uuid} {r : BusinessRecord} {id : Uuid}
    {x : BusinessRecord} (h : (Call.insertRecord s org r).records.get? id = some x) :
    (id = r.id ∧ x = r) ∨ (id ≠ r.id ∧ ∃ old, s.records.get? id = some old ∧
      x = { old with isHead := old.isHead && decide (r.supersedes ≠ some id) }) := by
  rw [get?_insertRecord] at h
  split at h
  · exact Or.inl ⟨‹_›, (Option.some.inj h).symm⟩
  · obtain ⟨old, hold, rfl⟩ := Option.map_eq_some_iff.mp h
    refine Or.inr ⟨‹_›, old, hold, ?_⟩
    by_cases hprev : r.supersedes = some id <;> simp [hprev]

theorem insertRecord_old {s : State} (org : Uuid) {r : BusinessRecord}
    (habsent : s.records.get? r.id = none) {id : Uuid} {old : BusinessRecord}
    (h : s.records.get? id = some old) :
    ∃ x, (Call.insertRecord s org r).records.get? id = some x ∧
      x = { old with isHead := old.isHead && decide (r.supersedes ≠ some id) } := by
  have hne : id ≠ r.id := by
    rintro rfl
    simp [habsent] at h
  refine ⟨_, ?_, rfl⟩
  rw [get?_insertRecord, if_neg hne, h]
  by_cases hprev : r.supersedes = some id <;> simp [hprev]

theorem Chained.insertRecord {s : State} (h : Chained s) {org : Uuid} {r : BusinessRecord}
    (hr : Appendable s org r) : Chained (Call.insertRecord s org r) where
  company id x hx := by
    rcases insertRecord_cases hx with ⟨-, rfl⟩ | ⟨-, old, hold, rfl⟩
    · exact hr.organization ▸ hr.company
    · exact h.company id old hold
  genesis id x hx hnone := by
    rcases insertRecord_cases hx with ⟨-, rfl⟩ | ⟨-, old, hold, rfl⟩
    · exact hr.genesis hnone
    · exact h.genesis id old hold hnone
  linked id x hx p hp := by
    rcases insertRecord_cases hx with ⟨-, rfl⟩ | ⟨-, old, hold, rfl⟩
    · obtain ⟨b, hb, hsame, -⟩ := hr.linked p hp
      obtain ⟨b', hb', rfl⟩ := insertRecord_old org hr.absent hb
      refine ⟨_, hb', hsame.demote _ _, ?_⟩
      have hlt := lt_nextRecordSeq h hb
      rw [hsame.organization, hr.organization, ← hr.seq] at hlt
      exact hlt
    · obtain ⟨b, hb, hsame, hlt⟩ := h.linked id old hold p hp
      obtain ⟨b', hb', rfl⟩ := insertRecord_old org hr.absent hb
      exact ⟨_, hb', hsame.demote _ _, hlt⟩
  single id x hx id' x' hx' p hp hp' := by
    -- an old successor of the new record's predecessor would contradict its head flag
    have hclash : ∀ id old, s.records.get? id = some old → r.supersedes = some p →
        old.supersedes = some p → False := by
      intro id old hold hrp holdp
      obtain ⟨b, hb, -, hhead⟩ := hr.linked p hrp
      exact (h.heads p b hb).mp hhead id old hold holdp
    rcases insertRecord_cases hx with ⟨rfl, rfl⟩ | ⟨-, old, hold, rfl⟩ <;>
      rcases insertRecord_cases hx' with ⟨rfl, rfl⟩ | ⟨-, old', hold', rfl⟩
    · rfl
    · exact (hclash id' old' hold' hp hp').elim
    · exact (hclash id old hold hp' hp).elim
    · exact h.single id old hold id' old' hold' p hp hp'
  heads id x hx := by
    have hnew : (Call.insertRecord s org r).records.get? r.id = some r := by
      simp [get?_insertRecord]
    rcases insertRecord_cases hx with ⟨rfl, rfl⟩ | ⟨-, old, hold, rfl⟩
    · simp only [hr.head, true_iff]
      intro id' x' hx' hnext
      rcases insertRecord_cases hx' with ⟨-, rfl⟩ | ⟨-, old', hold', rfl⟩
      · obtain ⟨b, hb, -⟩ := hr.linked _ hnext
        simp [hr.absent] at hb
      · obtain ⟨b, hb, -⟩ := h.linked id' old' hold' _ hnext
        simp [hr.absent] at hb
    · simp only [Bool.and_eq_true, decide_eq_true_eq, h.heads id old hold]
      constructor
      · rintro ⟨hold', hne⟩ id' x' hx'
        rcases insertRecord_cases hx' with ⟨-, rfl⟩ | ⟨-, old', holdx, rfl⟩
        · exact hne
        · exact hold' id' old' holdx
      · intro hall
        refine ⟨fun id' old' hold' hnext => ?_, hall _ _ hnew⟩
        obtain ⟨x', hx', rfl⟩ := insertRecord_old org hr.absent hold'
        exact hall id' _ hx' hnext
  numbered id x hx id' x' hx' horg hseq := by
    -- an old record of the company has a smaller number than the new one
    have hbelow : ∀ id old, s.records.get? id = some old → old.organizationId = org →
        old.seq < r.seq := by
      intro id old hold hold'
      rw [hr.seq, ← hold']
      exact lt_nextRecordSeq h hold
    rcases insertRecord_cases hx with ⟨rfl, rfl⟩ | ⟨-, old, hold, rfl⟩ <;>
      rcases insertRecord_cases hx' with ⟨rfl, rfl⟩ | ⟨-, old', hold', rfl⟩
    · rfl
    · exact absurd hseq (hbelow id' old' hold' (horg.symm.trans hr.organization)).ne'
    · exact absurd hseq (hbelow id old hold (horg.trans hr.organization)).ne
    · exact h.numbered id old hold id' old' hold' horg hseq
  counted id x hx n hn := by
    simp only [Call.insertRecord, Dict.get?_set] at hn
    rcases insertRecord_cases hx with ⟨rfl, rfl⟩ | ⟨-, old, hold, rfl⟩
    · rw [if_pos hr.organization] at hn
      have := Option.some.inj hn
      omega
    · split at hn
      · rename_i horg
        have hlt := lt_nextRecordSeq h hold
        rw [horg, ← hr.seq] at hlt
        have := Option.some.inj hn
        show old.seq < n
        omega
      · exact h.counted id old hold n hn

theorem getElem?_renumber (start : ℕ) (l : List BusinessRecord) (i : ℕ) :
    (renumber start l)[i]? = (l[i]?).map fun r => { r with seq := start + i } := by
  induction l generalizing start i with
  | nil => simp [renumber]
  | cons r rest ih =>
    cases i with
    | zero => simp [renumber]
    | succ i => simp [renumber, ih, Nat.add_right_comm, Nat.add_assoc]

theorem map_id_renumber (start : ℕ) (l : List BusinessRecord) :
    (renumber start l).map (·.id) = l.map (·.id) := by
  induction l generalizing start with
  | nil => rfl
  | cons r rest ih => simp [renumber, ih]

/-- A record after an import: a carried one under its new number, or one of the host. -/
theorem takeOver_cases {s : State} {snap : Snapshot} {id : Uuid} {x : BusinessRecord}
    (h : (takeOver s snap).records.get? id = some x) :
    (∃ (i : ℕ) (r : BusinessRecord), snap.records[i]? = some r ∧ r.id = id ∧
        x = { r with seq := 1 + i }) ∨ s.records.get? id = some x := by
  simp only [takeOver, Dict.get?_foldl_set fun r : BusinessRecord => r.id] at h
  rcases Option.or_eq_some_iff.mp h with hfind | ⟨-, hold⟩
  · refine Or.inl ?_
    have hid : x.id = id := by simpa using List.find?_some hfind
    have hmem : x ∈ renumber 1 snap.records :=
      List.mem_reverse.mp (List.mem_of_find?_eq_some hfind)
    obtain ⟨i, hi⟩ := List.mem_iff_getElem?.mp hmem
    rw [getElem?_renumber] at hi
    obtain ⟨r, hr, rfl⟩ := Option.map_eq_some_iff.mp hi
    exact ⟨i, r, hr, hid, rfl⟩
  · exact Or.inr hold

theorem takeOver_new {s : State} {snap : Snapshot}
    (nodup : (snap.records.map (·.id)).Nodup) {i : ℕ} {r : BusinessRecord}
    (h : snap.records[i]? = some r) :
    (takeOver s snap).records.get? r.id = some { r with seq := 1 + i } := by
  have hi : (renumber 1 snap.records)[i]? = some { r with seq := 1 + i } := by
    simp [getElem?_renumber, h]
  have hmem : ({ r with seq := 1 + i } : BusinessRecord) ∈ renumber 1 snap.records :=
    List.mem_of_getElem? hi
  have hnodup : ((renumber 1 snap.records).map (·.id)).Nodup := by
    rwa [map_id_renumber]
  simp only [takeOver, Dict.get?_foldl_set fun r : BusinessRecord => r.id]
  cases hfind : (renumber 1 snap.records).reverse.find? (·.id = r.id) with
  | none =>
    have := List.find?_eq_none.mp hfind _ (List.mem_reverse.mpr hmem)
    simp at this
  | some y =>
    have hy : y ∈ renumber 1 snap.records :=
      List.mem_reverse.mp (List.mem_of_find?_eq_some hfind)
    have hid : y.id = r.id := by simpa using List.find?_some hfind
    rw [List.inj_on_of_nodup_map hnodup hy hmem hid]
    rfl

theorem takeOver_old {s : State} {snap : Snapshot} {id : Uuid} {x : BusinessRecord}
    (habsent : ∀ r ∈ snap.records, s.records.get? r.id = none)
    (h : s.records.get? id = some x) : (takeOver s snap).records.get? id = some x := by
  simp only [takeOver, Dict.get?_foldl_set fun r : BusinessRecord => r.id]
  have hnone : (renumber 1 snap.records).reverse.find? (·.id = id) = none := by
    rw [List.find?_eq_none]
    intro y hy
    obtain ⟨i, hi⟩ := List.mem_iff_getElem?.mp (List.mem_reverse.mp hy)
    rw [getElem?_renumber] at hi
    obtain ⟨r, hr, rfl⟩ := Option.map_eq_some_iff.mp hi
    have hrid := habsent r (List.mem_of_getElem? hr)
    simp only [decide_eq_true_eq]
    rintro rfl
    simp [hrid] at h
  rw [hnone, Option.none_or, h]

theorem index_lt {l : List BusinessRecord} (h : l.Pairwise (·.seq < ·.seq)) {i j : ℕ}
    {a b : BusinessRecord} (ha : l[i]? = some a) (hb : l[j]? = some b) (hlt : a.seq < b.seq) :
    i < j := by
  obtain ⟨hi, rfl⟩ := List.getElem?_eq_some_iff.mp ha
  obtain ⟨hj, rfl⟩ := List.getElem?_eq_some_iff.mp hb
  rw [List.pairwise_iff_getElem] at h
  by_contra hge
  rcases Nat.lt_or_eq_of_le (Nat.le_of_not_lt hge) with hji | rfl
  · exact absurd (h j i hj hi hji) (by omega)
  · omega

theorem Chained.takeOver {s t : State} (h : Chained s) {snap : Snapshot}
    (hcarried : Carried t snap) (hfresh : ∀ r ∈ snap.records, s.records.get? r.id = none)
    (habsent : s.organizations.get? snap.organization.id = none) :
    Chained (takeOver s snap) := by
  -- no record of the host names the arriving company
  have hother : ∀ id r, s.records.get? id = some r →
      r.organizationId ≠ snap.organization.id := by
    intro id r hr horg
    have := h.company id r hr
    simp [horg, habsent] at this
  have hmem : ∀ {i : ℕ} {r : BusinessRecord}, snap.records[i]? = some r → r ∈ snap.records :=
    fun hr => List.mem_of_getElem? hr
  have hcarriedLink : ∀ {i : ℕ} {r : BusinessRecord}, snap.records[i]? = some r →
      ∀ p, r.supersedes = some p → ∃ j b, snap.records[j]? = some b ∧ b.id = p ∧ j < i ∧
        SameRoot b r := by
    intro i r hr p hp
    obtain ⟨b, hb, hid, hseq, hroot, hpolicy, hresource, hprofile, hparties⟩ :=
      hcarried.linked r (hmem hr) p hp
    obtain ⟨j, hj⟩ := List.mem_iff_getElem?.mp hb
    exact ⟨j, b, hj, hid, index_lt hcarried.rising hj hr hseq, hroot,
      (hcarried.organization b hb).trans (hcarried.organization r (hmem hr)).symm, hpolicy,
      hresource, hprofile, hparties⟩
  refine
    { company := ?_
      genesis := ?_
      linked := ?_
      single := ?_
      heads := ?_
      numbered := ?_
      counted := ?_ }
  · intro id x hx
    simp only [DirectTrade.takeOver, Dict.get?_set]
    split
    · rfl
    · rename_i hne
      rcases takeOver_cases hx with ⟨i, r, hr, -, rfl⟩ | hold
      · exact absurd (hcarried.organization r (hmem hr)) hne
      · exact h.company id x hold
  · intro id x hx hnone
    rcases takeOver_cases hx with ⟨i, r, hr, -, rfl⟩ | hold
    · exact hcarried.genesis r (hmem hr) hnone
    · exact h.genesis id x hold hnone
  · intro id x hx p hp
    rcases takeOver_cases hx with ⟨i, r, hr, -, rfl⟩ | hold
    · obtain ⟨j, b, hb, rfl, hji, hsame⟩ := hcarriedLink hr p hp
      refine ⟨_, takeOver_new hcarried.nodup hb, ⟨hsame.root, hsame.organization, hsame.policy,
        hsame.resource, hsame.profile, hsame.counterparties⟩, ?_⟩
      show 1 + j < 1 + i
      omega
    · obtain ⟨b, hb, hsame, hlt⟩ := h.linked id x hold p hp
      exact ⟨b, takeOver_old hfresh hb, hsame, hlt⟩
  · intro id x hx id' x' hx' p hp hp'
    -- a predecessor is a record of the same side, so the two sides never share one
    have hclash : ∀ {i : ℕ} {r old : BusinessRecord} {oldId : Uuid},
        snap.records[i]? = some r → s.records.get? oldId = some old →
        r.supersedes = some p → old.supersedes = some p → False := by
      intro i r old oldId hr hold hrp hop
      obtain ⟨j, b, hb, rfl, -, -⟩ := hcarriedLink hr p hrp
      obtain ⟨b', hb', -⟩ := h.linked oldId old hold _ hop
      simp [hfresh b (hmem hb)] at hb'
    rcases takeOver_cases hx with ⟨i, r, hr, rfl, rfl⟩ | hold <;>
      rcases takeOver_cases hx' with ⟨i', r', hr', rfl, rfl⟩ | hold'
    · rw [hcarried.single r (hmem hr) r' (hmem hr') p hp hp']
    · exact (hclash hr hold' hp hp').elim
    · exact (hclash hr' hold hp' hp).elim
    · exact h.single id x hold id' x' hold' p hp hp'
  · intro id x hx
    rcases takeOver_cases hx with ⟨i, r, hr, rfl, rfl⟩ | hold
    · refine (hcarried.heads r (hmem hr)).trans ⟨?_, ?_⟩
      · intro hall id' x' hx' hnext
        rcases takeOver_cases hx' with ⟨j, r', hr', -, rfl⟩ | hold'
        · exact hall r' (hmem hr') hnext
        · obtain ⟨b, hb, -⟩ := h.linked id' x' hold' _ hnext
          simp [hfresh r (hmem hr)] at hb
      · intro hall r' hr' hnext
        obtain ⟨j, hj⟩ := List.mem_iff_getElem?.mp hr'
        exact hall _ _ (takeOver_new hcarried.nodup hj) hnext
    · rw [h.heads id x hold]
      constructor
      · intro hall id' x' hx' hnext
        rcases takeOver_cases hx' with ⟨j, r', hr', -, rfl⟩ | hold'
        · obtain ⟨j', b, hb, rfl, -, -⟩ := hcarriedLink hr' _ hnext
          simp [hfresh b (hmem hb)] at hold
        · exact hall id' x' hold' hnext
      · intro hall id' x' hx'
        exact hall id' x' (takeOver_old hfresh hx')
  · intro id x hx id' x' hx' horg hseq
    rcases takeOver_cases hx with ⟨i, r, hr, rfl, rfl⟩ | hold <;>
      rcases takeOver_cases hx' with ⟨i', r', hr', rfl, rfl⟩ | hold'
    · have hindex : i = i' := by
        simp only at hseq
        omega
      subst hindex
      rw [Option.some.inj (hr.symm.trans hr')]
    · exact absurd (horg.symm.trans (hcarried.organization r (hmem hr))) (hother id' x' hold')
    · exact absurd (horg.trans (hcarried.organization r' (hmem hr'))) (hother id x hold)
    · exact h.numbered id x hold id' x' hold' horg hseq
  · intro id x hx n hn
    simp only [DirectTrade.takeOver, Dict.get?_set] at hn
    rcases takeOver_cases hx with ⟨i, r, hr, -, rfl⟩ | hold
    · rw [if_pos (hcarried.organization r (hmem hr))] at hn
      have hlen : i < snap.records.length := (List.getElem?_eq_some_iff.mp hr).1
      have hcount := Option.some.inj hn
      show 1 + i < n
      omega
    · rw [if_neg (hother id x hold)] at hn
      exact h.counted id x hold n hn

variable [Primitives] [Reducers]

/-- The three ways in which a command treats the records of a host. -/
inductive RecordsStep (s t : State) : Prop
  | frame (records : t.records = s.records) (seq : t.recordSeq = s.recordSeq)
      (companies : ∀ id, (s.organizations.get? id).isSome = true →
        (t.organizations.get? id).isSome = true)
  | append (org : Uuid) (r : BusinessRecord) (appendable : Appendable s org r)
      (records : t.records = (Call.insertRecord s org r).records)
      (seq : t.recordSeq = (Call.insertRecord s org r).recordSeq)
      (companies : t.organizations = s.organizations)
  | takeOver (snap : Snapshot) (valid : validateSnapshot s snap = .ok ())
      (records : t.records = (takeOver s snap).records)
      (seq : t.recordSeq = (takeOver s snap).recordSeq)
      (companies : t.organizations = (takeOver s snap).organizations)

omit [Primitives] [Reducers] in
theorem isSome_set {d : Dict Uuid Organization} {k : Uuid} {o : Organization} (id : Uuid)
    (h : (d.get? id).isSome = true) : ((d.set k o).get? id).isSome = true := by
  rw [Dict.get?_set]
  split
  · rfl
  · exact h

omit [Primitives] [Reducers] in
theorem isSome_pushHistory {s : State} (c : Command) (id : Uuid)
    (h : (s.organizations.get? id).isSome = true) :
    ((pushHistory s c).organizations.get? id).isSome = true := by
  unfold pushHistory
  split
  · simp only [Dict.get?_modify]
    split
    · rename_i heq
      subst id
      simpa using h
    · exact h
  · exact h

omit [Primitives] [Reducers] in
theorem pushHistory_records (s : State) (c : Command) :
    (pushHistory s c).records = s.records ∧ (pushHistory s c).recordSeq = s.recordSeq := by
  unfold pushHistory
  split <;> exact ⟨rfl, rfl⟩

/-- A change of one company's entry, followed by its history entry. -/
theorem recordsStep_setOrg (k : Call) (o : Organization) (c : Command) :
    RecordsStep k.s (pushHistory (k.setOrg o) c) := by
  obtain ⟨hrecords, hseq⟩ := pushHistory_records (k.setOrg o) c
  have hset : (k.setOrg o).records = k.s.records ∧ (k.setOrg o).recordSeq = k.s.recordSeq := by
    unfold Call.setOrg
    split <;> exact ⟨rfl, rfl⟩
  refine .frame (hrecords.trans hset.1) (hseq.trans hset.2) fun id hid => ?_
  refine isSome_pushHistory c id ?_
  unfold Call.setOrg
  split
  · exact hid
  · exact isSome_set id hid

omit [Reducers] in
/-- A record that passed the checks of `record.append` may be appended. -/
theorem Call.Appends.appendable {k : Call} {o : Organization} {p : RecordPayload}
    {profile : Profile} {before : Option BusinessRecord} {s : State}
    (h : k.Appends o p profile before s) (validation : Validation)
    (horg : (k.s.organizations.get? o.id).isSome = true) :
    Appendable k.s o.id (k.appended o p validation) where
  organization := h.own.1
  company := horg
  absent := h.absent
  seq := rfl
  head := rfl
  genesis hnone := by
    have hcontinues := h.continues
    cases before with
    | none =>
      simp only [continuity, demand_eq_ok] at hcontinues
      exact hcontinues.2.symm
    | some b =>
      have hpred := h.predecessor
      have hsup : p.supersedes = none := hnone
      simp [Call.predecessor, hsup] at hpred
  linked q hq := by
    have hsup : p.supersedes = some q := hq
    have hcontinues := h.continues
    cases before with
    | none =>
      simp only [continuity, demand_eq_ok] at hcontinues
      simp [hsup] at hcontinues
    | some b =>
      have hpred := h.predecessor
      simp only [continuity, demand_eq_ok] at hcontinues
      obtain ⟨hhead, hroot, hpolicy, hresource, hprofile, hparties⟩ := hcontinues
      simp only [Call.predecessor, hsup, Option.bind_some] at hpred
      cases hget : k.s.records.get? q with
      | none => simp [hget] at hpred
      | some prior =>
        simp only [hget] at hpred
        split at hpred
        · rename_i horg
          simp only [Outcome.bind_eq_ok, Outcome.pure_eq_ok] at hpred
          obtain ⟨readable, -, hprior⟩ := hpred
          obtain ⟨-, rfl⟩ : readable = true ∧ prior = b := by
            cases readable <;> simp_all
          exact ⟨prior, rfl, ⟨hroot, horg.trans h.own.1.symm, hpolicy, hresource, hprofile,
            hparties⟩, hhead⟩
        · simp at hpred

theorem Accepted.recordsStep {s : State} {c : Command} {ctx : Context} {signed : List KeyId}
    {reply : Reply} (keyed : Keyed s) (h : Accepted s c ctx signed reply) :
    RecordsStep s (reply.next c) := by
  cases h.effect with
  | found orgId name nonce controllers threshold payload founds =>
    exact recordsStep_setOrg (callOf s c ctx signed) _ c
  | company o o' m result payload fresh inside change =>
    exact recordsStep_setOrg (callOf s c ctx signed) _ c
  | append o p profile before t company validation payload appends assessed =>
    obtain rfl : s = t := (counterparties_eq keyed.remoteAuthorities appends.attested).symm
    have horg : c.organizationId.bind s.organizations.get? = some o := appends.inside.org
    obtain ⟨id, -, hid⟩ := Option.bind_eq_some_iff.mp horg
    have hoid : o.id = id := keyed.organizations id o hid
    refine .append o.id _ (appends.appendable validation ?_) ?_ ?_ ?_
    · rw [hoid]
      simp [callOf, hid]
    all_goals cases company <;> rfl
  | duplicate o p profile before t company recordId recorded payload appends assessed known =>
    obtain rfl : s = t := (counterparties_eq keyed.remoteAuthorities appends.attested).symm
    exact .frame rfl rfl fun _ hid => hid
  | commit o migrationId ready snapshot out org body payload commits =>
    exact .frame rfl rfl fun id hid => isSome_set id hid
  | finalize migrationId token stage ready body snapshot payload stages binds inactive held
      absent digest valid activates =>
    exact .takeOver snapshot valid rfl rfl rfl
  | _ => exact .frame rfl rfl fun _ hid => hid

theorem Chained.next {s t : State} (h : Chained s) (step : RecordsStep s t) : Chained t := by
  cases step with
  | frame records seq companies => exact h.frame records seq companies
  | append org r appendable records seq companies =>
    exact (h.insertRecord appendable).frame records seq fun id hid => by
      rw [companies]
      exact hid
  | takeOver snap valid records seq companies =>
    obtain ⟨replay, claimed, policyIds, opened, hvalid⟩ :=
      (validateSnapshot_eq_ok s snap ()).mp valid
    have hcarried := validateRecords_carried hvalid.records
    have habsent := organization_absent hvalid.absent
    have hfresh := fun r hr => record_absent (hcarried.absent r hr)
    exact (h.takeOver hcarried hfresh habsent).frame records seq fun id hid => by
      rw [companies]
      exact hid

theorem Reachable.chained {s : State} (h : Reachable s) : Chained s := by
  refine (h.invariant (P := fun s => Keyed s ∧ Chained s) ⟨keyed_empty, chained_empty⟩ ?_
    ?_).2
  · rintro s receipts ⟨hkeyed, hchained⟩
    exact ⟨{ hkeyed with }, hchained.frame rfl rfl fun _ hid => hid⟩
  · rintro s c ctx signed reply ⟨hkeyed, hchained⟩ accepted
    exact ⟨hkeyed.next accepted, hchained.next (accepted.recordsStep hkeyed)⟩

/-- Records linked by their predecessors, numbered in sequence, and labelled by what the
records of a root share. -/
def recordLinking :
    Linking BusinessRecord Uuid (Uuid × Uuid × Uuid × Uuid × Digest × List Uuid) where
  id r := r.id
  prev r := r.supersedes
  rank r := r.seq
  label r := (r.organizationId, r.rootId, r.policyId, r.resourceId, r.profileDigest,
    r.counterpartyIds)

/-- The records of one root of a company, from its head back to its genesis. -/
structure RootChain (s : State) (org root : Uuid) (chain : List BusinessRecord) : Prop where
  complete : ∀ r, r ∈ chain ↔ r ∈ s.records.values ∧ r.organizationId = org ∧ r.rootId = root
  nodup : chain.Nodup
  linked : chain.IsChain fun a b => a.supersedes = some b.id
  falling : chain.Pairwise fun a b => b.seq < a.seq
  uniform : ∀ a ∈ chain, ∀ b ∈ chain, SameRoot a b
  head : ∃ h, chain.head? = some h ∧ ∀ r ∈ chain, r.isHead = true ↔ r = h
  genesis : ∃ g, chain.getLast? = some g ∧ g.id = root ∧ g.supersedes = none

omit [Primitives] [Reducers] in
theorem mem_records {s : State} (keyed : Keyed s) {r : BusinessRecord} :
    r ∈ s.records.values ↔ s.records.get? r.id = some r := by
  rw [Dict.mem_values_iff]
  constructor
  · rintro ⟨id, h⟩
    have hid : r.id = id := keyed.records id r h
    exact hid ▸ h
  · exact fun h => ⟨r.id, h⟩

omit [Primitives] [Reducers] in
theorem Chained.sound {s : State} (h : Chained s) (keyed : Keyed s) :
    recordLinking.Sound {r | r ∈ s.records.values} where
  unique a ha b hb hid := by
    have hida : a.id = b.id := hid
    have ha' := (mem_records keyed).mp ha
    have hb' := (mem_records keyed).mp hb
    exact Option.some.inj (ha'.symm.trans (hida ▸ hb'))
  linked a ha k hk := by
    obtain ⟨b, hb, hsame, hlt⟩ := h.linked a.id a ((mem_records keyed).mp ha) k hk
    refine ⟨b, Dict.mem_values_of_get? hb, keyed.records k b hb, ?_, hlt⟩
    simp only [recordLinking, hsame.organization, hsame.root, hsame.policy, hsame.resource,
      hsame.profile, hsame.counterparties]
  single a ha b hb k hak hbk := by
    have hid := h.single a.id a ((mem_records keyed).mp ha) b.id b ((mem_records keyed).mp hb)
      k hak hbk
    have ha' := (mem_records keyed).mp ha
    exact Option.some.inj (ha'.symm.trans (hid ▸ (mem_records keyed).mp hb))
  first a ha b hb hna hnb hlabel := by
    have hroot : a.rootId = b.rootId := congrArg (fun l => l.2.1) hlabel
    have hga := h.genesis a.id a ((mem_records keyed).mp ha) hna
    have hgb := h.genesis b.id b ((mem_records keyed).mp hb) hnb
    have hid : a.id = b.id := by rw [← hga, ← hgb, hroot]
    have ha' := (mem_records keyed).mp ha
    exact Option.some.inj (ha'.symm.trans (hid ▸ (mem_records keyed).mp hb))

omit [Primitives] [Reducers] in
theorem Chained.exists_chain {s : State} (h : Chained s) (keyed : Keyed s)
    {r : BusinessRecord} (hr : r ∈ s.records.values) :
    ∃ chain, RootChain s r.organizationId r.rootId chain := by
  have hsound := h.sound keyed
  obtain ⟨line, hline⟩ := Linking.exists_line hsound (List.finite_toSet s.records.values) hr
  -- records of one root share the whole label, since they share the genesis
  have hlabel : ∀ x ∈ s.records.values, x.organizationId = r.organizationId →
      x.rootId = r.rootId → recordLinking.label x = recordLinking.label r := by
    intro x hx horg hroot
    refine Linking.label_eq_of_coarse hsound (fun l => (l.1, l.2.1)) ?_ hx hr ?_
    · intro a ha b hb hna hnb hcoarse
      have hroots : a.rootId = b.rootId := congrArg Prod.snd hcoarse
      have hga := h.genesis a.id a ((mem_records keyed).mp ha) hna
      have hgb := h.genesis b.id b ((mem_records keyed).mp hb) hnb
      exact hsound.unique a ha b hb (by
        show a.id = b.id
        rw [← hga, ← hgb, hroots])
    · simp [recordLinking, horg, hroot]
  have hcomplete : ∀ x, x ∈ line ↔ x ∈ s.records.values ∧
      x.organizationId = r.organizationId ∧ x.rootId = r.rootId := by
    intro x
    rw [hline.mem]
    constructor
    · rintro ⟨hx, hl⟩
      exact ⟨hx, congrArg (fun l => l.1) hl, congrArg (fun l => l.2.1) hl⟩
    · rintro ⟨hx, horg, hroot⟩
      exact ⟨hx, hlabel x hx horg hroot⟩
  refine ⟨line, hcomplete, ?_, hline.linked, hline.falling, ?_, ?_, ?_⟩
  · refine hline.falling.imp ?_
    rintro a b hab rfl
    exact lt_irrefl _ hab
  · intro a ha b hb
    have hab := ((hline.mem a).mp ha).2.trans ((hline.mem b).mp hb).2.symm
    simp only [recordLinking, Prod.mk.injEq] at hab
    exact ⟨hab.2.1, hab.1, hab.2.2.1, hab.2.2.2.1, hab.2.2.2.2.1, hab.2.2.2.2.2⟩
  · obtain ⟨top, htop, hlast⟩ := hline.head
    refine ⟨top, htop, fun x hx => Iff.trans ?_ (hlast x hx)⟩
    have hget := (mem_records keyed).mp ((hcomplete x).mp hx).1
    rw [h.heads x.id x hget]
    constructor
    · exact fun hall y hy => hall y.id y ((mem_records keyed).mp hy)
    · exact fun hall id y hy => hall y (Dict.mem_values_of_get? hy)
  · obtain ⟨g, hg, hnone⟩ := hline.first
    have hmem := (hcomplete g).mp (List.mem_of_getLast? hg)
    have hroot := h.genesis g.id g ((mem_records keyed).mp hmem.1) hnone
    exact ⟨g, hg, hroot.symm.trans hmem.2.2, hnone⟩

/-- Every root of every company is one chain with one head, and numbers grow along it. -/
structure RecordsWellFormed (s : State) : Prop where
  head : ∀ r ∈ s.records.values, ∃! x, x ∈ s.records.values ∧
    x.organizationId = r.organizationId ∧ x.rootId = r.rootId ∧ x.isHead = true
  chain : ∀ r ∈ s.records.values, ∃ chain, RootChain s r.organizationId r.rootId chain
  heads : ∀ r ∈ s.records.values,
    r.isHead = true ↔ ∀ x ∈ s.records.values, x.supersedes ≠ some r.id
  single : ∀ a ∈ s.records.values, ∀ b ∈ s.records.values, ∀ p,
    a.supersedes = some p → b.supersedes = some p → a = b
  numbered : ∀ a ∈ s.records.values, ∀ b ∈ s.records.values,
    a.organizationId = b.organizationId → a.seq = b.seq → a = b
  counted : ∀ r ∈ s.records.values, r.seq < nextRecordSeq s r.organizationId

/-- Record chains stay well formed in every reachable state, imports included. -/
theorem records_wellFormed {s : State} (h : Reachable s) : RecordsWellFormed s := by
  have keyed := h.keyed
  have chained := h.chained
  have hsound := chained.sound keyed
  refine
    { head := fun r hr => ?_
      chain := fun r hr => chained.exists_chain keyed hr
      heads := fun r hr => ?_
      single := hsound.single
      numbered := fun a ha b hb horg hseq => ?_
      counted := fun r hr => lt_nextRecordSeq chained ((mem_records keyed).mp hr) }
  · obtain ⟨chain, hchain⟩ := chained.exists_chain keyed hr
    obtain ⟨top, htop, hheads⟩ := hchain.head
    have hmem : top ∈ chain := List.mem_of_head? htop
    obtain ⟨hvalue, horg, hroot⟩ := (hchain.complete top).mp hmem
    refine ⟨top, ⟨hvalue, horg, hroot, (hheads top hmem).mpr rfl⟩, ?_⟩
    rintro y ⟨hy, hyorg, hyroot, hyhead⟩
    exact (hheads y ((hchain.complete y).mpr ⟨hy, hyorg, hyroot⟩)).mp hyhead
  · rw [chained.heads r.id r ((mem_records keyed).mp hr)]
    constructor
    · exact fun hall x hx => hall x.id x ((mem_records keyed).mp hx)
    · exact fun hall id x hx => hall x (Dict.mem_values_of_get? hx)
  · have hid := chained.numbered a.id a ((mem_records keyed).mp ha) b.id b
      ((mem_records keyed).mp hb) horg hseq
    exact hsound.unique a ha b hb hid

omit [Primitives] [Reducers] in
/-- A record and its revision form such a chain. -/
theorem records_wellFormed_sample :
    letI := samplePrimitives none
    letI := sampleReducers
    ((finalState (run emptyState sampleCommands)).records.values.map fun r =>
      (r.id, r.seq, r.isHead)) = [(31, 1, false), (32, 2, true)] ∧
    RecordsWellFormed (finalState (run emptyState sampleCommands)) := by
  let := samplePrimitives none
  let := sampleReducers
  have hrun : (run emptyState sampleCommands).toBool = true := by decide
  exact ⟨by decide, records_wellFormed (Reachable.finalState hrun)⟩

end DirectTrade
