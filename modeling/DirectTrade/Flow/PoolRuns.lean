import DirectTrade.Flow.PoolSteps

/-!
What holds of a pool over all runs: reservations never exceed the stock, an observation
has its effect once, packagings stay as they were registered, and quantities are
converted exactly.
-/

namespace DirectTrade.Flow.Pool

open Library Outcome

section Pools

variable [TextHash]

/-- The pool after events have been given to it one after another. -/
def run (s : InventoryState) (events : List Json) : InventoryState :=
  events.foldl (fun s e => (applyInventoryEvent s e).state) s

omit [TextHash] in
/-- Whether an event was applied, rather than refused or known already. -/
def InventoryResult.applied : InventoryResult → Bool
  | .ok duplicate _ => !duplicate
  | .failed .. => false

/-- The events of a run that were applied, in their order. -/
def applied (s : InventoryState) : List Json → List Json
  | [] => []
  | e :: rest =>
    let result := applyInventoryEvent s e
    if result.applied then e :: applied result.state rest else applied result.state rest

theorem run_append (s : InventoryState) (before after : List Json) :
    run s (before ++ after) = run (run s before) after := List.foldl_append

theorem applied_append (s : InventoryState) (before after : List Json) :
    applied s (before ++ after) = applied s before ++ applied (run s before) after := by
  induction before generalizing s with
  | nil => rfl
  | cons e rest ih =>
    have hrun : run s (e :: rest) = run (applyInventoryEvent s e).state rest := rfl
    rw [hrun, List.cons_append, applied, applied]
    simp only [ih]
    split <;> rfl

/-- The key that the observation of an event is recorded under. -/
def observationKey (e : Json) : String :=
  (observationOf e).elim "" fun ids => value "" (inventoryKey ids)

/-- What one event does to a sound pool. -/
theorem applyInventoryEvent_cases {s : InventoryState} (hs : Sound s) (e : Json) :
    (applyInventoryEvent s e).applied = false ∧ (applyInventoryEvent s e).state = s ∨
      (applyInventoryEvent s e).applied = true ∧ (observationOf e).isSome = true ∧
        s.observations.get? (observationKey e) = none ∧
        Recorded s e (observationKey e) (applyInventoryEvent s e).state := by
  unfold applyInventoryEvent
  cases hdecide : decideEvent s e with
  | error refusal => exact .inl ⟨rfl, rfl⟩
  | ok decided =>
    obtain ⟨duplicate, t⟩ := decided
    cases decideEvent_eq_ok hs hdecide with
    | inl hknown =>
      obtain ⟨rfl, rfl⟩ := hknown
      exact .inl ⟨rfl, rfl⟩
    | inr hnew =>
      obtain ⟨rfl, ids, key, hids, hkey, hfresh, hrecorded⟩ := hnew
      have hobservation : observationKey e = key := by
        simp [observationKey, hids, hkey, value]
      rw [hobservation, hids]
      exact .inr ⟨rfl, rfl, hfresh, hrecorded⟩

/-- What the events of a run have made of an opened pool. -/
structure Course (s : InventoryState) (done : List Json) : Prop where
  sound : Sound s
  revision : s.revision = done.length
  observed : ∀ e ∈ done, (observationOf e).isSome = true
  keys : s.observations.keys = done.map observationKey

omit [TextHash] in
theorem sound_of_created {companyId poolId productId baseUnit : String} {s : InventoryState}
    (h : createInventoryState companyId poolId productId baseUnit = .ok s) :
    Sound s ∧ s.revision = 0 ∧ s.observations = ∅ ∧ s.packaging = ∅ := by
  simp only [createInventoryState, bind_eq_ok, demand_eq_ok, pure_eq_ok] at h
  obtain ⟨_, -, rfl⟩ := h
  have hzero : Reads "0" 0 := by
    unfold Reads
    decide
  refine ⟨⟨?_, List.forall_mem_nil _, ?_, List.forall_mem_nil _⟩, rfl, rfl, rfl⟩
  · show Reads "0" (amount "0")
    rw [hzero.amount]
    exact hzero
  · show (0 : ℤ) ≤ amount "0"
    rw [hzero.amount]

theorem Course.run {s : InventoryState} (hs : Course s []) (events : List Json) :
    Course (run s events) (applied s events) := by
  induction events using List.reverseRecOn with
  | nil => exact hs
  | append_singleton before e ih =>
    have happlied : applied s (before ++ [e]) = applied s before ++
        if (applyInventoryEvent (Pool.run s before) e).applied then [e] else [] := by
      rw [applied_append]
      rfl
    have hrun : Pool.run s (before ++ [e]) =
        (applyInventoryEvent (Pool.run s before) e).state := run_append s before [e]
    rw [happlied, hrun]
    cases applyInventoryEvent_cases ih.sound e with
    | inl hsame =>
      rw [hsame.1, hsame.2]
      simpa using ih
    | inr hnew =>
      obtain ⟨hnew, hobserved, hfresh, hrecorded⟩ := hnew
      obtain ⟨eventHash, hset⟩ := hrecorded.observation
      rw [if_pos hnew]
      refine ⟨hrecorded.sound, ?_, ?_, ?_⟩
      · rw [hrecorded.revision, ih.revision, List.length_append, List.length_singleton]
      · intro other hmem
        cases List.mem_append.mp hmem with
        | inl hbefore => exact ih.observed other hbefore
        | inr hlast => exact List.mem_singleton.mp hlast ▸ hobserved
      · rw [hset, Dict.keys_set_of_none hfresh, ih.keys, List.map_append]
        rfl

/-- No observation has its effect twice. -/
theorem Course.nodup {s : InventoryState} {done : List Json} (h : Course s done) :
    (done.map observationOf).Nodup := by
  have hkeys : (done.map observationKey).Nodup := h.keys ▸ s.observations.nodup
  have hcompose : done.map observationKey = (done.map observationOf).map fun o =>
      o.elim "" fun ids => value "" (inventoryKey ids) := by
    rw [List.map_map]
    rfl
  rw [hcompose] at hkeys
  exact hkeys.of_map

theorem preserves_run {s : InventoryState} (hs : Sound s) (events : List Json) :
    Sound (run s events) ∧ Preserves s (run s events) := by
  induction events using List.reverseRecOn with
  | nil => exact ⟨hs, .refl s⟩
  | append_singleton before e ih =>
    have hrun : run s (before ++ [e]) =
        (applyInventoryEvent (run s before) e).state := run_append s before [e]
    rw [hrun]
    cases applyInventoryEvent_cases ih.1 e with
    | inl hsame => exact hsame.2.symm ▸ ih
    | inr hnew => exact ⟨hnew.2.2.2.sound, ih.2.trans hnew.2.2.2.preserves⟩

/-- What an answer says: a refusal or a repetition leaves the pool as it is and no pool is
refused as broken, and an event that was applied had exactly its effect. -/
def Faithful (s : InventoryState) (e : Json) : InventoryResult → Prop
  | .failed code message t => t = s ∧ Refusal.mk code message ≠ reservationInvariant
  | .ok true t => t = s
  | .ok false t =>
    kindOf e = some .packaging ∧ t.onHand = s.onHand ∧ t.reservations = s.reservations ∨
      ∃ act, kindOf e = some (.stock act) ∧ Exactly s e act t

theorem faithful {s : InventoryState} (hs : Sound s) (e : Json) :
    Faithful s e (applyInventoryEvent s e) := by
  have havoids := avoids_decideEvent hs e
  unfold applyInventoryEvent
  cases hdecide : decideEvent s e with
  | error refusal =>
    refine ⟨rfl, ?_⟩
    intro hbroken
    exact havoids (hdecide.trans (congrArg Except.error hbroken))
  | ok decided =>
    obtain ⟨duplicate, t⟩ := decided
    cases decideEvent_eq_ok hs hdecide with
    | inl hknown =>
      obtain ⟨rfl, rfl⟩ := hknown
      show t = t
      rfl
    | inr hnew =>
      obtain ⟨rfl, _, _, -, -, -, hrecorded⟩ := hnew
      exact hrecorded.change

/-- An event whose observation was applied before changes nothing. -/
theorem Course.once {s : InventoryState} {done : List Json} (h : Course s done) {e : Json}
    (he : observationOf e ∈ done.map observationOf) : (applyInventoryEvent s e).state = s := by
  cases applyInventoryEvent_cases h.sound e with
  | inl hsame => exact hsame.2
  | inr hnew =>
    obtain ⟨first, hfirst, hsame⟩ := List.mem_map.mp he
    have hkey : observationKey e ∈ s.observations.keys := by
      rw [h.keys]
      refine List.mem_map.mpr ⟨first, hfirst, ?_⟩
      unfold observationKey
      rw [hsame]
    obtain ⟨known, hknown⟩ := (Dict.mem_keys_iff _ _).mp hkey
    rw [hnew.2.2.1] at hknown
    nomatch hknown

/-- In every pool that any events make of an opened one: the reservations are positive and
do not exceed the stock; the revision counts the observations that were applied, each once;
a packaging stays as it was registered, unless another has its digest; and every further
event has exactly its effect or none. -/
theorem pool_invariant {companyId poolId productId baseUnit : String} {opened : InventoryState}
    (hopen : createInventoryState companyId poolId productId baseUnit = .ok opened)
    (events : List Json) :
    (∃ onHand reserved, parseDecimal (run opened events).onHand 3 false = .ok onHand ∧
      reservedTotal (run opened events) = .ok reserved ∧ 0 ≤ reserved ∧ reserved ≤ onHand) ∧
    (∀ text ∈ (run opened events).reservations.values,
      ∃ held, parseDecimal text 3 false = .ok held ∧ 0 < held) ∧
    (run opened events).revision = (applied opened events).length ∧
    ((applied opened events).map observationOf).Nodup ∧
    (∀ before after, events = before ++ after → ∀ key pack,
      (run opened before).packaging.get? key = some pack →
        (run opened events).packaging.get? key = some pack ∨
          ∃ other digest, other ≠ pack ∧ packagingDigest other = .ok digest ∧
            packagingDigest pack = .ok digest) ∧
    ∀ e, Faithful (run opened events) e (applyInventoryEvent (run opened events) e) ∧
      (observationOf e ∈ (applied opened events).map observationOf →
        (applyInventoryEvent (run opened events) e).state = run opened events) := by
  obtain ⟨hsound, hrevision, hobservations, -⟩ := sound_of_created hopen
  have hstart : Course opened [] := by
    refine ⟨hsound, hrevision, nofun, ?_⟩
    rw [hobservations]
    rfl
  have hcourse := hstart.run events
  refine ⟨⟨_, _, hcourse.sound.onHand, hcourse.sound.reservedTotal,
    hcourse.sound.reserved_nonneg, hcourse.sound.covered⟩, ?_, hcourse.revision, hcourse.nodup,
    ?_, ?_⟩
  · intro text hmem
    have hpositive := hcourse.sound.reservations text hmem
    exact ⟨amount text, hpositive.1, hpositive.2⟩
  · intro before after hsplit key pack hget
    have hpreserves := (preserves_run (hstart.run before).sound after).2
    rw [← run_append, ← hsplit] at hpreserves
    obtain ⟨other, hother, hsame⟩ := hpreserves key pack hget
    by_cases hne : other = pack
    · exact .inl (hne ▸ hother)
    · obtain ⟨digest, hdigest⟩ := hsame.resolve_left hne
      exact .inr ⟨other, digest, hne, hdigest⟩
  · intro e
    exact ⟨faithful hcourse.sound e, hcourse.once⟩

end Pools

/-- Digests that tell texts of different lengths apart. -/
@[reducible] def sampleHash : TextHash := ⟨fun s => String.ofList (hexText 64 s.utf8ByteSize)⟩

def samplePack : PackagingRevision := ⟨"farm", "apples", "crate", "2", "kg", "case", "12.5"⟩

def samplePin : Json :=
  .obj [("packaging_id", .str "crate"), ("version", .str "2"),
    ("digest", .str "00000000000000000000000000000000000000000000000000000000000000bb")]

def sampleEvent (observation : String) (expected : ℕ) (kind : String)
    (members : List (String × Json)) : Json :=
  .obj ([("company_id", .str "farm"), ("pool_id", .str "barn"), ("source_id", .str "scale"),
    ("observation_id", .str observation), ("expected_revision", .num expected),
    ("occurred_at", .str "2024-02-29T08:00:00.5Z"), ("kind", .str kind)] ++ members)

/-- Four crates of 12.5 kg arrive; a count corrects by one crate less, and is delivered twice. -/
def sampleEvents : List Json :=
  let crates (n : String) : List (String × Json) :=
    [("quantity", .str n), ("unit", .str "case"), ("packaging_pin", samplePin)]
  let count := sampleEvent "ccc" 2 "adjust" (("reason", .str "count") :: crates "-1")
  [sampleEvent "a" 0 "packaging" [("packaging", samplePack.json)],
    sampleEvent "bb" 1 "receive" (crates "4"), count, count]

def samplePool : InventoryState := ⟨"farm", "barn", "apples", "kg", 0, "0", ∅, ∅, ∅⟩

theorem samplePool_created :
    createInventoryState "farm" "barn" "apples" "kg" = .ok samplePool := by
  decide

theorem pool_invariant_sample :
    letI := sampleHash
    (run samplePool sampleEvents).onHand = "37.5" ∧
      (run samplePool sampleEvents).revision = (applied samplePool sampleEvents).length ∧
      ((applied samplePool sampleEvents).map observationOf).Nodup := by
  let := sampleHash
  obtain ⟨-, -, hrevision, hnodup, -⟩ := pool_invariant samplePool_created sampleEvents
  refine ⟨?_, hrevision, hnodup⟩
  show (@run sampleHash samplePool sampleEvents).onHand = "37.5"
  decide +kernel

end DirectTrade.Flow.Pool
