import DirectTrade.Flow.Pool

/-!
What one event does to a pool whose reservations are covered: it changes stock and
reservations by exactly its quantity, keeps what is registered, and leaves a pool whose
reservations are covered.
-/

namespace DirectTrade.Flow.Pool

open Library Outcome

theorem thrown_eq_ok {α : Type} {x : Except String α} {a : α} : thrown x = .ok a ↔ x = .ok a := by
  cases x <;> simp [thrown]

theorem thrown_eq_error {α : Type} {x : Except String α} {r : Refusal} :
    thrown x = .error r ↔ r.code = .invalid ∧ x = .error r.message := by
  obtain ⟨code, message⟩ := r
  cases x <;> simp [thrown, eq_comm]

/-- The thousandths that a text stands for. -/
def amount (text : String) : ℤ := value 0 (parseDecimal text 3 false)

def Reads (text : String) (v : ℤ) : Prop := parseDecimal text 3 false = .ok v

theorem Reads.amount {text : String} {v : ℤ} (h : Reads text v) : amount text = v := by
  unfold Pool.amount
  rw [h]
  rfl

theorem reads_of_format {text : String} {v : ℤ} (h : formatDecimal v 3 = .ok text) (hv : 0 ≤ v) :
    Reads text v :=
  parseDecimal_formatDecimal h fun hneg => absurd hneg (by omega)

def InventoryState.stock (s : InventoryState) : ℤ := amount s.onHand

def InventoryState.reserved (s : InventoryState) : ℤ := s.reservations.total amount

/-- A text that writes a positive amount. -/
def Positive (text : String) : Prop := Reads text (amount text) ∧ 0 < amount text

structure Sound (s : InventoryState) : Prop where
  onHand : Reads s.onHand s.stock
  reservations : ∀ text ∈ s.reservations.values, Positive text
  covered : s.reserved ≤ s.stock
  packs : ∀ pack ∈ s.packaging.values, Positive pack.baseUnitsPerPack

theorem positive_of_format {text : String} {v : ℤ} (h : formatDecimal v 3 = .ok text)
    (hv : 0 < v) : Positive text := by
  have hreads := reads_of_format h (by omega)
  have hamount := hreads.amount
  exact ⟨hamount ▸ hreads, hamount ▸ hv⟩

theorem Sound.reserved_nonneg {s : InventoryState} (h : Sound s) : 0 ≤ s.reserved :=
  Dict.total_nonneg fun text hmem => le_of_lt (h.reservations text hmem).2

theorem sum_reads {l : List String} (h : ∀ text ∈ l, Reads text (amount text)) (acc : ℤ) :
    l.foldlM (fun sum value => do
      let amount ← parseDecimal value 3 false
      pure (sum + amount)) acc = Except.ok (ε := String) (acc + (l.map amount).sum) := by
  induction l generalizing acc with
  | nil => simp [pure_eq]
  | cons text rest ih =>
    have hhead : parseDecimal text 3 false = .ok (amount text) := h text List.mem_cons_self
    rw [List.foldlM_cons, hhead, ok_bind, pure_eq, ok_bind,
      ih (fun t ht => h t (List.mem_cons_of_mem _ ht)), List.map_cons, List.sum_cons, add_assoc]

theorem Sound.reservedTotal {s : InventoryState} (h : Sound s) :
    reservedTotal s = .ok s.reserved := by
  unfold Pool.reservedTotal
  rw [sum_reads (fun text hmem => (h.reservations text hmem).1), zero_add]
  rfl

theorem currentReservation_eq_ok {s : InventoryState} {key : String} {current : ℤ}
    (h : currentReservation s key = .ok current) :
    current = s.reservations.share amount key := by
  unfold currentReservation at h
  cases hget : s.reservations.get? key with
  | none =>
    rw [hget] at h
    rw [Dict.share_of_none _ hget]
    exact (Except.ok.inj h).symm
  | some text =>
    rw [hget] at h
    have hreads : Reads text current := h
    rw [Dict.share_of_get? _ hget, hreads.amount]

/-- How acts change the stock, and what of it is reserved. -/
def StockAct.stockSign : StockAct → ℤ
  | .receive | .adjust => 1
  | .reserve | .release => 0
  | .fulfill => -1

def StockAct.reservedSign : StockAct → ℤ
  | .receive | .adjust => 0
  | .reserve => 1
  | .release | .fulfill => -1

section Pools

variable [TextHash]

/-- The packaging that an event pins: registered under its version, with the digest of the pin. -/
def Pinned (s : InventoryState) (e : Json) (pack : PackagingRevision) : Prop :=
  ∃ pin packagingId version key digest,
    e.member? "packaging_pin" = some pin ∧
    pin.member? "packaging_id" = some (.str packagingId) ∧
    pin.member? "version" = some (.str version) ∧ pin.member? "digest" = some (.str digest) ∧
    inventoryKey [packagingId, version] = .ok key ∧ s.packaging.get? key = some pack ∧
    packagingDigest pack = .ok digest

/-- The thousandths of a base unit in the unit that an event counts in. -/
def UnitFactor (s : InventoryState) (e : Json) (factor : ℤ) : Prop :=
  e.member? "unit" = some (.str s.baseUnit) ∧ factor = 1000 ∨
    ∃ pack, Pinned s e pack ∧ e.member? "unit" = some (.str pack.packUnit) ∧
      pack.baseUnit = s.baseUnit ∧ Reads pack.baseUnitsPerPack factor

omit [TextHash] in
theorem identity_eq_some {v : Option Json} {s : String} (h : identity v = some s) :
    v = some (.str s) ∧ isIdentity s = true := by
  unfold identity at h
  obtain ⟨hstring, hid⟩ := Option.filter_eq_some_iff.mp h
  refine ⟨?_, hid⟩
  unfold string? at hstring
  split at hstring
  · rename_i text
    rw [Option.some.inj hstring]
  · nomatch hstring

omit [TextHash] in
theorem unit?_eq_some {v : Option Json} {s : String} (h : unit? v = some s) :
    v = some (.str s) := by
  unfold unit? at h
  obtain ⟨hstring, -⟩ := Option.filter_eq_some_iff.mp h
  unfold string? at hstring
  split at hstring
  · rename_i text
    rw [Option.some.inj hstring]
  · nomatch hstring

theorem pinnedPackaging_eq_ok {s : InventoryState} {e pin : Json} {pack : PackagingRevision}
    (hpin : e.member? "packaging_pin" = some pin) (h : pinnedPackaging s pin = .ok pack) :
    Pinned s e pack := by
  simp only [pinnedPackaging, bind_eq_ok, demand_eq_ok, require_eq_ok, thrown_eq_ok,
    pure_eq_ok] at h
  obtain ⟨_, -, packagingId, hid, version, hversion, _, -, key, hkey, registered, hget, digest,
    hdigest, _, hsame, rfl⟩ := h
  exact ⟨pin, packagingId, version, key, digest, hpin, (identity_eq_some hid).1,
    (identity_eq_some hversion).1, hsame, hkey, hget, hdigest⟩

theorem pinnedPackaging_null {s : InventoryState} {pack : PackagingRevision} :
    pinnedPackaging s .null ≠ .ok pack := by
  intro h
  simp only [pinnedPackaging, bind_eq_ok, demand_eq_ok] at h
  obtain ⟨_, hnames, -⟩ := h
  exact absurd hnames (by decide)

/-- A quantity that counts packs is converted without a remainder. -/
theorem convert_eq_ok {s : InventoryState} {e : Json} {unit : String} {q b : ℤ}
    (hunit : e.member? "unit" = some (.str unit)) (h : convert s e unit q = .ok b) :
    ∃ factor, UnitFactor s e factor ∧ 1000 * b = q * factor := by
  unfold convert at h
  split at h
  · rename_i hbase
    simp only [bind_eq_ok, demand_eq_ok, pure_eq_ok] at h
    obtain ⟨_, -, rfl⟩ := h
    exact ⟨1000, .inl ⟨hbase ▸ hunit, rfl⟩, Int.mul_comm ..⟩
  · simp only [bind_eq_ok, demand_eq_ok, thrown_eq_ok, pure_eq_ok] at h
    obtain ⟨pack, hpack, _, ⟨hunits, hbase⟩, factor, hfactor, _, hexact, rfl⟩ := h
    cases hpin : e.member? "packaging_pin" with
    | none =>
      rw [hpin] at hpack
      exact absurd hpack pinnedPackaging_null
    | some pin =>
      rw [hpin] at hpack
      refine ⟨factor, .inr ⟨pack, pinnedPackaging_eq_ok hpin hpack, hunits ▸ hunit, hbase,
        hfactor⟩, ?_⟩
      exact Int.mul_tdiv_cancel' (Int.dvd_of_tmod_eq_zero hexact)

theorem UnitFactor.pos {s : InventoryState} {e : Json} {factor : ℤ} (hs : Sound s)
    (h : UnitFactor s e factor) : 0 < factor := by
  cases h with
  | inl hbase => omega
  | inr hpinned =>
    obtain ⟨pack, ⟨_, _, _, key, _, _, _, _, _, _, hget, _⟩, -, -, hreads⟩ := hpinned
    have hpos := (hs.packs pack (Dict.mem_values_of_get? hget)).2
    rw [hreads.amount] at hpos
    exact hpos

/-- An event counts `b` thousandths of the base unit: its quantity, converted exactly. -/
def Counts (s : InventoryState) (e : Json) (act : StockAct) (b : ℤ) : Prop :=
  ∃ q factor, parseAmount (e.member? "quantity") (act = .adjust) = .ok q ∧
    UnitFactor s e factor ∧ 1000 * b = q * factor

omit [TextHash] in
theorem parseAmount_nonneg {v : Option Json} {q : ℤ} (h : parseAmount v false = .ok q) :
    0 ≤ q := by
  simp only [parseAmount, bind_eq_ok] at h
  obtain ⟨_, -, hparse⟩ := h
  exact (parseDecimal_unsigned hparse).2

theorem baseQuantity_eq_ok {s : InventoryState} {e : Json} {act : StockAct} {b : ℤ}
    (hs : Sound s) (h : baseQuantity s e act = .ok b) :
    Counts s e act b ∧ (act ≠ .adjust → 0 < b) := by
  simp only [baseQuantity, bind_eq_ok, demand_eq_ok, require_eq_ok, thrown_eq_ok] at h
  obtain ⟨_, -, _, -, q, hq, _, hne, unit, hunit, hconvert⟩ := h
  obtain ⟨factor, hfactor, hexact⟩ := convert_eq_ok (unit?_eq_some hunit) hconvert
  refine ⟨⟨q, factor, hq, hfactor, hexact⟩, ?_⟩
  intro hact
  have hnonneg : 0 ≤ q := by
    apply parseAmount_nonneg (v := e.member? "quantity")
    simpa [hact] using hq
  have hproduct : 0 < q * factor := Int.mul_pos (by omega) (hfactor.pos hs)
  omega

omit [TextHash] in
theorem positive_set {d : Dict String String} {k text : String}
    (hd : ∀ t ∈ d.values, Positive t) (htext : Positive text) :
    ∀ t ∈ (d.set k text).values, Positive t := by
  intro t ht
  obtain ⟨a, ha⟩ := (Dict.mem_values_iff _ t).mp ht
  rw [Dict.get?_set] at ha
  split at ha
  · exact Option.some.inj ha ▸ htext
  · exact hd t (Dict.mem_values_of_get? ha)

omit [TextHash] in
theorem positive_erase {d : Dict String String} {k : String}
    (hd : ∀ t ∈ d.values, Positive t) : ∀ t ∈ (d.erase k).values, Positive t := by
  intro t ht
  obtain ⟨a, ha⟩ := (Dict.mem_values_iff _ t).mp ht
  rw [Dict.get?_erase] at ha
  split at ha
  · cases ha
  · exact hd t (Dict.mem_values_of_get? ha)

/-- The reservations `r` and the stock `left` that an act on `b` thousandths leaves. -/
structure Leaves (s : InventoryState) (act : StockAct) (b : ℤ) (r : Dict String String)
    (left : ℤ) : Prop where
  stock : left = s.stock + act.stockSign * b
  reserved : r.total amount = s.reserved + act.reservedSign * b
  positive : ∀ text ∈ r.values, Positive text
  covered : r.total amount ≤ left

omit [TextHash] in
theorem keepRemainder_eq_ok {s : InventoryState} {key : String} {remainder : ℤ}
    {r : Dict String String} (hs : Sound s) (hnonneg : 0 ≤ remainder)
    (h : keepRemainder s key remainder = .ok r) :
    r.total amount = s.reserved - s.reservations.share amount key + remainder ∧
      ∀ text ∈ r.values, Positive text := by
  unfold keepRemainder at h
  split at h
  · rename_i hzero
    rw [← Except.ok.inj h, Dict.total_erase, hzero, add_zero]
    exact ⟨rfl, positive_erase hs.reservations⟩
  · rename_i hne
    simp only [bind_eq_ok, pure_eq_ok] at h
    obtain ⟨text, htext, rfl⟩ := h
    have hpositive := positive_of_format htext (by omega)
    rw [Dict.total_set, (reads_of_format htext hnonneg).amount]
    exact ⟨rfl, positive_set hs.reservations hpositive⟩

theorem changeReservation_eq_ok {s : InventoryState} {e : Json} {act : StockAct} {b left : ℤ}
    {r : Dict String String} (hs : Sound s) (hb : 0 < b)
    (hact : act = .reserve ∨ act = .release ∨ act = .fulfill)
    (h : changeReservation s e act b s.stock s.reserved = .ok (r, left)) :
    Leaves s act b r left := by
  have hcovered := hs.covered
  simp only [changeReservation, bind_eq_ok, require_eq_ok, thrown_eq_ok] at h
  obtain ⟨_, -, key, -, current, hcurrent, h⟩ := h
  have hshare := currentReservation_eq_ok hcurrent
  split at h
  · rename_i hreserve
    subst hreserve
    simp only [bind_eq_ok, demand_eq_ok, thrown_eq_ok, pure_eq_ok, Prod.mk.injEq] at h
    obtain ⟨_, hroom, text, htext, rfl, rfl⟩ := h
    have hnonneg : 0 ≤ current := by
      rw [hshare]
      cases hget : s.reservations.get? key with
      | none => rw [Dict.share_of_none _ hget]
      | some held =>
        rw [Dict.share_of_get? _ hget]
        exact (hs.reservations held (Dict.mem_values_of_get? hget)).2.le
    have htotal : (s.reservations.set key text).total amount = s.reserved + b := by
      rw [Dict.total_set, (reads_of_format htext (by omega)).amount, ← hshare]
      unfold InventoryState.reserved
      omega
    refine ⟨?_, ?_, positive_set hs.reservations (positive_of_format htext (by omega)), ?_⟩
    · simp [StockAct.stockSign]
    · simpa [StockAct.reservedSign] using htotal
    · omega
  · rename_i hother
    simp only [bind_eq_ok, demand_eq_ok, thrown_eq_ok, pure_eq_ok, Prod.mk.injEq] at h
    obtain ⟨_, hroom, r', hkeep, rfl, rfl⟩ := h
    obtain ⟨htotal, hpositive⟩ := keepRemainder_eq_ok hs (by omega) hkeep
    have hreserved : r'.total amount = s.reserved - b := by omega
    cases hact with
    | inl h => exact absurd h hother
    | inr hact =>
      cases hact with
      | inl hrelease =>
        subst hrelease
        refine ⟨?_, ?_, hpositive, ?_⟩
        · simp [StockAct.stockSign]
        · simpa [StockAct.reservedSign, sub_eq_add_neg] using hreserved
        · simp only [reduceCtorEq, if_false]
          omega
      | inr hfulfill =>
        subst hfulfill
        refine ⟨?_, ?_, hpositive, ?_⟩
        · simp [StockAct.stockSign, sub_eq_add_neg]
        · simpa [StockAct.reservedSign, sub_eq_add_neg] using hreserved
        · simp only [if_true]
          omega

theorem changeStock_eq_ok {s : InventoryState} {e : Json} {act : StockAct} {b left : ℤ}
    {r : Dict String String} (hs : Sound s) (hb : act ≠ .adjust → 0 < b)
    (h : changeStock s e act b s.stock s.reserved = .ok (r, left)) : Leaves s act b r left := by
  have hreceived : ∀ {m : Refusal}, (act = .receive ∨ act = .adjust) → (do
      demand m (s.reserved ≤ s.stock + b)
      pure (s.reservations, s.stock + b)) = Except.ok (r, left) → Leaves s act b r left := by
    intro m hact h
    simp only [bind_eq_ok, demand_eq_ok, pure_eq_ok, Prod.mk.injEq] at h
    obtain ⟨_, hroom, rfl, rfl⟩ := h
    refine ⟨?_, ?_, hs.reservations, hroom⟩
    · cases hact with
      | inl hact => simp [hact, StockAct.stockSign]
      | inr hact => simp [hact, StockAct.stockSign]
    · cases hact with
      | inl hact => simp [hact, StockAct.reservedSign, InventoryState.reserved]
      | inr hact => simp [hact, StockAct.reservedSign, InventoryState.reserved]
  cases act with
  | receive => exact hreceived (.inl rfl) h
  | adjust => exact hreceived (.inr rfl) h
  | reserve => exact changeReservation_eq_ok hs (hb (by decide)) (.inl rfl) h
  | release => exact changeReservation_eq_ok hs (hb (by decide)) (.inr (.inl rfl)) h
  | fulfill => exact changeReservation_eq_ok hs (hb (by decide)) (.inr (.inr rfl)) h

/-- An act changes stock and reservations by its quantity times the factor of its unit. -/
def Exactly (s : InventoryState) (e : Json) (act : StockAct) (t : InventoryState) : Prop :=
  ∃ q factor, parseAmount (e.member? "quantity") (act = .adjust) = .ok q ∧
    UnitFactor s e factor ∧
    1000 * (t.stock - s.stock) = act.stockSign * (q * factor) ∧
    1000 * (t.reserved - s.reserved) = act.reservedSign * (q * factor)

theorem moveStock_eq_ok {s next t : InventoryState} {e : Json} {act : StockAct} (hs : Sound s)
    (hpacks : next.packaging = s.packaging) (h : moveStock s next e act = .ok t) :
    Exactly s e act t ∧ Sound t ∧
      ∃ r text, t = { next with reservations := r, onHand := text } := by
  simp only [moveStock, bind_eq_ok, demand_eq_ok, thrown_eq_ok, pure_eq_ok, Prod.exists] at h
  obtain ⟨b, hquantity, _, -, onHand, honHand, reserved, hreserved, _, -, r, left, hstock, text,
    htext, rfl⟩ := h
  have hread : onHand = s.stock := Except.ok.inj (honHand.symm.trans hs.onHand)
  have hsum : reserved = s.reserved := Except.ok.inj (hreserved.symm.trans hs.reservedTotal)
  subst hread hsum
  obtain ⟨⟨q, factor, hq, hfactor, hexact⟩, hpositive⟩ := baseQuantity_eq_ok hs hquantity
  have hleaves := changeStock_eq_ok hs hpositive hstock
  have hnonneg : 0 ≤ r.total amount :=
    Dict.total_nonneg fun t ht => (hleaves.positive t ht).2.le
  have hreads : Reads text left := reads_of_format htext (hnonneg.trans hleaves.covered)
  have hleft : amount text = left := hreads.amount
  refine ⟨⟨q, factor, hq, hfactor, ?_, ?_⟩, ?_, r, text, rfl⟩
  · show 1000 * (amount text - s.stock) = _
    rw [hleft, hleaves.stock, ← hexact]
    ring
  · show 1000 * (r.total amount - s.reserved) = _
    rw [hleaves.reserved, ← hexact]
    ring
  · refine ⟨?_, hleaves.positive, ?_, ?_⟩
    · show Reads text (amount text)
      exact hleft.symm ▸ hreads
    · show r.total amount ≤ amount text
      exact hleft.symm ▸ hleaves.covered
    · show ∀ pack ∈ next.packaging.values, _
      exact hpacks ▸ hs.packs

omit [TextHash] in
theorem readPackaging_positive {s : InventoryState} {v : Json} {pack : PackagingRevision}
    (h : readPackaging s v = .ok pack) : Positive pack.baseUnitsPerPack := by
  simp only [readPackaging, bind_eq_ok, demand_eq_ok, require_eq_ok, thrown_eq_ok, pure_eq_ok] at h
  obtain ⟨_, -, _, -, _, -, _, -, _, -, _, -, perPack, -, factor, hparse, _, hpos, rfl⟩ := h
  have hreads : Reads perPack factor := hparse
  have hamount := hreads.amount
  exact ⟨hamount.symm ▸ hreads, hamount.symm ▸ hpos⟩

/-- Two packagings are the same, unless their digests collide. -/
def SameDigest (pack other : PackagingRevision) : Prop :=
  other = pack ∨ ∃ digest, packagingDigest other = .ok digest ∧ packagingDigest pack = .ok digest

theorem SameDigest.trans {a b c : PackagingRevision} (h : SameDigest a b) (h' : SameDigest b c) :
    SameDigest a c := by
  cases h with
  | inl hsame => exact hsame ▸ h'
  | inr hdigest =>
    cases h' with
    | inl hsame => exact hsame ▸ .inr hdigest
    | inr hdigest' =>
      obtain ⟨digest, hb, ha⟩ := hdigest
      obtain ⟨digest', hc, hb'⟩ := hdigest'
      exact .inr ⟨digest, Except.ok.inj (hb'.symm.trans hb) ▸ hc, ha⟩

theorem checkUnchanged_eq_ok {old pack : PackagingRevision} {u : Unit}
    (h : checkUnchanged (some old) pack = .ok u) : SameDigest old pack := by
  simp only [checkUnchanged, bind_eq_ok, demand_eq_ok, thrown_eq_ok] at h
  obtain ⟨before, hbefore, after, hafter, hsame⟩ := h
  exact .inr ⟨after, hafter, hsame ▸ hbefore⟩

/-- Whatever is registered in `s` is registered in `t`. -/
def Preserves (s t : InventoryState) : Prop :=
  ∀ key pack, s.packaging.get? key = some pack →
    ∃ pack', t.packaging.get? key = some pack' ∧ SameDigest pack pack'

theorem Preserves.refl (s : InventoryState) : Preserves s s :=
  fun _ pack h => ⟨pack, h, .inl rfl⟩

theorem Preserves.trans {s t u : InventoryState} (h : Preserves s t) (h' : Preserves t u) :
    Preserves s u := by
  intro key pack hget
  obtain ⟨mid, hmid, hdigest⟩ := h key pack hget
  obtain ⟨last, hlast, hsame⟩ := h' key mid hmid
  exact ⟨last, hlast, hdigest.trans hsame⟩

theorem registerPackaging_eq_ok {s next t : InventoryState} {pack : PackagingRevision}
    (hpacks : next.packaging = s.packaging) (h : registerPackaging next pack = .ok t) :
    Preserves s t ∧ ∃ key, t = { next with packaging := next.packaging.set key pack } := by
  simp only [registerPackaging, bind_eq_ok, thrown_eq_ok, pure_eq_ok] at h
  obtain ⟨key, -, _, hcheck, rfl⟩ := h
  refine ⟨?_, key, rfl⟩
  intro k old hold
  show ∃ pack', (next.packaging.set key pack).get? k = some pack' ∧ _
  rw [hpacks, Dict.get?_set]
  by_cases hk : k = key
  · subst hk
    rw [hpacks, hold] at hcheck
    exact ⟨pack, by simp, checkUnchanged_eq_ok hcheck⟩
  · exact ⟨old, by simp [hk, hold], .inl rfl⟩

omit [TextHash] in
theorem packaging_next (s : InventoryState) (key eventHash : String) :
    (s.next key eventHash).packaging = s.packaging := rfl

/-- An event whose observation is new takes the pool one revision on. -/
structure Recorded (s : InventoryState) (e : Json) (key : String) (t : InventoryState) : Prop where
  revision : t.revision = s.revision + 1
  observation : ∃ eventHash, t.observations = s.observations.set key eventHash
  sound : Sound t
  preserves : Preserves s t
  change : kindOf e = some .packaging ∧ t.onHand = s.onHand ∧ t.reservations = s.reservations ∨
    ∃ act, kindOf e = some (.stock act) ∧ Exactly s e act t

theorem recordEvent_eq_ok {s t : InventoryState} {e : Json} {expected : ℕ}
    {key eventHash : String} (hs : Sound s) (h : recordEvent s e expected key eventHash = .ok t) :
    Recorded s e key t := by
  simp only [recordEvent, bind_eq_ok, demand_eq_ok, require_eq_ok] at h
  obtain ⟨_, -, _, -, kind, hkind, h⟩ := h
  cases kind with
  | packaging =>
    simp only [bind_eq_ok] at h
    obtain ⟨pack, hread, hregister⟩ := h
    obtain ⟨hpreserves, packKey, rfl⟩ := registerPackaging_eq_ok (packaging_next ..) hregister
    refine ⟨rfl, ⟨eventHash, rfl⟩, ?_, hpreserves, .inl ⟨hkind, rfl, rfl⟩⟩
    refine ⟨hs.onHand, hs.reservations, hs.covered, ?_⟩
    intro registered hmem
    obtain ⟨k, hk⟩ := (Dict.mem_values_iff _ registered).mp hmem
    have hk : (s.packaging.set packKey pack).get? k = some registered := hk
    rw [Dict.get?_set] at hk
    split at hk
    · exact Option.some.inj hk ▸ readPackaging_positive hread
    · exact hs.packs registered (Dict.mem_values_of_get? hk)
  | stock act =>
    obtain ⟨hexactly, hsound, r, text, rfl⟩ := moveStock_eq_ok hs (packaging_next ..) h
    exact ⟨rfl, ⟨eventHash, rfl⟩, hsound, .refl s, .inr ⟨act, hkind, hexactly⟩⟩

/-- The ids of the observation that an event was made by. -/
def observationOf (e : Json) : Option (List String) := do
  let company ← identity (e.member? "company_id")
  let source ← identity (e.member? "source_id")
  let observation ← identity (e.member? "observation_id")
  pure [company, source, observation]

omit [TextHash] in
theorem admitEvent_eq_ok {s : InventoryState} {e : Json} {ids : List String} {expected : ℕ}
    (h : admitEvent s e = .ok (ids, expected)) : observationOf e = some ids := by
  simp only [admitEvent, bind_eq_ok, demand_eq_ok, require_eq_ok, pure_eq_ok,
    Prod.mk.injEq] at h
  obtain ⟨company, hcompany, _, -, source, hsource, observation, hobservation, _, -, _, -, _, -,
    _, -, _, -, rfl, -⟩ := h
  simp [observationOf, hcompany, hsource, hobservation]

theorem decideEvent_eq_ok {s t : InventoryState} {e : Json} {duplicate : Bool} (hs : Sound s)
    (h : decideEvent s e = .ok (duplicate, t)) :
    duplicate = true ∧ t = s ∨
      duplicate = false ∧ ∃ ids key, observationOf e = some ids ∧ inventoryKey ids = .ok key ∧
        s.observations.get? key = none ∧ Recorded s e key t := by
  simp only [decideEvent, bind_eq_ok, thrown_eq_ok, Prod.exists] at h
  obtain ⟨ids, expected, hadmit, eventHash, -, key, hkey, h⟩ := h
  cases hget : s.observations.get? key with
  | some known =>
    rw [hget] at h
    simp only [bind_eq_ok, demand_eq_ok, pure_eq_ok, Prod.mk.injEq] at h
    obtain ⟨_, -, rfl, rfl⟩ := h
    exact .inl ⟨rfl, rfl⟩
  | none =>
    rw [hget] at h
    simp only [bind_eq_ok, pure_eq_ok, Prod.mk.injEq] at h
    obtain ⟨next, hrecord, rfl, rfl⟩ := h
    exact .inr ⟨rfl, ids, key, admitEvent_eq_ok hadmit, hkey, hget, recordEvent_eq_ok hs hrecord⟩

section Avoids

variable {α β : Type}

/-- A step that does not end with the refusal of a state whose reservations exceed its stock. -/
def Avoids (x : Decided α) : Prop := x ≠ .error reservationInvariant

omit [TextHash]

theorem Avoids.bind {x : Decided α} {f : α → Decided β} (hx : Avoids x)
    (hf : ∀ a, x = .ok a → Avoids (f a)) : Avoids (x >>= f) := by
  intro h
  cases (bind_eq_error ..).mp h with
  | inl herror => exact hx herror
  | inr hok =>
    obtain ⟨a, ha, herror⟩ := hok
    exact hf a ha herror

theorem avoids_demand {r : Refusal} {p : Prop} [Decidable p] (h : r ≠ reservationInvariant) :
    Avoids (demand r p) := by
  intro herror
  exact h ((demand_eq_error ..).mp herror).2

theorem avoids_require {r : Refusal} {o : Option α} (h : r ≠ reservationInvariant) :
    Avoids (require r o) := by
  intro herror
  exact h ((require_eq_error ..).mp herror).2

theorem avoids_thrown {x : Except String α}
    (h : ∀ m, x = .error m → m ≠ reservationInvariant.message) : Avoids (thrown x) := by
  intro herror
  exact h _ (thrown_eq_error.mp herror).2 rfl

theorem avoids_pure (a : α) : Avoids (pure a : Decided α) := nofun

theorem parseDecimal_error {text m : String} {allowNegative : Bool}
    (h : parseDecimal text 3 allowNegative = .error m) : m ≠ reservationInvariant.message := by
  simp only [parseDecimal, checkScale, bind_eq_error, demand_eq_error, require_eq_error,
    pure_ne_error, and_false, exists_false, or_false] at h
  rcases h with ⟨-, rfl⟩ | ⟨_, -, ⟨-, rfl⟩ | ⟨_, -, ⟨-, rfl⟩ | ⟨_, -, ⟨-, rfl⟩ |
      ⟨_, -, -, rfl⟩⟩⟩⟩ <;>
    decide

theorem formatDecimal_error {v : ℤ} {m : String} (h : formatDecimal v 3 = .error m) :
    m ≠ reservationInvariant.message := by
  simp only [formatDecimal, checkScale, bind_eq_error, demand_eq_error, pure_ne_error, and_false,
    exists_false, or_false] at h
  rcases h with ⟨-, rfl⟩ | ⟨_, -, -, rfl⟩ <;> decide

theorem parseAmount_error {v : Option Json} {m : String} {allowNegative : Bool}
    (h : parseAmount v allowNegative = .error m) : m ≠ reservationInvariant.message := by
  simp only [parseAmount, bind_eq_error, require_eq_error] at h
  cases h with
  | inl htext =>
    obtain ⟨-, rfl⟩ := htext
    decide
  | inr hparse =>
    obtain ⟨_, -, hparse⟩ := hparse
    exact parseDecimal_error hparse

end Avoids

theorem hash_error {v : Json} {m : String} (h : hash v = .error m) :
    m ≠ reservationInvariant.message := by
  simp only [hash, bind_eq_error, pure_ne_error, and_false, exists_false, or_false] at h
  intro heq
  have hcanonical := canonicalize_error h
  rw [heq] at hcanonical
  exact absurd hcanonical (by unfold IsCanonicalError; decide)

omit [TextHash] in
theorem avoids_admitEvent (s : InventoryState) (e : Json) : Avoids (admitEvent s e) := by
  have hrefusal : (⟨.invalid, "invalid event identity or revision"⟩ : Refusal) ≠
      reservationInvariant := by decide
  unfold admitEvent
  refine (avoids_require hrefusal).bind fun _ _ => ?_
  refine (avoids_require hrefusal).bind fun _ _ => ?_
  refine (avoids_require hrefusal).bind fun _ _ => ?_
  refine (avoids_require hrefusal).bind fun _ _ => ?_
  refine (avoids_require hrefusal).bind fun _ _ => ?_
  refine (avoids_demand hrefusal).bind fun _ _ => ?_
  refine (avoids_demand (by decide)).bind fun _ _ => ?_
  refine (avoids_demand (by decide)).bind fun _ _ => ?_
  refine (avoids_demand (by decide)).bind fun _ _ => ?_
  exact avoids_pure _

omit [TextHash] in
theorem avoids_readPackaging (s : InventoryState) (v : Json) : Avoids (readPackaging s v) := by
  unfold readPackaging
  refine (avoids_demand (by decide)).bind fun _ _ => ?_
  refine (avoids_require (by decide)).bind fun _ _ => ?_
  refine (avoids_require (by decide)).bind fun _ _ => ?_
  refine (avoids_demand (by decide)).bind fun _ _ => ?_
  refine (avoids_require (by decide)).bind fun _ _ => ?_
  refine (avoids_demand (by decide)).bind fun _ _ => ?_
  refine (avoids_thrown ?_).bind fun _ _ => ?_
  · intro m hm
    obtain ⟨-, rfl⟩ := (require_eq_error ..).mp hm
    decide
  refine (avoids_thrown fun _ => parseDecimal_error).bind fun _ _ => ?_
  exact (avoids_demand (by decide)).bind fun _ _ => avoids_pure _

theorem avoids_registerPackaging (next : InventoryState) (pack : PackagingRevision) :
    Avoids (registerPackaging next pack) := by
  unfold registerPackaging
  refine (avoids_thrown fun _ => hash_error).bind fun key _ => ?_
  refine Avoids.bind ?_ fun _ _ => avoids_pure _
  cases next.packaging.get? key with
  | none => exact avoids_pure ()
  | some old =>
    refine (avoids_thrown fun _ => hash_error).bind fun _ _ => ?_
    refine (avoids_thrown fun _ => hash_error).bind fun _ _ => ?_
    exact avoids_demand (by decide)

theorem avoids_pinnedPackaging (s : InventoryState) (pin : Json) :
    Avoids (pinnedPackaging s pin) := by
  have hrefusal : (⟨.unknownPackaging, "conversion requires exact packaging version and digest"⟩ :
      Refusal) ≠ reservationInvariant := by decide
  unfold pinnedPackaging
  refine (avoids_demand hrefusal).bind fun _ _ => ?_
  refine (avoids_require hrefusal).bind fun _ _ => ?_
  refine (avoids_require hrefusal).bind fun _ _ => ?_
  refine (avoids_demand hrefusal).bind fun _ _ => ?_
  refine (avoids_thrown fun _ => hash_error).bind fun _ _ => ?_
  refine (avoids_require (by decide)).bind fun _ _ => ?_
  refine (avoids_thrown fun _ => hash_error).bind fun _ _ => ?_
  exact (avoids_demand (by decide)).bind fun _ _ => avoids_pure _

theorem avoids_baseQuantity (s : InventoryState) (e : Json) (act : StockAct) :
    Avoids (baseQuantity s e act) := by
  unfold baseQuantity
  refine (avoids_demand (by decide)).bind fun _ _ => ?_
  refine (avoids_demand (by decide)).bind fun _ _ => ?_
  refine (avoids_thrown fun _ => parseAmount_error).bind fun _ _ => ?_
  refine (avoids_demand (by decide)).bind fun _ _ => ?_
  refine (avoids_require (by decide)).bind fun unit _ => ?_
  unfold convert
  by_cases hbase : unit = s.baseUnit
  · rw [if_pos hbase]
    exact (avoids_demand (by decide)).bind fun _ _ => avoids_pure _
  · rw [if_neg hbase]
    refine (avoids_pinnedPackaging _ _).bind fun _ _ => ?_
    refine (avoids_demand (by decide)).bind fun _ _ => ?_
    refine (avoids_thrown fun _ => parseDecimal_error).bind fun _ _ => ?_
    exact (avoids_demand (by decide)).bind fun _ _ => avoids_pure _

theorem avoids_changeReservation (s : InventoryState) (e : Json) (act : StockAct)
    (quantity onHand reserved : ℤ) :
    Avoids (changeReservation s e act quantity onHand reserved) := by
  unfold changeReservation
  refine (avoids_require (by decide)).bind fun _ _ => ?_
  refine (avoids_thrown fun _ => hash_error).bind fun key _ => ?_
  refine (avoids_thrown ?_).bind fun current _ => ?_
  · intro m hm
    unfold currentReservation at hm
    cases hget : s.reservations.get? key with
    | none =>
      rw [hget] at hm
      nomatch hm
    | some held =>
      rw [hget] at hm
      exact parseDecimal_error hm
  by_cases hact : act = .reserve
  · rw [if_pos hact]
    refine (avoids_demand (by decide)).bind fun _ _ => ?_
    exact (avoids_thrown fun _ => formatDecimal_error).bind fun _ _ => avoids_pure _
  · rw [if_neg hact]
    refine (avoids_demand (by decide)).bind fun _ _ => ?_
    refine (avoids_thrown ?_).bind fun _ _ => avoids_pure _
    intro m hm
    unfold keepRemainder at hm
    split at hm
    · nomatch hm
    · simp only [bind_eq_error, pure_ne_error, and_false, exists_false, or_false] at hm
      exact formatDecimal_error hm

theorem avoids_changeStock (s : InventoryState) (e : Json) (act : StockAct)
    (quantity onHand reserved : ℤ) : Avoids (changeStock s e act quantity onHand reserved) := by
  cases act with
  | receive | adjust => exact (avoids_demand (by decide)).bind fun _ _ => avoids_pure _
  | reserve | release | fulfill => exact avoids_changeReservation _ _ _ _ _ _

/-- Where reservations are covered, the check that they are does not fail. -/
theorem avoids_moveStock {s : InventoryState} (hs : Sound s) (next : InventoryState) (e : Json)
    (act : StockAct) : Avoids (moveStock s next e act) := by
  unfold moveStock
  refine (avoids_baseQuantity s e act).bind fun _ _ => ?_
  refine (avoids_thrown fun _ => formatDecimal_error).bind fun _ _ => ?_
  rw [show parseDecimal s.onHand 3 false = .ok s.stock from hs.onHand, hs.reservedTotal]
  show Avoids (demand reservationInvariant (s.reserved ≤ s.stock) >>= _)
  rw [demand_true _ _ hs.covered, ok_bind]
  refine (avoids_changeStock _ _ _ _ _ _).bind fun _ _ => ?_
  exact (avoids_thrown fun _ => formatDecimal_error).bind fun _ _ => avoids_pure _

theorem avoids_decideEvent {s : InventoryState} (hs : Sound s) (e : Json) :
    Avoids (decideEvent s e) := by
  unfold decideEvent
  refine (avoids_admitEvent s e).bind fun ids _ => ?_
  refine (avoids_thrown fun _ => hash_error).bind fun eventHash _ => ?_
  refine (avoids_thrown fun _ => hash_error).bind fun key _ => ?_
  cases s.observations.get? key with
  | some known => exact (avoids_demand (by decide)).bind fun _ _ => avoids_pure _
  | none =>
    refine Avoids.bind ?_ fun _ _ => avoids_pure _
    unfold recordEvent
    refine (avoids_demand (by decide)).bind fun _ _ => ?_
    refine (avoids_demand (by decide)).bind fun _ _ => ?_
    refine (avoids_require (by decide)).bind fun kind _ => ?_
    cases kind with
    | packaging =>
      refine (avoids_readPackaging _ _).bind fun _ _ => ?_
      exact avoids_registerPackaging _ _
    | stock act => exact avoids_moveStock hs _ _ _

end Pools

end DirectTrade.Flow.Pool
