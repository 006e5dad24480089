import DirectTrade.Flow.Holdings

/-!
What a stock holds and what every operation keeps of it: positions stand under their
keys, claims are positive and rest on positions that may be claimed, no serial occurs
twice, and a serialized position counts its serials.
-/

namespace DirectTrade.Flow

open Library Outcome

namespace Stock

variable {P R : Type}

/-- Positions stand under their keys, and claims rest on positions that may be claimed. -/
structure Contents (key : P → Digest) (allowed claimable : P → Prop) (s : Stock P R) : Prop where
  named : ∀ k p, s.positions.get? k = some p → key p.position = k ∧ allowed p.position
  claims : ∀ id r, s.reservations.get? id = some r →
    0 < valueOf goodsScale r.quantity ∧ ∃ pos, key pos = r.position ∧ claimable pos

/-- No serial occurs twice, and a serialized position counts its serials. -/
structure Serialized (tracking : Tracking) (scale : ℕ) (s : Stock P R) : Prop where
  single : ∀ x, s.serialCount x ≤ 1
  counted : tracking = .serial → ∀ k p, s.positions.get? k = some p →
    valueOf scale p.quantity = 1000 * p.serials.length
  plain : tracking ≠ .serial → ∀ k p, s.positions.get? k = some p → p.serials = []

/-- No more is claimed at a position than it holds. -/
def Covered (scale : ℕ) (s : Stock P R) : Prop := ∀ k, s.reserved k ≤ s.quantityAt scale k

section Contents

variable {key : P → Digest} {allowed claimable : P → Prop}
  {s t : Stock P R} {scale : ℕ} {signed : Bool}
  {k : Digest} {pos : P} {path : String}

theorem contents_empty : Contents key allowed claimable (empty : Stock P R) := ⟨nofun, nofun⟩

theorem Contents.write (h : Contents key allowed claimable s) {p : PositionState P}
    (hp : key p.position = k ∧ allowed p.position) :
    Contents key allowed claimable (s.write k p) where
  named := by
    intro j q hq
    have hget : (s.positions.set k p).get? j = some q := hq
    rw [Dict.get?_set] at hget
    split at hget
    next hj =>
      cases hget
      rw [hj]
      exact hp
    next => exact h.named j q hget
  claims := h.claims

theorem Contents.found (h : Contents key allowed claimable s)
    (hpos : key pos = k ∧ allowed pos) :
    key (s.found k pos).position = k ∧ allowed (s.found k pos).position := by
  unfold Stock.found
  cases hget : s.positions.get? k with
  | none => exact hpos
  | some p => exact h.named k p hget

theorem Contents.positionAt (h : Contents key allowed claimable s)
    (hpos : key pos = k ∧ allowed pos) :
    Contents key allowed claimable (s.positionAt k pos).1 := by
  rw [positionAt_fst]
  exact h.write (h.found hpos)

theorem Contents.claim (h : Contents key allowed claimable s) {id : String} {r : Claim R}
    (hr : 0 < valueOf goodsScale r.quantity ∧ ∃ pos, key pos = r.position ∧ claimable pos) :
    Contents key allowed claimable (s.claim id r) where
  named := h.named
  claims := by
    intro i c hc
    have hget : (s.reservations.set id r).get? i = some c := hc
    rw [Dict.get?_set] at hget
    split at hget
    next =>
      cases hget
      exact hr
    next => exact h.claims i c hget

theorem Contents.withdraw (h : Contents key allowed claimable s) (id : String) :
    Contents key allowed claimable { s with reservations := s.reservations.erase id } where
  named := h.named
  claims := by
    intro i c hc
    have hget : (s.reservations.erase id).get? i = some c := hc
    rw [Dict.get?_erase] at hget
    split at hget
    · cases hget
    · exact h.claims i c hget

theorem Contents.claims_nonneg (h : Contents key allowed claimable s) (k : Digest) :
    ∀ r ∈ s.reservations.values,
      0 ≤ if r.position = k then valueOf goodsScale r.quantity else 0 := by
  intro r hr
  obtain ⟨id, hid⟩ := (Dict.mem_values_iff _ _).mp hr
  have := (h.claims id r hid).1
  split <;> omega

theorem Contents.reserved_nonneg (h : Contents key allowed claimable s) (k : Digest) :
    0 ≤ s.reserved k :=
  Dict.total_nonneg (h.claims_nonneg k)

theorem Contents.claim_le (h : Contents key allowed claimable s) {id : String} {r : Claim R}
    (hr : s.reservations.get? id = some r) :
    valueOf goodsScale r.quantity ≤ s.reserved r.position := by
  have hle : (if r.position = r.position then valueOf goodsScale r.quantity else 0) ≤
      s.reserved r.position :=
    Dict.le_total (h.claims_nonneg r.position) (Dict.mem_values_of_get? hr)
  rwa [if_pos rfl] at hle

theorem Contents.reserve (h : Contents key allowed claimable s) {id : String} {qty : ℤ}
    {party : Option R} (hpos : key pos = k ∧ allowed pos) (hclaimable : claimable pos)
    (hqty : 0 < qty) (hop : s.reserve ⟨scale, signed⟩ k pos id qty party path = .ok t) :
    Contents key allowed claimable t := by
  simp only [Stock.reserve, bind_eq_ok, demand_eq_ok, pure_eq_ok] at hop
  obtain ⟨_, -, have_, -, n, -, _, -, before, hheld, quantity, hwrite, rfl⟩ := hop
  apply (h.positionAt hpos).claim
  refine ⟨?_, pos, hpos.1, hclaimable⟩
  have hvalue : valueOf goodsScale quantity = before + qty :=
    Measure.write_eq_ok hwrite
  have hbefore : 0 ≤ before := by
    rw [← held_eq_ok hheld]
    unfold Dict.share
    cases hget : s.reservations.get? id with
    | none => exact le_rfl
    | some r => exact (h.claims id r hget).1.le
  show 0 < valueOf goodsScale quantity
  omega

theorem Contents.release (h : Contents key allowed claimable s) {id : String} {qty : ℤ}
    (hop : s.release k id qty path = .ok t) : Contents key allowed claimable t := by
  simp only [Stock.release, bind_eq_ok, demand_eq_ok, require_eq_ok] at hop
  obtain ⟨current, hcurrent, _, -, held, hheld, _, hle, hop⟩ := hop
  split at hop
  next =>
    simp only [pure_eq_ok] at hop
    subst hop
    exact h.withdraw id
  next hpart =>
    simp only [bind_eq_ok, pure_eq_ok] at hop
    obtain ⟨quantity, hwrite, rfl⟩ := hop
    apply h.claim
    refine ⟨?_, (h.claims id current hcurrent).2⟩
    have hvalue : valueOf goodsScale quantity = held - qty :=
      Measure.write_eq_ok hwrite
    show 0 < valueOf goodsScale quantity
    omega

theorem Contents.consume (h : Contents key allowed claimable s) {qty : ℤ}
    (hpos : key pos = k ∧ allowed pos) (hop : s.consume ⟨scale, signed⟩ k pos qty path = .ok t) :
    Contents key allowed claimable t := by
  simp only [Stock.consume, bind_eq_ok, demand_eq_ok, pure_eq_ok, positionAt_snd,
    positionAt_write] at hop
  obtain ⟨have_, -, _, -, quantity, -, rfl⟩ := hop
  exact h.write (h.found hpos)

theorem Contents.reservation (h : Contents key allowed claimable s) {tracking : Tracking}
    {serialized : String} {kind : OpKind} {id : String} {qty : ℤ} {party : Option R}
    (hpos : key pos = k ∧ allowed pos) (hclaimable : claimable pos) (hqty : 0 < qty)
    (hop : s.reservation ⟨scale, signed⟩ tracking serialized kind k pos id qty party path = .ok t) :
    Contents key allowed claimable t := by
  cases kind with
  | reserve => exact h.reserve hpos hclaimable hqty hop
  | release => exact h.release hop
  | fulfill =>
    simp only [Stock.reservation, bind_eq_ok, demand_eq_ok] at hop
    obtain ⟨released, hreleased, _, -, hconsumed⟩ := hop
    exact (h.release hreleased).consume hpos hconsumed

theorem Contents.debit (h : Contents key allowed claimable s) {qty : ℤ} {serials : List String}
    {bounded claimed : Bool} {free : String} (hpos : key pos = k ∧ allowed pos)
    (hop : s.debit ⟨scale, signed⟩ k pos qty serials bounded claimed free path = .ok t) :
    Contents key allowed claimable t := by
  simp only [Stock.debit, bind_eq_ok, positionAt_snd, positionAt_write, pure_eq_ok] at hop
  obtain ⟨have_, -, n, -, _, -, quantity, -, rest, -, rfl⟩ := hop
  exact h.write (h.found hpos)

theorem Contents.credit (h : Contents key allowed claimable s) {qty : ℤ} {serials : List String}
    (hpos : key pos = k ∧ allowed pos) (hop : s.credit ⟨scale, signed⟩ k pos qty serials = .ok t) :
    Contents key allowed claimable t := by
  simp only [Stock.credit, bind_eq_ok, positionAt_snd, positionAt_write, pure_eq_ok] at hop
  obtain ⟨have_, -, quantity, -, rfl⟩ := hop
  exact h.write (h.found hpos)

/-- A claim rests on a position that exists. -/
theorem Contents.exists_of_covered (h : Contents key allowed claimable s)
    (hcovered : s.Covered scale) {id : String} {r : Claim R}
    (hr : s.reservations.get? id = some r) :
    ∃ p, s.positions.get? r.position = some p ∧ 0 < valueOf scale p.quantity := by
  have hclaim := (h.claims id r hr).1
  have hle := h.claim_le hr
  have hquantity := hcovered r.position
  unfold quantityAt Dict.share at hquantity
  cases hget : s.positions.get? r.position with
  | none =>
    rw [hget] at hquantity
    simp only [Option.elim_none] at hquantity
    omega
  | some p =>
    rw [hget] at hquantity
    simp only [Option.elim_some] at hquantity
    exact ⟨p, rfl, by omega⟩

end Contents

section Covered

variable {scale : ℕ} {s t : Stock P R} {key : Digest} {dq dr : ℤ}

theorem covered_empty : (empty : Stock P R).Covered scale := fun _ => le_rfl

/-- An operation keeps the claims covered if what it frees and adds does. -/
theorem Covered.effect (h : s.Covered scale) (heffect : Effect scale s t key dq dr)
    (hfree : dr - dq ≤ s.quantityAt scale key - s.reserved key) : t.Covered scale := by
  intro k
  have hk := h k
  rw [heffect.quantity, heffect.reserved]
  split
  next heq =>
    subst heq
    omega
  next => omega

/-- What is claimed at several positions together is what they hold at most. -/
theorem Covered.claims_le (h : s.Covered scale) {keys : List Digest} (hkeys : keys.Nodup) :
    (s.reservations.total fun r => if r.position ∈ keys then valueOf goodsScale r.quantity else 0) ≤
      (keys.map (s.quantityAt scale)).sum := by
  induction keys with
  | nil =>
    apply le_of_eq
    apply Dict.total_eq_zero
    simp
  | cons k rest ih =>
    obtain ⟨hnew, hrest⟩ := List.nodup_cons.mp hkeys
    have hsplit : (s.reservations.total fun r =>
        if r.position ∈ k :: rest then valueOf goodsScale r.quantity else 0) =
        s.reserved k + s.reservations.total fun r =>
          if r.position ∈ rest then valueOf goodsScale r.quantity else 0 := by
      unfold reserved
      rw [← Dict.total_add]
      apply Dict.total_congr
      intro r _
      by_cases hk : r.position = k
      · rw [hk, if_pos List.mem_cons_self, if_pos rfl, if_neg hnew, add_zero]
      · simp [hk]
    have hk := h k
    have hlater := ih hrest
    rw [hsplit, List.map_cons, List.sum_cons]
    omega

end Covered

section Serials

variable {tracking : Tracking} {scale : ℕ} {signed : Bool} {s t : Stock P R} {k : Digest}
  {pos : P} {path : String}

theorem serialized_empty : Serialized tracking scale (empty : Stock P R) where
  single := fun _ => by
    show (0 : ℤ) ≤ 1
    omega
  counted := fun _ => nofun
  plain := fun _ => nofun

/-- How often a serial stands in all positions together. -/
theorem count_serials {Q : Type} (positions : Dict Digest (PositionState Q)) (x : String) :
    (((positions.values.flatMap PositionState.serials).count x : ℕ) : ℤ) =
      positions.total fun p => (p.serials.count x : ℤ) := by
  unfold Dict.total
  rw [List.count_flatMap]
  exact (map_list_sum (Nat.castAddMonoidHom ℤ) _).trans (by rw [List.map_map]; rfl)

/-- No serial stands twice in all positions together. -/
theorem Serialized.nodup (h : Serialized tracking scale s) :
    (s.positions.values.flatMap PositionState.serials).Nodup := by
  rw [List.nodup_iff_count_le_one]
  intro x
  have hcast := count_serials s.positions x
  have hsingle : (s.positions.total fun p => (p.serials.count x : ℤ)) ≤ 1 := h.single x
  omega

theorem Serialized.write (h : Serialized tracking scale s) {p : PositionState P}
    (hsingle : ∀ x, (s.write k p).serialCount x ≤ 1)
    (hcounted : tracking = .serial → valueOf scale p.quantity = 1000 * p.serials.length)
    (hplain : tracking ≠ .serial → p.serials = []) :
    Serialized tracking scale (s.write k p) where
  single := hsingle
  counted := by
    intro htracking j q hq
    have hget : (s.positions.set k p).get? j = some q := hq
    rw [Dict.get?_set] at hget
    split at hget
    · cases hget
      exact hcounted htracking
    · exact h.counted htracking j q hget
  plain := by
    intro htracking j q hq
    have hget : (s.positions.set k p).get? j = some q := hq
    rw [Dict.get?_set] at hget
    split at hget
    · cases hget
      exact hplain htracking
    · exact h.plain htracking j q hget

theorem Serialized.found (h : Serialized tracking scale s) (hscale : scale ≤ 12)
    (htracking : tracking = .serial) :
    valueOf scale (s.found k pos).quantity = 1000 * (s.found k pos).serials.length := by
  unfold Stock.found
  cases hget : s.positions.get? k with
  | none => simpa using valueOf_zero hscale
  | some p => exact h.counted htracking k p hget

theorem Serialized.found_plain (h : Serialized tracking scale s)
    (htracking : tracking ≠ .serial) : (s.found k pos).serials = [] := by
  unfold Stock.found
  cases hget : s.positions.get? k with
  | none => rfl
  | some p => exact h.plain htracking k p hget

/-- Writing a position changes the count of a serial by what is added to those found. -/
theorem write_serialCount_found (s : Stock P R) (k : Digest) (pos : P) (p : PositionState P)
    (x : String) : (s.write k p).serialCount x =
      s.serialCount x - (s.found k pos).serials.count x + p.serials.count x := by
  rw [write_serialCount, serials_found]

theorem Serialized.positionAt (h : Serialized tracking scale s) (hscale : scale ≤ 12) :
    Serialized tracking scale (s.positionAt k pos).1 := by
  rw [positionAt_fst]
  apply h.write
  · intro x
    rw [write_serialCount_found s k pos]
    have := h.single x
    omega
  · exact h.found hscale
  · exact h.found_plain

theorem Serialized.reservation (h : Serialized tracking scale s) (hscale : scale ≤ 12)
    {serialized : String} {kind : OpKind} {id : String} {qty : ℤ} {party : Option R}
    (hop : s.reservation ⟨scale, signed⟩ tracking serialized kind k pos id qty party path = .ok t) :
    Serialized tracking scale t := by
  have hrelease : ∀ {u : Stock P R}, s.release k id qty path = .ok u →
      Serialized tracking scale u := by
    intro u hu
    have hpositions : u.positions = s.positions := by
      simp only [Stock.release, bind_eq_ok] at hu
      obtain ⟨current, -, _, -, held, -, _, -, hu⟩ := hu
      split at hu
      · simp only [pure_eq_ok] at hu
        subst hu
        rfl
      · simp only [bind_eq_ok, pure_eq_ok] at hu
        obtain ⟨quantity, -, rfl⟩ := hu
        rfl
    refine ⟨?_, ?_, ?_⟩
    · intro x
      unfold serialCount
      rw [hpositions]
      exact h.single x
    all_goals rw [hpositions]
    · exact h.counted
    · exact h.plain
  cases kind with
  | reserve =>
    simp only [Stock.reservation, Stock.reserve, bind_eq_ok, pure_eq_ok] at hop
    obtain ⟨_, -, have_, -, n, -, _, -, before, -, quantity, -, rfl⟩ := hop
    have hopened : Serialized tracking scale (s.positionAt k pos).1 := h.positionAt hscale
    exact ⟨hopened.single, hopened.counted, hopened.plain⟩
  | release => exact hrelease hop
  | fulfill =>
    simp only [Stock.reservation, bind_eq_ok, demand_eq_ok] at hop
    obtain ⟨u, hu, _, htracking, hop⟩ := hop
    have hreleased := hrelease hu
    simp only [Stock.consume, bind_eq_ok, pure_eq_ok, positionAt_snd, positionAt_write] at hop
    obtain ⟨have_, -, _, -, quantity, -, rfl⟩ := hop
    apply hreleased.write
    · intro x
      rw [write_serialCount_found u k pos]
      have := hreleased.single x
      show _ - _ + ((u.found k pos).serials.count x : ℤ) ≤ 1
      omega
    · intro hserial
      exact absurd hserial htracking
    · exact hreleased.found_plain

theorem removeSerials_eq_ok {held serials rest : List String}
    (h : removeSerials path held serials = .ok rest) :
    rest.length + serials.length = held.length ∧
      ∀ x, rest.count x + serials.count x = held.count x := by
  unfold removeSerials at h
  induction serials generalizing held with
  | nil =>
    simp only [List.foldlM_nil, pure_eq_ok] at h
    subst h
    simp
  | cons y ys ih =>
    simp only [List.foldlM_cons, bind_eq_ok, demand_eq_ok, pure_eq_ok] at h
    obtain ⟨_, ⟨_, hmem, rfl⟩, hrest⟩ := h
    obtain ⟨hlength, hcount⟩ := ih hrest
    have hpos := List.length_pos_of_mem hmem
    have herase := List.length_erase_of_mem hmem
    refine ⟨by rw [List.length_cons]; omega, ?_⟩
    intro x
    have hx := hcount x
    rw [List.count_erase] at hx
    rw [List.count_cons]
    by_cases hxy : y = x
    · subst hxy
      have := List.count_pos_iff.mpr hmem
      simp only [beq_self_eq_true, if_true] at hx ⊢
      omega
    · simp only [beq_iff_eq, hxy, if_false] at hx ⊢
      omega

/-- What a leg moves: as many units as it names serials of a serialized product. -/
structure Moves (tracking : Tracking) (qty : ℤ) (serials : List String) : Prop where
  counted : tracking = .serial → qty = 1000 * serials.length
  plain : tracking ≠ .serial → serials = []
  distinct : serials.Nodup

theorem serialsOf_eq_ok {ids : Option (List String)} {qty : ℤ} {what : String}
    {serials : List String} (h : serialsOf tracking ids qty what path = .ok serials) :
    Moves tracking qty serials := by
  unfold serialsOf at h
  split at h
  next hserial =>
    simp only [bind_eq_ok, demand_eq_ok, require_eq_ok, pure_eq_ok] at h
    obtain ⟨found, -, _, ⟨-, -, -, hnodup⟩, _, hlength, rfl⟩ := h
    exact ⟨fun _ => by omega, fun hne => absurd hserial hne, hnodup⟩
  next hplain =>
    simp only [bind_eq_ok, pure_eq_ok] at h
    obtain ⟨_, -, rfl⟩ := h
    exact ⟨fun heq => absurd heq hplain, fun _ => rfl, List.nodup_nil⟩

theorem Serialized.debit (h : Serialized tracking scale s) (hscale : scale ≤ 12) {qty : ℤ}
    {serials : List String} {bounded claimed : Bool} {free : String}
    (hmoves : Moves tracking qty serials)
    (hop : s.debit ⟨scale, signed⟩ k pos qty serials bounded claimed free path = .ok t) :
    Serialized tracking scale t ∧
      ∀ x, t.serialCount x = s.serialCount x - serials.count x := by
  simp only [Stock.debit, bind_eq_ok, positionAt_snd, positionAt_write, pure_eq_ok] at hop
  obtain ⟨have_, hread, n, -, _, -, quantity, hwrite, rest, hrest, rfl⟩ := hop
  obtain ⟨hlength, hcount⟩ := removeSerials_eq_ok hrest
  have hserials : ∀ x, (s.write k { s.found k pos with
      quantity := quantity, serials := rest }).serialCount x =
      s.serialCount x - serials.count x := by
    intro x
    rw [write_serialCount_found s k pos]
    have := hcount x
    show _ - _ + (rest.count x : ℤ) = _
    omega
  refine ⟨?_, hserials⟩
  apply h.write
  · intro x
    have := h.single x
    rw [hserials]
    omega
  · intro hserial
    have hfound : valueOf scale (s.found k pos).quantity =
        1000 * (s.found k pos).serials.length := h.found hscale hserial
    have hqty := hmoves.counted hserial
    show valueOf scale quantity = 1000 * (rest.length : ℤ)
    rw [Measure.write_eq_ok hwrite, ← Measure.read_eq_ok hread, hfound, hqty]
    omega
  · intro hplain
    have hfound : (s.found k pos).serials = [] := h.found_plain hplain
    have hnone : rest.length = 0 := by
      rw [hfound, hmoves.plain hplain] at hlength
      simpa using hlength
    exact List.length_eq_zero_iff.mp hnone

theorem Serialized.credit (h : Serialized tracking scale s) (hscale : scale ≤ 12) {qty : ℤ}
    {serials : List String} (hmoves : Moves tracking qty serials)
    (hnew : ∀ x ∈ serials, s.serialCount x = 0)
    (hop : s.credit ⟨scale, signed⟩ k pos qty serials = .ok t) : Serialized tracking scale t := by
  simp only [Stock.credit, bind_eq_ok, positionAt_snd, positionAt_write, pure_eq_ok] at hop
  obtain ⟨have_, hread, quantity, hwrite, rfl⟩ := hop
  apply h.write
  · intro x
    rw [write_serialCount_found s k pos]
    show _ - _ + (((s.found k pos).serials ++ serials).count x : ℤ) ≤ 1
    rw [List.count_append]
    have hsingle := h.single x
    by_cases hx : x ∈ serials
    · have hzero := hnew x hx
      have hone := List.nodup_iff_count_le_one.mp hmoves.distinct x
      omega
    · have hzero := List.count_eq_zero.mpr hx
      omega
  · intro hserial
    have hfound : valueOf scale (s.found k pos).quantity =
        1000 * (s.found k pos).serials.length := h.found hscale hserial
    have hqty := hmoves.counted hserial
    show valueOf scale quantity = 1000 * (((s.found k pos).serials ++ serials).length : ℤ)
    rw [Measure.write_eq_ok hwrite, ← Measure.read_eq_ok hread, hfound, hqty, List.length_append]
    omega
  · intro hplain
    show (s.found k pos).serials ++ serials = []
    rw [h.found_plain hplain, hmoves.plain hplain, List.append_nil]

/-- What is in no position counts zero. -/
theorem serialCount_of_absent {serials : List String} {place : String} {u : Unit}
    (h : s.absent serials place path = .ok u) : ∀ x ∈ serials, s.serialCount x = 0 := by
  intro x hx
  have hnone := (each_eq_ok _ _ _).mp h x hx
  simp only [demand_eq_ok] at hnone
  apply Dict.total_eq_zero
  intro p hp
  rw [List.count_eq_zero.mpr (hnone p hp)]
  rfl

end Serials

section Compact

variable {key : P → Digest} {allowed claimable : P → Prop} {tracking : Tracking}
  {s t : Stock P R} {scale : ℕ} {signed : Bool}

/-- No position holds nothing. -/
def Compact (scale : ℕ) (s : Stock P R) : Prop :=
  ∀ k p, s.positions.get? k = some p → ¬ (valueOf scale p.quantity = 0 ∧ p.serials = [])

theorem compact_eq_ok (h : s.compact ⟨scale, signed⟩ = .ok t) :
    t = { s with positions := s.positions.filter fun _ p =>
      ¬ (valueOf scale p.quantity = 0 ∧ p.serials = []) } := by
  simp only [Stock.compact, bind_eq_ok, pure_eq_ok] at h
  obtain ⟨_, heach, rfl⟩ := h
  have hvalues : ∀ p ∈ s.positions.values, value 0 ((⟨scale, signed⟩ : Measure).read p.quantity) =
      valueOf scale p.quantity := by
    intro p hp
    have hread := (each_eq_ok _ _ _).mp heach p hp
    simp only [bind_eq_ok] at hread
    obtain ⟨v, hv, -⟩ := hread
    rw [Measure.read_eq_ok hv, hv]
    rfl
  congr 1
  apply Dict.ext
  apply List.filter_congr
  intro e he
  simp only [hvalues e.2 (List.mem_map_of_mem he)]

theorem compact_get? (h : s.compact ⟨scale, signed⟩ = .ok t) {k : Digest} {p : PositionState P} :
    t.positions.get? k = some p ↔ s.positions.get? k = some p ∧
      ¬ (valueOf scale p.quantity = 0 ∧ p.serials = []) := by
  rw [compact_eq_ok h, Dict.get?_filter, Option.filter_eq_some_iff, decide_eq_true_eq]

theorem compact_compact (h : s.compact ⟨scale, signed⟩ = .ok t) : t.Compact scale :=
  fun _ _ hp => ((compact_get? h).mp hp).2

theorem Contents.compact (hs : Contents key allowed claimable s)
    (h : s.compact ⟨scale, signed⟩ = .ok t) :
    Contents key allowed claimable t where
  named := fun k p hp => hs.named k p ((compact_get? h).mp hp).1
  claims := by
    rw [compact_eq_ok h]
    exact hs.claims

theorem Serialized.compact (hs : Serialized tracking scale s)
    (h : s.compact ⟨scale, signed⟩ = .ok t) :
    Serialized tracking scale t where
  single := by
    intro x
    have hdropped := Dict.total_filter (fun p : PositionState P => (p.serials.count x : ℤ))
      s.positions (fun _ p => ¬ (valueOf scale p.quantity = 0 ∧ p.serials = []))
      (by
        intro k p _ hempty
        simp only [decide_eq_false_iff_not, not_not] at hempty
        simp [hempty.2])
    rw [compact_eq_ok h]
    show Dict.total _ _ ≤ 1
    rw [hdropped]
    exact hs.single x
  counted := fun hserial k p hp => hs.counted hserial k p ((compact_get? h).mp hp).1
  plain := fun hplain k p hp => hs.plain hplain k p ((compact_get? h).mp hp).1

theorem compact_effect (h : s.compact ⟨scale, signed⟩ = .ok t) (k : Digest) :
    Effect scale s t k 0 0 where
  quantity := by
    intro j
    have hsame : t.quantityAt scale j = s.quantityAt scale j := by
      unfold quantityAt Dict.share
      rw [compact_eq_ok h]
      show Option.elim ((s.positions.filter _).get? j) _ _ = _
      rw [Dict.get?_filter]
      cases s.positions.get? j with
      | none => rfl
      | some p =>
        by_cases hempty : valueOf scale p.quantity = 0 ∧ p.serials = []
        · simp [Option.filter, hempty]
        · simp [Option.filter, hempty]
    simp [hsame]
  total := by
    have hdropped := Dict.total_filter (fun p : PositionState P => valueOf scale p.quantity)
      s.positions (fun _ p => ¬ (valueOf scale p.quantity = 0 ∧ p.serials = []))
      (by
        intro k p _ hempty
        simp only [decide_eq_false_iff_not, not_not] at hempty
        exact hempty.1)
    rw [compact_eq_ok h, add_zero]
    exact hdropped
  reserved := by
    intro j
    rw [compact_eq_ok h]
    show s.reserved j = _
    simp

end Compact

end Stock

end DirectTrade.Flow
