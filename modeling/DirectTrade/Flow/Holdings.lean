import DirectTrade.Flow.Stock

/-!
What each operation on a stock does to the numbers it stands for: the quantity at every
position, the total, what is claimed at every position and how often a serial occurs.
-/

namespace DirectTrade.Flow

open Library Outcome

/-- The number a text stands for. -/
def valueOf (scale : ℕ) (quantity : String) : ℤ := value 0 (parseDecimal quantity scale true)

theorem valueOf_of_parse {scale : ℕ} {t : String} {v : ℤ} {signed : Bool}
    (h : parseDecimal t scale signed = .ok v) : valueOf scale t = v := by
  unfold valueOf
  cases signed with
  | true => rw [h]; rfl
  | false => rw [(parseDecimal_unsigned h).1]; rfl

theorem Measure.read_eq_ok {scale : ℕ} {signed : Bool} {t : String} {v : ℤ}
    (h : (⟨scale, signed⟩ : Measure).read t = .ok v) : valueOf scale t = v := by
  simp only [Measure.read, caught_eq_ok] at h
  exact valueOf_of_parse h

theorem Measure.write_eq_ok {scale : ℕ} {signed : Bool} {t : String} {v : ℤ}
    (h : (⟨scale, signed⟩ : Measure).write v = .ok t) : valueOf scale t = v := by
  simp only [Measure.write, caught_eq_ok] at h
  exact valueOf_of_parse (parseDecimal_formatDecimal h fun _ => rfl)

theorem valueOf_zero {scale : ℕ} (h : scale ≤ 12) : valueOf scale "0" = 0 := by
  have hwrite : formatDecimal 0 scale = .ok "0" := by
    rw [formatDecimal_eq_ok]
    refine ⟨h, by simp, ?_⟩
    have hfraction : fractionDigits 0 scale = [] := by
      unfold fractionDigits padStart
      rw [Nat.zero_mod, Nat.toDigits_zero, List.rdropWhile_eq_nil_iff]
      intro c hc
      cases List.mem_append.mp hc with
      | inl hzero => simpa using (List.mem_replicate.mp hzero).2
      | inr hlast => simpa using hlast
    simp [wholeDigits, hfraction]
  exact valueOf_of_parse (parseDecimal_formatDecimal hwrite fun _ => rfl)

namespace Stock

variable {P R : Type}

def quantityAt (scale : ℕ) (s : Stock P R) (k : Digest) : ℤ :=
  s.positions.share (fun p => valueOf scale p.quantity) k

def total (scale : ℕ) (s : Stock P R) : ℤ := s.positions.total fun p => valueOf scale p.quantity

def reserved (s : Stock P R) (k : Digest) : ℤ :=
  s.reservations.total fun r => if r.position = k then valueOf goodsScale r.quantity else 0

def serialCount (s : Stock P R) (x : String) : ℤ :=
  s.positions.total fun p => (p.serials.count x : ℤ)

/-- How one operation changes the numbers: `dq` at one position, `dr` of its claims. -/
structure Effect (scale : ℕ) (s t : Stock P R) (key : Digest) (dq dr : ℤ) : Prop where
  quantity : ∀ k, t.quantityAt scale k = s.quantityAt scale k + if k = key then dq else 0
  total : t.total scale = s.total scale + dq
  reserved : ∀ k, t.reserved k = s.reserved k + if k = key then dr else 0

variable {scale : ℕ} {signed : Bool} {s t u : Stock P R} {key : Digest} {pos : P}

theorem Effect.refl (scale : ℕ) (s : Stock P R) (key : Digest) : Effect scale s s key 0 0 where
  quantity := by simp
  total := by simp
  reserved := by simp

theorem Effect.trans {dq dq' dr dr' : ℤ} (h : Effect scale s t key dq dr)
    (h' : Effect scale t u key dq' dr') : Effect scale s u key (dq + dq') (dr + dr') where
  quantity := by
    intro k
    rw [h'.quantity, h.quantity]
    split <;> omega
  total := by
    rw [h'.total, h.total]
    omega
  reserved := by
    intro k
    rw [h'.reserved, h.reserved]
    split <;> omega

theorem write_quantityAt (s : Stock P R) (key k : Digest) (p : PositionState P) :
    (s.write key p).quantityAt scale k =
      if k = key then valueOf scale p.quantity else s.quantityAt scale k :=
  Dict.share_set _ _ _ _ _

theorem Effect.write {p : PositionState P} {dq : ℤ}
    (h : valueOf scale p.quantity = s.quantityAt scale key + dq) :
    Effect scale s (s.write key p) key dq 0 where
  quantity := by
    intro k
    rw [write_quantityAt]
    split
    next hk => rw [h, hk]
    next => omega
  total := by
    have hset := Dict.total_set (fun p => valueOf scale p.quantity) s.positions key p
    have htotal : (s.write key p).total scale =
        s.total scale - s.quantityAt scale key + valueOf scale p.quantity := hset
    omega
  reserved := by
    intro k
    show s.reserved k = _
    simp

theorem write_serialCount (s : Stock P R) (key : Digest) (p : PositionState P) (x : String) :
    (s.write key p).serialCount x = s.serialCount x -
      s.positions.share (fun p => (p.serials.count x : ℤ)) key + p.serials.count x :=
  Dict.total_set _ _ _ _

/-- The position under a key, or a new one. -/
def found (s : Stock P R) (key : Digest) (pos : P) : PositionState P :=
  (s.positions.get? key).getD ⟨pos, "0", []⟩

theorem positionAt_snd (s : Stock P R) (key : Digest) (pos : P) :
    (s.positionAt key pos).2 = s.found key pos := by
  unfold positionAt found
  cases s.positions.get? key <;> rfl

theorem positionAt_write (s : Stock P R) (key : Digest) (pos : P) (p : PositionState P) :
    (s.positionAt key pos).1.write key p = s.write key p := by
  unfold positionAt write
  cases s.positions.get? key with
  | none => simp only [Dict.set_set]
  | some q => rfl

theorem positionAt_reservations (s : Stock P R) (key : Digest) (pos : P) :
    (s.positionAt key pos).1.reservations = s.reservations := by
  unfold positionAt
  cases s.positions.get? key <;> rfl

/-- Opening a position writes what was found there. -/
theorem positionAt_fst (s : Stock P R) (key : Digest) (pos : P) :
    (s.positionAt key pos).1 = s.write key (s.found key pos) := by
  unfold positionAt found write
  cases h : s.positions.get? key with
  | none => rfl
  | some p => simp only [Option.getD_some, Dict.set_eq_self h]

theorem valueOf_found (hscale : scale ≤ 12) (s : Stock P R) (key : Digest) (pos : P) :
    valueOf scale (s.found key pos).quantity = s.quantityAt scale key := by
  unfold found quantityAt Dict.share
  cases s.positions.get? key with
  | none => exact valueOf_zero hscale
  | some p => rfl

theorem serials_found (s : Stock P R) (key : Digest) (pos : P) (x : String) :
    ((s.found key pos).serials.count x : ℤ) =
      s.positions.share (fun p => (p.serials.count x : ℤ)) key := by
  unfold found Dict.share
  cases s.positions.get? key <;> simp

theorem Effect.positionAt (hscale : scale ≤ 12) (s : Stock P R) (key : Digest) (pos : P) :
    Effect scale s (s.positionAt key pos).1 key 0 0 := by
  rw [positionAt_fst]
  apply Effect.write
  rw [valueOf_found hscale, add_zero]

theorem Effect.claim {id : String} {r : Claim R} {dr : ℤ} (hposition : r.position = key)
    (hcurrent : ∀ c, s.reservations.get? id = some c → c.position = key)
    (hvalue : valueOf goodsScale r.quantity = s.reservations.share
      (fun c => valueOf goodsScale c.quantity) id + dr) :
    Effect scale s (s.claim id r) key 0 dr where
  quantity := by
    intro k
    show s.quantityAt scale k = _
    simp
  total := by
    show s.total scale = _
    simp
  reserved := by
    intro k
    have hset := Dict.total_set (fun c : Claim R =>
      if c.position = k then valueOf goodsScale c.quantity else 0) s.reservations id r
    have hshare : s.reservations.share (fun c : Claim R =>
        if c.position = k then valueOf goodsScale c.quantity else 0) id =
        if k = key then s.reservations.share
          (fun c => valueOf goodsScale c.quantity) id else 0 := by
      unfold Dict.share
      cases hget : s.reservations.get? id with
      | none => simp
      | some c => simp [hcurrent c hget, eq_comm]
    show (s.reservations.set id r).total _ = s.reservations.total _ + _
    rw [hset, hshare, hposition]
    by_cases hk : k = key
    · simp only [hk, if_true, hvalue]
      omega
    · simp [hk, Ne.symm hk]

theorem Effect.withdraw {id : String} {c : Claim R} (hcurrent : s.reservations.get? id = some c)
    (hposition : c.position = key) :
    Effect scale s { s with reservations := s.reservations.erase id } key 0
      (-valueOf goodsScale c.quantity) where
  quantity := by
    intro k
    show s.quantityAt scale k = _
    simp
  total := by
    show s.total scale = _
    simp
  reserved := by
    intro k
    have herase := Dict.total_erase (fun c : Claim R =>
      if c.position = k then valueOf goodsScale c.quantity else 0) s.reservations id
    rw [Dict.share_of_get? _ hcurrent, hposition] at herase
    show (s.reservations.erase id).total _ = s.reservations.total _ + _
    rw [herase]
    by_cases hk : k = key
    · simp only [hk, if_true]
      omega
    · simp [hk, Ne.symm hk]

theorem reservedAt_eq_ok {n : ℤ} (h : s.reservedAt key = .ok n) : n = s.reserved key := by
  unfold reservedAt at h
  simp only [bind_eq_ok, pure_eq_ok] at h
  obtain ⟨held, hheld, rfl⟩ := h
  have hsum : ∀ (l : List (Claim R)) (held : List ℤ),
      (l.filter fun r => r.position = key).mapM (fun r => claimMeasure.read r.quantity) =
        Except.ok held →
      held.sum =
        (l.map fun r => if r.position = key then valueOf goodsScale r.quantity else 0).sum := by
    intro l
    induction l with
    | nil =>
      intro held h
      simp only [List.filter_nil, List.mapM_nil, pure_eq_ok] at h
      subst h
      rfl
    | cons r rest ih =>
      intro held h
      by_cases hr : r.position = key
      · simp only [List.filter_cons, hr, decide_true, if_true, List.mapM_cons, bind_eq_ok,
          pure_eq_ok] at h
        obtain ⟨v, hv, vs, hvs, rfl⟩ := h
        have hvalue : valueOf goodsScale r.quantity = v := Measure.read_eq_ok hv
        rw [List.sum_cons, ih vs hvs, List.map_cons, List.sum_cons, if_pos hr, hvalue]
      · simp only [List.filter_cons, hr, decide_false, Bool.false_eq_true, if_false] at h
        rw [ih held h, List.map_cons, List.sum_cons, if_neg hr, zero_add]
  exact hsum _ _ hheld

theorem held_eq_ok {id : String} {v : ℤ} (h : held (s.reservations.get? id) = .ok v) :
    s.reservations.share (fun c => valueOf goodsScale c.quantity) id = v := by
  cases hget : s.reservations.get? id with
  | none =>
    rw [hget] at h
    cases h
    exact Dict.share_of_none _ hget
  | some r =>
    rw [hget] at h
    rw [Dict.share_of_get? _ hget]
    exact Measure.read_eq_ok h

theorem boundAt_eq_ok {claimed : Bool} {v : ℤ} (h : s.boundAt claimed key = .ok v) :
    v = if claimed = true then s.reserved key else 0 := by
  unfold boundAt at h
  split at h
  next hclaimed => rw [reservedAt_eq_ok h, if_pos hclaimed]
  next hfree =>
    cases h
    rw [if_neg hfree]

theorem demandLeft_eq_ok {bounded : Bool} {left qty : ℤ} {free path : String} {v : Unit} :
    demandLeft ⟨scale, signed⟩ bounded left qty free path = .ok v ↔
      (bounded = true → qty ≤ left) := by
  unfold demandLeft
  split
  next hshort =>
    have hthrow : ∀ e : Refusal, (throw e : Checked Unit) = .error e := fun _ => rfl
    simp only [bind_eq_ok, hthrow, reduceCtorEq, and_false, exists_false, false_iff]
    intro hle
    have := hle hshort.1
    omega
  next hbound =>
    simp only [true_iff]
    intro htrue
    have : ¬ left < qty := fun hlt => hbound ⟨htrue, hlt⟩
    omega

theorem reserve_effect (hscale : scale ≤ 12) {id : String} {qty : ℤ} {party : Option R}
    {path : String} (h : s.reserve ⟨scale, signed⟩ key pos id qty party path = .ok t) :
    Effect scale s t key 0 qty ∧ qty ≤ s.quantityAt scale key - s.reserved key := by
  simp only [reserve, bind_eq_ok, demand_eq_ok, pure_eq_ok] at h
  obtain ⟨_, ⟨-, hposition⟩, have_, hread, n, hreserved, _, hfree, before, hheld, quantity, hwrite,
    rfl⟩ := h
  have hopened := Effect.positionAt hscale s key pos
  have hquantity : s.quantityAt scale key = have_ := by
    rw [positionAt_snd] at hread
    rw [← valueOf_found hscale s key pos]
    exact Measure.read_eq_ok hread
  have hclaimed : n = s.reserved key := by
    rw [reservedAt_eq_ok hreserved]
    have := hopened.reserved key
    simpa using this
  have hshare : s.reservations.share (fun c => valueOf goodsScale c.quantity) id = before :=
    held_eq_ok hheld
  have hvalue : valueOf goodsScale quantity = before + qty :=
    Measure.write_eq_ok hwrite
  have hclaim : Effect scale (s.positionAt key pos).1
      ((s.positionAt key pos).1.claim id
        ⟨key, quantity, ((s.reservations.get? id).bind Claim.party).or party⟩) key 0 qty := by
    apply Effect.claim rfl
    · intro c hc
      rw [positionAt_reservations] at hc
      exact hposition c hc
    · rw [positionAt_reservations, hshare]
      exact hvalue
  refine ⟨?_, by omega⟩
  have := hopened.trans hclaim
  simpa using this

theorem release_effect {id : String} {qty : ℤ} {path : String}
    (h : s.release key id qty path = .ok t) : Effect scale s t key 0 (-qty) := by
  simp only [release, bind_eq_ok, demand_eq_ok, require_eq_ok] at h
  obtain ⟨current, hcurrent, _, hposition, held, hheld, _, hle, h⟩ := h
  have hvalue : valueOf goodsScale current.quantity = held :=
    Measure.read_eq_ok hheld
  split at h
  next hall =>
    simp only [pure_eq_ok] at h
    subst h
    rw [← hall, ← hvalue]
    exact .withdraw hcurrent hposition
  next =>
    simp only [bind_eq_ok, pure_eq_ok] at h
    obtain ⟨quantity, hwrite, rfl⟩ := h
    have hrest : valueOf goodsScale quantity = held - qty :=
      Measure.write_eq_ok hwrite
    apply Effect.claim
    · exact hposition
    · intro c hc
      rw [hcurrent] at hc
      cases hc
      exact hposition
    · rw [Dict.share_of_get? _ hcurrent, hvalue]
      show valueOf goodsScale quantity = _
      omega

theorem consume_effect (hscale : scale ≤ 12) {qty : ℤ} {path : String}
    (h : s.consume ⟨scale, signed⟩ key pos qty path = .ok t) : Effect scale s t key (-qty) 0 := by
  simp only [consume, bind_eq_ok, demand_eq_ok, pure_eq_ok, positionAt_snd, positionAt_write] at h
  obtain ⟨have_, hread, _, -, quantity, hwrite, rfl⟩ := h
  apply Effect.write
  show valueOf scale quantity = _
  rw [Measure.write_eq_ok hwrite, ← valueOf_found hscale s key pos, Measure.read_eq_ok hread]
  omega

/-- How much an operation takes from a position and how it changes the claims there. -/
def taken : OpKind → ℤ → ℤ
  | .fulfill, qty => -qty
  | _, _ => 0

def claimed : OpKind → ℤ → ℤ
  | .reserve, qty => qty
  | _, qty => -qty

theorem reservation_effect (hscale : scale ≤ 12) {tracking : Tracking} {serialized : String}
    {kind : OpKind} {id : String} {qty : ℤ} {party : Option R} {path : String}
    (h : s.reservation ⟨scale, signed⟩ tracking serialized kind key pos id qty party path = .ok t) :
    Effect scale s t key (taken kind qty) (claimed kind qty) ∧
      (kind = .reserve → qty ≤ s.quantityAt scale key - s.reserved key) := by
  cases kind with
  | reserve =>
    obtain ⟨heffect, hfree⟩ := reserve_effect hscale h
    exact ⟨heffect, fun _ => hfree⟩
  | release =>
    refine ⟨release_effect h, ?_⟩
    intro hkind
    cases hkind
  | fulfill =>
    simp only [reservation, bind_eq_ok, demand_eq_ok] at h
    obtain ⟨released, hreleased, _, -, hconsumed⟩ := h
    have heffect := (release_effect hreleased).trans
      (consume_effect hscale hconsumed)
    simp only [zero_add, add_zero] at heffect
    refine ⟨heffect, ?_⟩
    intro hkind
    cases hkind

theorem debit_effect (hscale : scale ≤ 12) {qty : ℤ} {serials : List String}
    {bounded claimed : Bool} {free path : String}
    (h : s.debit ⟨scale, signed⟩ key pos qty serials bounded claimed free path = .ok t) :
    Effect scale s t key (-qty) 0 ∧ (bounded = true →
      qty ≤ s.quantityAt scale key - if claimed = true then s.reserved key else 0) := by
  simp only [debit, bind_eq_ok, positionAt_snd, positionAt_write, pure_eq_ok,
    demandLeft_eq_ok] at h
  obtain ⟨have_, hread, n, hreserved, _, hleft, quantity, hwrite, rest, -, rfl⟩ := h
  have hquantity : s.quantityAt scale key = have_ := by
    rw [← valueOf_found hscale s key pos]
    exact Measure.read_eq_ok hread
  have hclaims : n = if claimed = true then s.reserved key else 0 := by
    rw [boundAt_eq_ok hreserved, (Effect.positionAt hscale s key pos).reserved key, if_pos rfl,
      add_zero]
  constructor
  · apply Effect.write
    show valueOf scale quantity = _
    rw [Measure.write_eq_ok hwrite]
    omega
  · intro htrue
    have := hleft htrue
    omega

theorem credit_effect (hscale : scale ≤ 12) {qty : ℤ} {serials : List String}
    (h : s.credit ⟨scale, signed⟩ key pos qty serials = .ok t) : Effect scale s t key qty 0 := by
  simp only [credit, bind_eq_ok, pure_eq_ok, positionAt_snd, positionAt_write] at h
  obtain ⟨have_, hread, quantity, hwrite, rfl⟩ := h
  apply Effect.write
  show valueOf scale quantity = _
  rw [Measure.write_eq_ok hwrite, ← valueOf_found hscale s key pos, Measure.read_eq_ok hread]

end Stock

end DirectTrade.Flow
