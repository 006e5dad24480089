import Mathlib.Tactic.Ring
import DirectTrade.Near.Runs

/-!
What each call does to the trades: most keep them, accepting an offer forms one,
and the calls of delivery advance one. The effects are read off the calls once,
in terms of the contracts, fulfillments and settlements and of what a settlement
counts elsewhere: transfers of lots, trades of a pair and trades of a party.
-/

namespace DirectTrade.Near

open Library Outcome

/-- An id that the counter has given out, up to `n`. -/
def IssuedBy (stem : String) (n : ℕ) (id : String) : Prop :=
  ∃ k, k ≤ n ∧ id = stem ++ toString k

theorem numbered_inj {stem : String} {m n : ℕ} (h : stem ++ toString m = stem ++ toString n) :
    m = n := by
  have htext : toString m = toString n := (String.append_right_inj stem).mp h
  have hdigits : Nat.toDigits 10 m = Nat.toDigits 10 n := by
    simpa only [Nat.toString_eq_repr, Nat.toList_repr] using congrArg String.toList htext
  have hvalue := congrArg (fun digits => Nat.ofDigitChars 10 digits 0) hdigits
  simpa only [Nat.ofDigitChars_ten_toDigits] using hvalue

theorem not_issuedBy (stem : String) {n k : ℕ} (h : n < k) :
    ¬ IssuedBy stem n (stem ++ toString k) := by
  rintro ⟨j, hj, heq⟩
  have := numbered_inj heq
  omega

theorem IssuedBy.mono {stem id : String} {m n : ℕ} (h : IssuedBy stem m id) (hmn : m ≤ n) :
    IssuedBy stem n id := by
  obtain ⟨k, hk, hid⟩ := h
  exact ⟨k, by omega, hid⟩

/-- Every id in use in a table was given out by the counter. -/
def Issued {β : Type} (stem : String) (n : ℕ) (d : Dict String β) : Prop :=
  ∀ id, d.get? id ≠ none → IssuedBy stem n id

theorem issued_empty {β : Type} (stem : String) (n : ℕ) : Issued stem n (∅ : Dict String β) :=
  fun _ h => absurd rfl h

theorem Issued.mono {β : Type} {stem : String} {m n : ℕ} {d : Dict String β}
    (h : Issued stem m d) (hmn : m ≤ n) : Issued stem n d :=
  fun id hid => (h id hid).mono hmn

theorem Issued.fresh {β : Type} {stem : String} {n k : ℕ} {d : Dict String β}
    (h : Issued stem n d) (hk : n < k) : d.get? (stem ++ toString k) = none := by
  by_contra hne
  exact not_issuedBy stem hk (h _ hne)

theorem Issued.set {β : Type} {stem id : String} {n : ℕ} {d : Dict String β}
    (h : Issued stem n d) (hid : IssuedBy stem n id) (v : β) : Issued stem n (d.set id v) := by
  intro i hi
  by_cases hik : i = id
  · rw [hik]
    exact hid
  · rw [Dict.get?_set_of_ne _ _ hik] at hi
    exact h i hi

theorem Issued.replace {β : Type} {stem id : String} {n : ℕ} {d : Dict String β} {v : β}
    (h : Issued stem n d) (hid : d.get? id = some v) (w : β) : Issued stem n (d.set id w) :=
  h.set (h id (by simp [hid])) w

theorem nextIdFor_spec {s t : DTPContract} {stem id : String}
    (h : nextIdFor s stem = .ok (t, id)) :
    t.idCounter.val = s.idCounter.val + 1 ∧ t = { s with idCounter := t.idCounter } ∧
      id = stem ++ toString (s.idCounter.val + 1) := by
  simp only [nextIdFor, bind_eq_ok] at h
  obtain ⟨next, hnext, h⟩ := h
  have hval : next.val = s.idCounter.val + 1 := checkedAdd_eq_ok hnext
  cases h
  exact ⟨hval, rfl, by rw [hval]⟩

/-- The settlements of a contract. -/
def DTPContract.settlementsOf (s : DTPContract) (contractId : String) : List Settlement :=
  s.settlements.values.filter fun st => decide (st.contractId = contractId)

/-- How often a contract has handed a lot over. -/
def DTPContract.transfers (s : DTPContract) (lotId contractId : String) : ℕ :=
  match s.lots.get? lotId with
  | none => 0
  | some lot => lot.provenance.countP fun e => decide (e.contractId = contractId)

/-- The trades that a pair's record counts, with their volume. -/
def DTPContract.traded (s : DTPContract) (key : String) : ℕ × ℕ :=
  match s.relationships.get? key with
  | none => (0, 0)
  | some rel => (rel.tradesCompleted.val, rel.totalVolume.val)

/-- The trades that a registered party's reputation counts. -/
def DTPContract.completed (s : DTPContract) (account : AccountId) : Option ℕ :=
  (s.parties.get? account).map fun party => party.reputation.tradesCompleted.val

def LotsIssued (s : DTPContract) : Prop := Issued "lot-" s.idCounter.val s.lots

def Registered (s : DTPContract) (a : AccountId) : Prop := s.completed a ≠ none

theorem registered_iff {s : DTPContract} {a : AccountId} :
    Registered s a ↔ (s.parties.get? a).isSome = true := by
  cases h : s.parties.get? a <;> simp [Registered, DTPContract.completed, h]

/-- Those who posted, listed or offered are registered parties. -/
structure Traders (s : DTPContract) : Prop where
  buyers : ∀ id intent, s.intents.get? id = some intent → Registered s intent.buyer
  sellers : ∀ id listing, s.listings.get? id = some listing → Registered s listing.seller
  offerers : ∀ id offer, s.offers.get? id = some offer → Registered s offer.offerer

/-- The trades and all that settlements count are as before. -/
structure Kept (s t : DTPContract) : Prop where
  contracts : t.contracts = s.contracts
  fulfillments : t.fulfillments = s.fulfillments
  settlements : t.settlements = s.settlements
  counter : s.idCounter.val ≤ t.idCounter.val
  lots : LotsIssued s → LotsIssued t
  traders : Traders s → Traders t
  transfers : ∀ lotId c, t.transfers lotId c = s.transfers lotId c
  traded : ∀ key, t.traded key = s.traded key
  completed : ∀ a n, s.completed a = some n → t.completed a = some n
  joined : ∀ a n, s.completed a = none → t.completed a = some n → n = 0

variable {s t u : DTPContract} {env : Env}

theorem Traders.of_tables (h : Traders s) (hi : t.intents = s.intents)
    (hl : t.listings = s.listings) (ho : t.offers = s.offers)
    (hreg : ∀ a, Registered s a → Registered t a) : Traders t where
  buyers := by
    intro id intent hid
    rw [hi] at hid
    exact hreg _ (h.buyers id intent hid)
  sellers := by
    intro id listing hid
    rw [hl] at hid
    exact hreg _ (h.sellers id listing hid)
  offerers := by
    intro id offer hid
    rw [ho] at hid
    exact hreg _ (h.offerers id offer hid)

theorem Kept.of_tables (hc : t.contracts = s.contracts) (hf : t.fulfillments = s.fulfillments)
    (hs : t.settlements = s.settlements) (hl : t.lots = s.lots)
    (hr : t.relationships = s.relationships) (hp : t.parties = s.parties)
    (hi : t.intents = s.intents) (hli : t.listings = s.listings) (ho : t.offers = s.offers)
    (hn : s.idCounter.val ≤ t.idCounter.val) : Kept s t where
  contracts := hc
  fulfillments := hf
  settlements := hs
  counter := hn
  lots := by
    intro h
    unfold LotsIssued
    rw [hl]
    exact h.mono hn
  traders := by
    intro h
    refine h.of_tables hi hli ho ?_
    intro a ha
    simpa [Registered, DTPContract.completed, hp] using ha
  transfers := by simp [DTPContract.transfers, hl]
  traded := by simp [DTPContract.traded, hr]
  completed := by
    intro a n h
    simpa [DTPContract.completed, hp] using h
  joined := by
    intro a n h h'
    simp only [DTPContract.completed, hp] at h h'
    rw [h] at h'
    cases h'

/-- Only tables beside the trades differ. -/
theorem Kept.aside (h : t = { s with
      catalogs := t.catalogs, standingAgreements := t.standingAgreements
      financePools := t.financePools, fsmaCtes := t.fsmaCtes, lotCteIndex := t.lotCteIndex
      auditLog := t.auditLog, auditIndex := t.auditIndex, idCounter := t.idCounter })
    (hn : s.idCounter.val ≤ t.idCounter.val) : Kept s t := by
  refine .of_tables ?_ ?_ ?_ ?_ ?_ ?_ ?_ ?_ ?_ hn
  all_goals rw [h]

theorem Kept.refl (s : DTPContract) : Kept s s := .aside rfl le_rfl

theorem Kept.trans (h : Kept s t) (h' : Kept t u) : Kept s u where
  contracts := h'.contracts.trans h.contracts
  fulfillments := h'.fulfillments.trans h.fulfillments
  settlements := h'.settlements.trans h.settlements
  counter := le_trans h.counter h'.counter
  lots := fun hs => h'.lots (h.lots hs)
  traders := fun hs => h'.traders (h.traders hs)
  transfers := fun l c => (h'.transfers l c).trans (h.transfers l c)
  traded := fun k => (h'.traded k).trans (h.traded k)
  completed := fun a n hn => h'.completed a n (h.completed a n hn)
  joined := by
    intro a n hs hu
    cases ht : t.completed a with
    | none => exact h'.joined a n ht hu
    | some m =>
      have hm : m = 0 := h.joined a m hs ht
      have := h'.completed a m ht
      rw [hu] at this
      cases this
      exact hm

theorem Kept.registered (h : Kept s t) {a : AccountId} (ha : Registered s a) : Registered t a := by
  unfold Registered at ha ⊢
  cases hs : s.completed a with
  | none => exact absurd hs ha
  | some n => simp [h.completed a n hs]

theorem Kept.nextIdFor {stem id : String} (h : Near.nextIdFor s stem = .ok (t, id)) :
    Kept s t := by
  obtain ⟨hcount, ht, -⟩ := nextIdFor_spec h
  rw [ht]
  refine .aside rfl ?_
  show s.idCounter.val ≤ t.idCounter.val
  omega

theorem emit_eq_ok {e : AuditEvent} (h : emit s e = .ok t) : t = recordEvent s e := by
  simp only [emit, bind_eq_ok, demand_eq_ok] at h
  obtain ⟨-, -, h⟩ := h
  cases h
  rfl

theorem Kept.emit {e : AuditEvent} (h : Near.emit u e = .ok t) (hs : Kept s u) : Kept s t := by
  rw [emit_eq_ok h]
  exact hs.trans (.aside rfl le_rfl)

/-- Only the traders of one table are affected. -/
theorem Kept.of_traders (h : t = { s with
      intents := t.intents, listings := t.listings, offers := t.offers })
    (htraders : Traders s → Traders t) : Kept s t :=
  have hkept : Kept s { t with
      intents := s.intents, listings := s.listings, offers := s.offers } := by
    rw [h]
    exact .refl s
  { hkept with traders := htraders }

theorem Kept.setIntent {id : String} {intent : TradeIntent}
    (h : Traders s → Registered s intent.buyer) :
    Kept s { s with intents := s.intents.set id intent } := by
  refine .of_traders rfl (fun hs => ⟨?_, hs.sellers, hs.offerers⟩)
  intro i x hx
  rw [Dict.get?_set] at hx
  split at hx
  · cases hx
    exact h hs
  · exact hs.buyers i x hx

theorem Kept.setListing {id : String} {listing : SupplyListing}
    (h : Traders s → Registered s listing.seller) :
    Kept s { s with listings := s.listings.set id listing } := by
  refine .of_traders rfl (fun hs => ⟨hs.buyers, ?_, hs.offerers⟩)
  intro i x hx
  rw [Dict.get?_set] at hx
  split at hx
  · cases hx
    exact h hs
  · exact hs.sellers i x hx

theorem Kept.setOffer {id : String} {offer : Offer}
    (h : Traders s → Registered s offer.offerer) :
    Kept s { s with offers := s.offers.set id offer } := by
  refine .of_traders rfl (fun hs => ⟨hs.buyers, hs.sellers, ?_⟩)
  intro i x hx
  rw [Dict.get?_set] at hx
  split at hx
  · cases hx
    exact h hs
  · exact hs.offerers i x hx

theorem Kept.setParty {a : AccountId} {party updated : Party}
    (hparty : s.parties.get? a = some party)
    (hsame : updated.reputation.tradesCompleted = party.reputation.tradesCompleted) :
    Kept s { s with parties := s.parties.set a updated } where
  contracts := rfl
  fulfillments := rfl
  settlements := rfl
  counter := le_rfl
  lots := id
  traders := by
    intro h
    refine h.of_tables rfl rfl rfl ?_
    intro b hb
    by_cases hab : b = a
    · simp [Registered, DTPContract.completed, hab]
    · simpa [Registered, DTPContract.completed, Dict.get?_set_of_ne _ _ hab] using hb
  transfers := fun _ _ => rfl
  traded := fun _ => rfl
  completed := by
    intro b n h
    by_cases hb : b = a
    · subst b
      simpa [DTPContract.completed, hparty, hsame] using h
    · simpa [DTPContract.completed, Dict.get?_set_of_ne _ _ hb] using h
  joined := by
    intro b n h h'
    by_cases hb : b = a
    · subst b
      simp [DTPContract.completed, hparty] at h
    · simp [DTPContract.completed, Dict.get?_set_of_ne _ _ hb] at h h'
      simp [h] at h'

theorem Kept.newParty {a : AccountId} {party : Party} (hnew : s.parties.get? a = none)
    (hzero : party.reputation.tradesCompleted = 0) :
    Kept s { s with parties := s.parties.set a party } where
  contracts := rfl
  fulfillments := rfl
  settlements := rfl
  counter := le_rfl
  lots := id
  traders := by
    intro h
    refine h.of_tables rfl rfl rfl ?_
    intro b hb
    by_cases hab : b = a
    · simp [Registered, DTPContract.completed, hab]
    · simpa [Registered, DTPContract.completed, Dict.get?_set_of_ne _ _ hab] using hb
  transfers := fun _ _ => rfl
  traded := fun _ => rfl
  completed := by
    intro b n h
    by_cases hb : b = a
    · subst b
      simp [DTPContract.completed, hnew] at h
    · simpa [DTPContract.completed, Dict.get?_set_of_ne _ _ hb] using h
  joined := by
    intro b n h h'
    by_cases hb : b = a
    · subst b
      simpa [DTPContract.completed, hzero, eq_comm] using h'
    · simp [DTPContract.completed, Dict.get?_set_of_ne _ _ hb] at h h'
      simp [h] at h'

theorem Kept.setLot {lotId : String} {lot updated : GoodsLot} (hlot : s.lots.get? lotId = some lot)
    (hsame : updated.provenance = lot.provenance) :
    Kept s { s with lots := s.lots.set lotId updated } where
  contracts := rfl
  fulfillments := rfl
  settlements := rfl
  counter := le_rfl
  lots := fun h => Issued.replace h hlot updated
  traders := fun h => h.of_tables rfl rfl rfl fun _ ha => ha
  transfers := by
    intro l c
    by_cases hl : l = lotId
    · subst l
      simp [DTPContract.transfers, hlot, hsame]
    · simp [DTPContract.transfers, Dict.get?_set_of_ne _ _ hl]
  traded := fun _ => rfl
  completed := fun _ _ h => h
  joined := by
    intro a n h h'
    have hsame : s.completed a = some n := h'
    rw [h] at hsame
    cases hsame

theorem Kept.newLot {lotId : String} {lot : GoodsLot} (hissued : LotsIssued s)
    (hid : Near.nextIdFor s "lot-" = .ok (t, lotId)) (hnone : lot.provenance = []) :
    Kept s { t with lots := t.lots.set lotId lot } := by
  obtain ⟨hcount, ht, hlotId⟩ := nextIdFor_spec hid
  have hfresh : s.lots.get? lotId = none := by
    rw [hlotId]
    exact hissued.fresh (by omega)
  have hlots : t.lots = s.lots := by rw [ht]
  refine (Kept.nextIdFor hid).trans ?_
  exact {
    contracts := rfl
    fulfillments := rfl
    settlements := rfl
    counter := le_rfl
    lots := fun h => Issued.set h ⟨t.idCounter.val, le_rfl, by rw [hcount, hlotId]⟩ lot
    traders := fun h => h.of_tables rfl rfl rfl fun _ ha => ha
    transfers := by
      intro l c
      by_cases hl : l = lotId
      · subst l
        simp [DTPContract.transfers, hlots, hfresh, hnone]
      · simp [DTPContract.transfers, Dict.get?_set_of_ne _ _ hl]
    traded := fun _ => rfl
    completed := fun _ _ h => h
    joined := by
      intro a n h h'
      have hsame : t.completed a = some n := h'
      rw [h] at hsame
      cases hsame }

theorem Kept.setRelationship {key : String} {rel updated : RelationshipRecord}
    (hrel : s.relationships.get? key = some rel)
    (htrades : updated.tradesCompleted = rel.tradesCompleted)
    (hvolume : updated.totalVolume = rel.totalVolume) :
    Kept s { s with relationships := s.relationships.set key updated } where
  contracts := rfl
  fulfillments := rfl
  settlements := rfl
  counter := le_rfl
  lots := id
  traders := fun h => h.of_tables rfl rfl rfl fun _ ha => ha
  transfers := fun _ _ => rfl
  traded := by
    intro k
    by_cases hk : k = key
    · subst k
      simp [DTPContract.traded, hrel, htrades, hvolume]
    · simp [DTPContract.traded, Dict.get?_set_of_ne _ _ hk]
  completed := fun _ _ h => h
  joined := by
    intro a n h h'
    have hsame : s.completed a = some n := h'
    rw [h] at hsame
    cases hsame

/-- A registered party keeps its reputation; one that joins starts with a fresh one. -/
structure SameReputations (s t : DTPContract) : Prop where
  kept : ∀ a q, s.parties.get? a = some q →
    ∃ p, t.parties.get? a = some p ∧ p.reputation = q.reputation
  fresh : ∀ a p, s.parties.get? a = none → t.parties.get? a = some p →
    p.reputation = .default

theorem SameReputations.of_eq (h : t.parties = s.parties) : SameReputations s t where
  kept := by
    intro a q hq
    exact ⟨q, by rw [h]; exact hq, rfl⟩
  fresh := by
    intro a p hs ht
    rw [h, hs] at ht
    cases ht

theorem SameReputations.trans (h : SameReputations s t) (h' : SameReputations t u) :
    SameReputations s u where
  kept := by
    intro a q hq
    obtain ⟨p, hp, hsame⟩ := h.kept a q hq
    obtain ⟨r, hr, hsame'⟩ := h'.kept a p hp
    exact ⟨r, hr, hsame'.trans hsame⟩
  fresh := by
    intro a p hs hu
    cases ht : t.parties.get? a with
    | none => exact h'.fresh a p ht hu
    | some q =>
      have hdefault := h.fresh a q hs ht
      obtain ⟨r, hr, hsame⟩ := h'.kept a q ht
      rw [hu] at hr
      cases hr
      exact hsame.trans hdefault

theorem SameReputations.set {a : AccountId} {updated : Party}
    (hkept : ∀ q, s.parties.get? a = some q → updated.reputation = q.reputation)
    (hfresh : s.parties.get? a = none → updated.reputation = .default) :
    SameReputations s { s with parties := s.parties.set a updated } where
  kept := by
    intro b q hq
    by_cases hb : b = a
    · subst b
      exact ⟨updated, by simp, hkept q hq⟩
    · exact ⟨q, by simpa [Dict.get?_set_of_ne _ _ hb] using hq, rfl⟩
  fresh := by
    intro b p hs ht
    by_cases hb : b = a
    · subst b
      simp only [Dict.get?_set_self, Option.some.injEq] at ht
      rw [← ht]
      exact hfresh hs
    · simp [Dict.get?_set_of_ne _ _ hb, hs] at ht

/-- Beside the trades, the lots, the pairs with their agreements and the reputations
are as before. -/
structure Quiet (s t : DTPContract) : Prop extends Kept s t where
  stock : t.lots = s.lots
  agreements : t.standingAgreements = s.standingAgreements
  relationships : t.relationships = s.relationships
  reputations : SameReputations s t

theorem Quiet.of_kept (h : Kept s t) (hl : t.lots = s.lots)
    (ha : t.standingAgreements = s.standingAgreements)
    (hr : t.relationships = s.relationships) (hp : t.parties = s.parties) : Quiet s t :=
  { h with stock := hl, agreements := ha, relationships := hr, reputations := .of_eq hp }

theorem Quiet.aside (h : t = { s with
      catalogs := t.catalogs, financePools := t.financePools, fsmaCtes := t.fsmaCtes
      lotCteIndex := t.lotCteIndex, auditLog := t.auditLog, auditIndex := t.auditIndex
      idCounter := t.idCounter })
    (hn : s.idCounter.val ≤ t.idCounter.val) : Quiet s t := by
  have hkept : Kept s t := by
    rw [h]
    exact .aside rfl hn
  refine .of_kept hkept ?_ ?_ ?_ ?_
  all_goals rw [h]

theorem Quiet.refl (s : DTPContract) : Quiet s s := .aside rfl le_rfl

theorem Quiet.trans (h : Quiet s t) (h' : Quiet t u) : Quiet s u :=
  { h.toKept.trans h'.toKept with
    stock := h'.stock.trans h.stock
    agreements := h'.agreements.trans h.agreements
    relationships := h'.relationships.trans h.relationships
    reputations := h.reputations.trans h'.reputations }

theorem Quiet.nextIdFor {stem id : String} (h : Near.nextIdFor s stem = .ok (t, id)) :
    Quiet s t := by
  obtain ⟨-, ht, -⟩ := nextIdFor_spec h
  refine .of_kept (.nextIdFor h) ?_ ?_ ?_ ?_
  all_goals rw [ht]

theorem Quiet.emit {e : AuditEvent} (h : Near.emit u e = .ok t) (hs : Quiet s u) : Quiet s t := by
  rw [emit_eq_ok h]
  exact hs.trans (.aside rfl le_rfl)

theorem Quiet.setParty {a : AccountId} {party updated : Party}
    (hparty : s.parties.get? a = some party) (hsame : updated.reputation = party.reputation) :
    Quiet s { s with parties := s.parties.set a updated } :=
  { Kept.setParty hparty (by rw [hsame]) with
    stock := rfl
    agreements := rfl
    relationships := rfl
    reputations := by
      refine .set ?_ ?_
      · intro q hq
        rw [hparty] at hq
        cases hq
        exact hsame
      · intro hnone
        rw [hparty] at hnone
        cases hnone }

end DirectTrade.Near
