import DirectTrade.Near.Once

/-!
The records of pairs and the reputations of parties. Whatever the order of trades and
signatures, they agree with the history, except that a record made by a settlement does
not list the agreements that became active before it.
-/

namespace DirectTrade.Near

open Library Outcome

variable {s t : DTPContract} {env : Env} {m : Method}

theorem AccountId.colon_not_mem (a : AccountId) : ':' ∉ a.name.toList := by
  intro hmem
  have hvalid := List.all_eq_true.mp a.valid.1 ':' hmem
  exact absurd hvalid (by decide)

theorem AccountId.ext_name {a b : AccountId} (h : a.name = b.name) : a = b := by
  cases a
  cases b
  cases h
  rfl

theorem joined_inj {a b x y : AccountId}
    (h : a.name ++ ":" ++ b.name = x.name ++ ":" ++ y.name) : a = x ∧ b = y := by
  have htexts := congrArg String.toList h
  simp only [String.toList_append] at htexts
  have hcolon : ":".toList = [':'] := rfl
  rw [hcolon, List.append_assoc, List.append_assoc, List.singleton_append, List.singleton_append,
    List.append_cons_inj_of_notMem a.colon_not_mem b.colon_not_mem] at htexts
  obtain ⟨hfirst, -, hsecond⟩ := htexts
  exact ⟨AccountId.ext_name (String.ext hfirst), AccountId.ext_name (String.ext hsecond)⟩

theorem RelationshipRecord.key_comm (a b : AccountId) : key a b = key b a := by
  unfold key
  by_cases hba : b.name < a.name
  · rw [if_pos hba, if_neg (String.lt_asymm hba)]
  · by_cases hab : a.name < b.name
    · rw [if_neg hba, if_pos hab]
    · have hsame : a.name = b.name :=
        String.le_antisymm (String.not_lt.mp hba) (String.not_lt.mp hab)
      rw [if_neg hba, if_neg hab, hsame]

/-- A key names one pair of accounts. -/
theorem RelationshipRecord.key_eq_iff {a b x y : AccountId} :
    key a b = key x y ↔ (a = x ∧ b = y) ∨ (a = y ∧ b = x) := by
  constructor
  · intro h
    unfold key at h
    split at h <;> split at h
    · obtain ⟨hb, ha⟩ := joined_inj h
      exact .inl ⟨ha, hb⟩
    · obtain ⟨hb, ha⟩ := joined_inj h
      exact .inr ⟨ha, hb⟩
    · obtain ⟨ha, hb⟩ := joined_inj h
      exact .inr ⟨ha, hb⟩
    · obtain ⟨ha, hb⟩ := joined_inj h
      exact .inl ⟨ha, hb⟩
  · intro h
    obtain ⟨rfl, rfl⟩ | ⟨rfl, rfl⟩ := h
    · rfl
    · exact key_comm a b

/-- The counters are bounded by the trades and the score is computed from them. -/
structure ReputationRecord.Fair (r : ReputationRecord) : Prop where
  disputed : r.tradesDisputed ≤ r.tradesCompleted
  onTime : r.tradesSettledOnTime ≤ r.tradesCompleted
  accuracy : r.averageDeliveryAccuracy.val = 10000
  computed : r.recompute = r

theorem ReputationRecord.fair_default : default.Fair where
  disputed := Nat.le_refl _
  onTime := Nat.le_refl _
  accuracy := rfl
  computed := rfl

theorem Reputed.fair {r r' : ReputationRecord} (h : Reputed r r') (hr : r.Fair) : r'.Fair where
  disputed := by
    have hbefore : r.tradesDisputed.val ≤ r.tradesCompleted.val := hr.disputed
    have hone := h.disputed
    have htrade := h.completed
    show r'.tradesDisputed.val ≤ r'.tradesCompleted.val
    omega
  onTime := by
    have hbefore : r.tradesSettledOnTime.val ≤ r.tradesCompleted.val := hr.onTime
    have hone := h.onTime
    have htrade := h.completed
    show r'.tradesSettledOnTime.val ≤ r'.tradesCompleted.val
    omega
  accuracy := by
    rw [h.accuracy]
    exact hr.accuracy
  computed := h.score

theorem ReputationRecord.Fair.score_le {r : ReputationRecord} (h : r.Fair) :
    r.score.val ≤ 10000 := by
  rw [← h.computed]
  unfold recompute
  split
  · show (10000 : U32).val ≤ 10000
    decide
  · show (Fin.ofNat (2 ^ 32) _).val ≤ 10000
    rw [h.accuracy, Nat.mul_div_cancel _ (by norm_num), Fin.val_ofNat]
    have hmod := Nat.mod_le (10000 - r.tradesDisputed.val * 10000 / r.tradesCompleted.val) (2 ^ 32)
    exact hmod.trans (Nat.sub_le _ _)

/-- Every reputation is fair. -/
def Fairly (s : DTPContract) : Prop :=
  ∀ a p, s.parties.get? a = some p → p.reputation.Fair

theorem Fairly.same (hs : Fairly s) (h : SameReputations s t) : Fairly t := by
  intro a p hp
  cases hq : s.parties.get? a with
  | none =>
    rw [h.fresh a p hq hp]
    exact ReputationRecord.fair_default
  | some q =>
    obtain ⟨x, hx, hsame⟩ := h.kept a q hq
    rw [hp, Option.some.injEq] at hx
    subst x
    rw [hsame]
    exact hs a q hq

theorem ReputationRecord.Fair.traded {r r' : ReputationRecord} (hr : r.Fair)
    (h : Relation.ReflTransGen Reputed r r') : r'.Fair := by
  induction h with
  | refl => exact hr
  | tail _ hstep ih => exact hstep.fair ih

theorem Fairly.scored (hs : Fairly s) (h : Scored s t) : Fairly t := by
  intro a p hp
  obtain ⟨q, hq, hsteps⟩ := h a p hp
  exact (hs a q hq).traded hsteps

theorem Fairly.turn (hs : Fairly s) (h : Turn s t env m) : Fairly t := by
  have hsame : t.parties = s.parties → Fairly t := fun hp => hs.same (.of_eq hp)
  cases h with
  | kept h how =>
    cases how with
    | quiet h hm => exact hs.same h.reputations
    | stocked h hagreements hrelationships hparties => exact hsame hparties
    | bonded h hm hlots hparties => exact hsame hparties
  | formed offer c h hm => exact hsame h.reputations
  | attested ful c c' f h =>
    exact hs.same ⟨h.rest.reputations.kept, h.rest.reputations.fresh⟩
  | disputed ful c c' f f' h =>
    exact hs.same ⟨h.rest.reputations.kept, h.rest.reputations.fresh⟩
  | concluded ful c c' f f' st h => exact hs.scored h.scored

/-- An active agreement of the pair that a key names. -/
def ActiveFor (s : DTPContract) (key id : String) : Prop :=
  ∃ agreement, s.standingAgreements.get? id = some agreement ∧ agreement.status = .active ∧
    RelationshipRecord.key agreement.buyer agreement.seller = key

/-- A call whose guards pass settles the first trade of a pair that has an active agreement
already. -/
def Unlisted (s : DTPContract) (env : Env) (m : Method) : Prop :=
  ∃ c, Settling s env c m ∧
    s.relationships.get? (RelationshipRecord.key c.buyer c.seller) = none ∧
    ∃ id, ActiveFor s (RelationshipRecord.key c.buyer c.seller) id

theorem signedBy_spec {found agreement : StandingAgreement}
    (h : signedBy found env = .ok agreement) :
    agreement.buyer = found.buyer ∧ agreement.seller = found.seller ∧
      agreement.status = found.status ∧ ¬ found.Signed := by
  unfold signedBy at h
  split at h
  · simp only [bind_eq_ok, demand_eq_ok] at h
    obtain ⟨_, hunsigned, h⟩ := h
    cases h
    exact ⟨rfl, rfl, rfl, by simp [StandingAgreement.Signed, hunsigned]⟩
  · split at h
    · simp only [bind_eq_ok, demand_eq_ok] at h
      obtain ⟨_, hunsigned, h⟩ := h
      cases h
      exact ⟨rfl, rfl, rfl, by simp [StandingAgreement.Signed, hunsigned]⟩
    · cases h

theorem activeFor_of_eq (h : t.standingAgreements = s.standingAgreements) (k i : String) :
    ActiveFor t k i ↔ ActiveFor s k i := by
  unfold ActiveFor
  rw [h]

/-- An agreement is written that neither was nor becomes active. -/
theorem activeFor_set {id : String} {agreement : StandingAgreement}
    (h : t.standingAgreements = s.standingAgreements.set id agreement)
    (hbefore : ∀ old, s.standingAgreements.get? id = some old → old.status ≠ .active)
    (hafter : agreement.status ≠ .active) (k i : String) : ActiveFor t k i ↔ ActiveFor s k i := by
  unfold ActiveFor
  rw [h]
  by_cases hi : i = id
  · subst i
    constructor
    · intro hactive
      obtain ⟨x, hx, hstatus, -⟩ := hactive
      rw [Dict.get?_set_self, Option.some.injEq] at hx
      rw [← hx] at hstatus
      exact absurd hstatus hafter
    · intro hactive
      obtain ⟨x, hx, hstatus, -⟩ := hactive
      exact absurd hstatus (hbefore x hx)
  · rw [Dict.get?_set_of_ne _ _ hi]

/-- An agreement becomes active. -/
theorem activeFor_activated {id : String} {agreement : StandingAgreement}
    (h : t.standingAgreements = s.standingAgreements.set id agreement)
    (hbefore : ∀ old, s.standingAgreements.get? id = some old → old.status ≠ .active)
    (hafter : agreement.status = .active) (k i : String) : ActiveFor t k i ↔ ActiveFor s k i ∨
      (i = id ∧ RelationshipRecord.key agreement.buyer agreement.seller = k) := by
  unfold ActiveFor
  rw [h]
  by_cases hi : i = id
  · subst i
    rw [Dict.get?_set_self]
    constructor
    · intro hactive
      obtain ⟨x, hx, -, hkey⟩ := hactive
      rw [Option.some.injEq] at hx
      subst x
      exact .inr ⟨rfl, hkey⟩
    · intro hactive
      obtain ⟨x, hx, hstatus, -⟩ | ⟨-, hkey⟩ := hactive
      · exact absurd hstatus (hbefore x hx)
      · exact ⟨agreement, rfl, hafter, hkey⟩
  · rw [Dict.get?_set_of_ne _ _ hi]
    simp [hi]

/-- What the record of a pair says about its agreements. -/
structure Lists (s : DTPContract) (k : String) (rel : RelationshipRecord) : Prop where
  listed : ∀ id, id ∈ rel.standingAgreementIds ↔ ActiveFor s k id
  nodup : rel.standingAgreementIds.Nodup
  tier : rel.tier = .derive rel.tradesCompleted rel.totalVolume (!rel.standingAgreementIds.isEmpty)

theorem Lists.congr {k : String} {rel : RelationshipRecord} (h : Lists s k rel)
    (hactive : ∀ id, ActiveFor t k id ↔ ActiveFor s k id) : Lists t k rel :=
  ⟨fun id => (h.listed id).trans (hactive id).symm, h.nodup, h.tier⟩

/-- Records list the active agreements of their pairs, and an active agreement is signed by
both parties. -/
structure Linked (s : DTPContract) : Prop where
  issued : Issued "agr-" s.idCounter.val s.standingAgreements
  signed : ∀ id a, s.standingAgreements.get? id = some a → a.status = .active → a.Signed
  lists : ∀ k rel, s.relationships.get? k = some rel → Lists s k rel

theorem Linked.new (owner : AccountId) : Linked (.new owner) where
  issued := issued_empty _ _
  signed := fun _ _ h => nomatch h
  lists := fun _ _ h => nomatch h

theorem Linked.of_eq (hs : Linked s) (ha : t.standingAgreements = s.standingAgreements)
    (hr : t.relationships = s.relationships) (hn : s.idCounter.val ≤ t.idCounter.val) :
    Linked t where
  issued := by
    rw [ha]
    exact hs.issued.mono hn
  signed := by
    rw [ha]
    exact hs.signed
  lists := by
    intro k rel hrel
    rw [hr] at hrel
    exact (hs.lists k rel hrel).congr (activeFor_of_eq ha k)

/-- An agreement that still lacks a signature is not active. -/
theorem Linked.inactive (hs : Linked s) {id : String} {found agreement : StandingAgreement}
    (hfound : s.standingAgreements.get? id = some found)
    (hsigned : signedBy found env = .ok agreement) : found.status ≠ .active := by
  intro hactive
  obtain ⟨-, -, -, hunsigned⟩ := signedBy_spec hsigned
  exact hunsigned (hs.signed id found hfound hactive)

/-- An agreement becomes active and is listed, where its pair has a record. -/
theorem Linked.activated (hs : Linked s) {id : String} {agreement : StandingAgreement}
    (hid : ¬ ∃ k, ActiveFor s k id)
    (hactive : ∀ k i, ActiveFor t k i ↔ ActiveFor s k i ∨
      (i = id ∧ RelationshipRecord.key agreement.buyer agreement.seller = k))
    (hr : t.relationships = (linkAgreement s env agreement id).relationships) {k : String}
    {rel : RelationshipRecord} (hrel : t.relationships.get? k = some rel) : Lists t k rel := by
  have hother : ∀ {k rel}, s.relationships.get? k = some rel →
      RelationshipRecord.key agreement.buyer agreement.seller ≠ k → Lists t k rel := by
    intro k rel hrel hne
    refine (hs.lists k rel hrel).congr ?_
    intro i
    simp [hactive, hne]
  unfold linkAgreement at hr
  cases hpair : s.relationships.get? (RelationshipRecord.key agreement.buyer agreement.seller) with
  | none =>
    simp only [hpair] at hr
    rw [hr] at hrel
    refine hother hrel ?_
    intro heq
    rw [heq, hrel] at hpair
    cases hpair
  | some found =>
    have hlists := hs.lists _ found hpair
    have hnew : id ∉ found.standingAgreementIds := fun hmem => hid ⟨_, (hlists.listed id).mp hmem⟩
    simp only [hpair, if_neg hnew] at hr
    rw [hr, Dict.get?_set] at hrel
    split at hrel
    next hk =>
      cases hrel
      subst hk
      refine ⟨?_, ?_, rfl⟩
      · intro i
        simp [hactive, hlists.listed i]
      · show (found.standingAgreementIds ++ [id]).Nodup
        rw [List.nodup_append]
        refine ⟨hlists.nodup, by simp, ?_⟩
        intro i hi j hj heq
        rw [List.mem_singleton] at hj
        rw [heq, hj] at hi
        exact hnew hi
    next hk => exact hother hrel (Ne.symm hk)

theorem Linked.bonds (hs : Linked s) (h : Bonds s t env)
    (hn : s.idCounter.val ≤ t.idCounter.val) : Linked t := by
  cases h with
  | proposed id agreement n hnew hid hcounter hstatus hone hrelationships hagreements =>
    have hfresh : s.standingAgreements.get? id = none := by
      rw [hid]
      exact hs.issued.fresh hnew
    have hbefore : ∀ old, s.standingAgreements.get? id = some old → old.status ≠ .active := by
      intro old hold
      rw [hfresh] at hold
      cases hold
    have hafter : agreement.status ≠ .active := by simp [hstatus]
    refine ⟨?_, ?_, ?_⟩
    · rw [hagreements]
      exact (hs.issued.mono hn).set ⟨n, hcounter, hid⟩ agreement
    · intro i a ha hactive
      rw [hagreements, Dict.get?_set] at ha
      split at ha
      · cases ha
        exact absurd hactive hafter
      · exact hs.signed i a ha hactive
    · intro k rel hrel
      rw [hrelationships] at hrel
      exact (hs.lists k rel hrel).congr (activeFor_set hagreements hbefore hafter k)
  | signed id found agreement hfound hsigned hone hrelationships hagreements =>
    have hinactive := hs.inactive hfound hsigned
    obtain ⟨-, -, hstatus, -⟩ := signedBy_spec hsigned
    have hbefore : ∀ old, s.standingAgreements.get? id = some old → old.status ≠ .active := by
      intro old hold
      rw [hfound, Option.some.injEq] at hold
      rw [← hold]
      exact hinactive
    have hafter : agreement.status ≠ .active := by
      rw [hstatus]
      exact hinactive
    refine ⟨?_, ?_, ?_⟩
    · rw [hagreements]
      exact (hs.issued.mono hn).replace hfound agreement
    · intro i a ha hactive
      rw [hagreements, Dict.get?_set] at ha
      split at ha
      · cases ha
        exact absurd hactive hafter
      · exact hs.signed i a ha hactive
    · intro k rel hrel
      rw [hrelationships] at hrel
      exact (hs.lists k rel hrel).congr (activeFor_set hagreements hbefore hafter k)
  | activated id found agreement hfound hsigned hboth hrelationships hagreements =>
    have hinactive := hs.inactive hfound hsigned
    have hbefore : ∀ old, s.standingAgreements.get? id = some old → old.status ≠ .active := by
      intro old hold
      rw [hfound, Option.some.injEq] at hold
      rw [← hold]
      exact hinactive
    have hid : ¬ ∃ k, ActiveFor s k id := by
      intro hactive
      obtain ⟨k, x, hx, hstatus, -⟩ := hactive
      exact hbefore x hx hstatus
    refine ⟨?_, ?_, ?_⟩
    · rw [hagreements]
      exact (hs.issued.mono hn).replace hfound _
    · intro i a ha hactive
      rw [hagreements, Dict.get?_set] at ha
      split at ha
      · cases ha
        exact hboth
      · exact hs.signed i a ha hactive
    · intro k rel hrel
      exact hs.activated hid (activeFor_activated hagreements hbefore rfl) hrelationships hrel

/-- A trade of a pair keeps what its record lists. -/
theorem Linked.related (hs : Linked s) {now : U64} {buyer seller : AccountId} {volume : Amount}
    (h : Related s.relationships t.relationships now buyer seller volume)
    (ha : t.standingAgreements = s.standingAgreements)
    (hfirst : s.relationships.get? (RelationshipRecord.key buyer seller) = none →
      ¬ ∃ id, ActiveFor s (RelationshipRecord.key buyer seller) id) {k : String}
    {rel : RelationshipRecord} (hrel : t.relationships.get? k = some rel) : Lists t k rel := by
  obtain ⟨old, trades, total, onTime, hold, -, -, hset⟩ := h
  rw [hset, Dict.get?_set] at hrel
  split at hrel
  next hk =>
    cases hrel
    subst hk
    have hsame : ∀ id, id ∈ old.standingAgreementIds ↔
        ActiveFor s (RelationshipRecord.key buyer seller) id := by
      cases hget : s.relationships.get? (RelationshipRecord.key buyer seller) with
      | none =>
        rw [hget, Option.getD_none] at hold
        have hnone := hfirst hget
        intro id
        rw [hold]
        constructor
        · intro hmem
          cases hmem
        · intro hactive
          exact absurd ⟨id, hactive⟩ hnone
      | some found =>
        rw [hget, Option.getD_some] at hold
        rw [hold]
        exact (hs.lists _ found hget).listed
    have hnodup : old.standingAgreementIds.Nodup := by
      cases hget : s.relationships.get? (RelationshipRecord.key buyer seller) with
      | none =>
        rw [hget, Option.getD_none] at hold
        rw [hold]
        exact List.nodup_nil
      | some found =>
        rw [hget, Option.getD_some] at hold
        rw [hold]
        exact (hs.lists _ found hget).nodup
    exact ⟨fun id => (hsame id).trans (activeFor_of_eq ha _ id).symm, hnodup, rfl⟩
  next hk => exact (hs.lists k rel hrel).congr (activeFor_of_eq ha k)

theorem Linked.turn (hs : Linked s) (h : Turn s t env m) (hgood : ¬ Unlisted s env m) :
    Linked t := by
  cases h with
  | kept h how =>
    cases how with
    | quiet hquiet hm => exact hs.of_eq hquiet.agreements hquiet.relationships h.counter
    | stocked hstocks hagreements hrelationships hparties =>
      exact hs.of_eq hagreements hrelationships h.counter
    | bonded hbonds hm hlots hparties => exact hs.bonds hbonds h.counter
  | formed offer c h hm => exact hs.of_eq h.agreements h.relationships h.rest.counter
  | attested ful c c' f h =>
    exact hs.of_eq h.rest.agreements h.rest.relationships h.rest.counter
  | disputed ful c c' f f' h =>
    exact hs.of_eq h.rest.agreements h.rest.relationships h.rest.counter
  | concluded ful c c' f f' st h hsettling hm =>
    refine ⟨?_, ?_, ?_⟩
    · rw [h.agreements]
      exact hs.issued.mono (by rw [h.counter]; omega)
    · rw [h.agreements]
      exact hs.signed
    · intro k rel hrel
      refine hs.related h.related h.agreements ?_ hrel
      intro hnone hactive
      exact hgood ⟨c, hsettling, hnone, hactive⟩

/-- The settlements between two accounts, whoever bought. -/
def DTPContract.settledBetween (s : DTPContract) (a b : AccountId) : List Settlement :=
  s.settlements.values.filter fun st =>
    decide (s.deal st = some (a, b) ∨ s.deal st = some (b, a))

/-- The record of every pair and the reputation of every party agree with the history. -/
structure RecordsAgree (s : DTPContract) : Prop where
  trades : ∀ a b rel, s.relationships.get? (RelationshipRecord.key a b) = some rel →
    rel.tradesCompleted.val = (s.settledBetween a b).length ∧
      rel.totalVolume.val = ((s.settledBetween a b).map fun st => st.netAmount.val).sum
  agreements : ∀ a b rel, s.relationships.get? (RelationshipRecord.key a b) = some rel →
    rel.standingAgreementIds.Nodup ∧ ∀ id, id ∈ rel.standingAgreementIds ↔
      ∃ agreement, s.standingAgreements.get? id = some agreement ∧ agreement.status = .active ∧
        ((agreement.buyer = a ∧ agreement.seller = b) ∨
          (agreement.buyer = b ∧ agreement.seller = a))
  tier : ∀ a b rel, s.relationships.get? (RelationshipRecord.key a b) = some rel →
    rel.tier = .derive rel.tradesCompleted rel.totalVolume (!rel.standingAgreementIds.isEmpty)
  reputations : ∀ a p, s.parties.get? a = some p →
    p.reputation.tradesDisputed ≤ p.reputation.tradesCompleted ∧
      p.reputation.tradesSettledOnTime ≤ p.reputation.tradesCompleted ∧
      p.reputation.score.val ≤ 10000 ∧ p.reputation.recompute = p.reputation

structure RecordsKept (s : DTPContract) : Prop where
  filed : Filed s
  accounted : Accounted s
  fairly : Fairly s
  linked : Linked s

theorem RecordsKept.new (owner : AccountId) : RecordsKept (.new owner) where
  filed := .new owner
  accounted := .new owner
  fairly := fun _ _ h => nomatch h
  linked := .new owner

theorem RecordsKept.step (hs : RecordsKept s) (hgood : ¬ Unlisted s env m)
    (h : execute s env m = .ok t) : RecordsKept t := by
  have hturn := execute_turn hs.filed.lots hs.filed.named h
  exact ⟨hs.filed.turn hturn, hs.accounted.turn hs.filed hturn, hs.fairly.turn hturn,
    hs.linked.turn hturn hgood⟩

theorem settledBetween_eq (s : DTPContract) (a b : AccountId) :
    s.settledBetween a b = s.settlementsBetween (RelationshipRecord.key a b) := by
  apply List.filter_congr
  intro st _
  cases hdeal : s.deal st with
  | none => simp
  | some d => simp [RelationshipRecord.key_eq_iff, Prod.ext_iff]

theorem RecordsKept.agree (hs : RecordsKept s) : RecordsAgree s where
  trades := by
    intro a b rel hrel
    have htraded := hs.accounted.traded (RelationshipRecord.key a b)
    rw [DTPContract.traded, hrel, ← settledBetween_eq, Prod.mk.injEq] at htraded
    exact htraded
  agreements := by
    intro a b rel hrel
    have hlists := hs.linked.lists _ rel hrel
    refine ⟨hlists.nodup, ?_⟩
    intro id
    rw [hlists.listed id]
    simp only [ActiveFor, RelationshipRecord.key_eq_iff]
  tier := fun a b rel hrel => (hs.linked.lists _ rel hrel).tier
  reputations := by
    intro a p hp
    have hfair := hs.fairly a p hp
    exact ⟨hfair.disputed, hfair.onTime, hfair.score_le, hfair.computed⟩

/-- In every run in which no pair that has an active agreement settles its first trade, the
records agree with the history in every state reached. -/
theorem records_agree (owner : AccountId) (requests : List (Env × Method))
    (hgood : Avoids Unlisted (.new owner) requests) :
    ∀ before after, requests = before ++ after → RecordsAgree (run (.new owner) before) := by
  intro before after hsplit
  rw [hsplit] at hgood
  have hrecorded := hgood.split.1.invariant (fun _ _ _ _ hs hgood h => RecordsKept.step hs hgood h)
    (RecordsKept.new owner)
  exact hrecorded.agree

def sampleProposes : Env × Method :=
  (⟨sampleBuyer, 0⟩, .proposeStandingAgreement .buyer sampleSeller sampleGoods 0 0
    ⟨⟨1000, "lb"⟩, "month", ⟨12000, "lb"⟩⟩ ⟨5000000⟩ none .manual)

theorem records_agree_sample :
    RecordsAgree (run (.new sampleOwner) (sampleTrade ++
      [sampleSettles, sampleProposes, (⟨sampleSeller, 0⟩, .signStandingAgreement "agr-6")])) := by
  refine records_agree sampleOwner _ ?_ _ [] (List.append_nil _).symm
  refine ⟨?_, ?_, ?_, ?_, ?_, ?_, ?_, ?_, ?_, trivial⟩
  iterate 6
    intro h
    obtain ⟨_, hsettling, -⟩ := h
    exact hsettling
  · intro h
    obtain ⟨c, -, -, id, agreement, hactive, -⟩ := h
    have hnone : (run (.new sampleOwner) sampleTrade).standingAgreements.entries = [] := by
      decide
    have hget : (run (.new sampleOwner) sampleTrade).standingAgreements.get? id =
      some agreement := hactive
    rw [Dict.get?, hnone] at hget
    cases hget
  iterate 2
    intro h
    obtain ⟨_, hsettling, -⟩ := h
    exact hsettling

/-- An agreement is signed, and the first trade follows. -/
def sampleAgreementFirst : List (Env × Method) :=
  [(⟨sampleBuyer, 0⟩, .registerParty),
   (⟨sampleSeller, 0⟩, .registerParty),
   sampleProposes,
   (⟨sampleSeller, 0⟩, .signStandingAgreement "agr-1"),
   (⟨sampleBuyer, 0⟩, .postIntent sampleGoods ⟨0, 0⟩ ⟨5000000⟩ none none 0),
   (⟨sampleSeller, 0⟩, .submitOffer "int-2" .intent sampleGoods ⟨0, 0⟩ none none 5000000 5000000
     [] 0),
   (⟨sampleBuyer, 0⟩, .acceptOffer "off-3" none none),
   (⟨sampleSeller, 0⟩, .sellerAttestDelivery "ctr-4" ⟨1000, "lb"⟩ none),
   (⟨sampleBuyer, 0⟩, .buyerAttestDelivery "ful-5" none [])]

/-- The record that the first trade makes lists no agreement, although one is active. -/
theorem agreement_unlisted :
    Ordered sampleAgreementFirst ∧
      ¬ RecordsAgree (run (.new sampleOwner) sampleAgreementFirst) := by
  refine ⟨by unfold Ordered; decide, ?_⟩
  intro h
  have hrecord : ((run (.new sampleOwner) sampleAgreementFirst).relationships.get?
      (RelationshipRecord.key sampleBuyer sampleSeller)).map
        RelationshipRecord.standingAgreementIds = some [] := by decide
  have hactive : ((run (.new sampleOwner) sampleAgreementFirst).standingAgreements.get?
      "agr-1").map (fun g => (g.status, g.buyer, g.seller)) =
      some (.active, sampleBuyer, sampleSeller) := by decide
  obtain ⟨rel, hrel, hids⟩ := Option.map_eq_some_iff.mp hrecord
  obtain ⟨g, hg, hterms⟩ := Option.map_eq_some_iff.mp hactive
  rw [Prod.mk.injEq, Prod.mk.injEq] at hterms
  obtain ⟨hstatus, hbuyer, hseller⟩ := hterms
  have hlisted := ((h.agreements sampleBuyer sampleSeller rel hrel).2 "agr-1").mpr
    ⟨g, hg, hstatus, .inl ⟨hbuyer, hseller⟩⟩
  rw [hids] at hlisted
  cases hlisted

end DirectTrade.Near
