import DirectTrade.Near.Accounts

/-!
Every trade is settled at most once. The statuses of a contract and of its
fulfillment tell how often it was settled, as long as no call settles a settled
contract again, which the guards of buyer attestation and automatic settlement do
not exclude.
-/

namespace DirectTrade.Near

open Library Outcome

variable {s t : DTPContract} {env : Env} {m : Method}

/-- How often a contract of a status has been settled. -/
def ContractStatus.settledTimes : ContractStatus → ℕ
  | settled | resolvedBuyer | resolvedSeller => 1
  | active | inFulfillment | delivered | disputed | cancelled => 0

/-- The statuses that the fulfillment of a contract may have. -/
def ContractStatus.fulfillments : ContractStatus → List FulfillmentStatus
  | inFulfillment => [.sellerAttested]
  | settled => [.sellerAttested, .complete]
  | disputed | resolvedBuyer | resolvedSeller => [.disputed]
  | active | delivered | cancelled => []

/-- The trade is over. -/
def ContractStatus.final (status : ContractStatus) : Prop :=
  status = .settled ∨ status = .resolvedBuyer ∨ status = .resolvedSeller

theorem ContractStatus.final_iff (status : ContractStatus) :
    status.final ↔ status.settledTimes = 1 := by
  cases status <;> simp [final, settledTimes]

/-- Statuses tell how often a contract was settled and how its fulfillment stands. -/
structure Phased (s : DTPContract) : Prop where
  settled : ∀ id c, s.contracts.get? id = some c →
    (s.settlementsOf id).length = c.status.settledTimes
  fulfilled : ∀ i f c, s.fulfillments.get? i = some f →
    s.contracts.get? f.contractId = some c → f.status ∈ c.status.fulfillments

/-- Every fulfillment is at the stage of its contract. -/
def Staged (s : DTPContract) : Prop :=
  ∀ i f c, s.fulfillments.get? i = some f → s.contracts.get? f.contractId = some c →
    f.status ∈ c.status.fulfillments

/-- A contract and its one fulfillment move on together. -/
theorem Staged.writes (hs : Staged s) {id ful : String} {c' : TradeContract} {f' : Fulfillment}
    (hid : f'.contractId = id) (hcontracts : t.contracts = s.contracts.set id c')
    (hfulfillments : t.fulfillments = s.fulfillments.set ful f')
    (honly : ∀ i f, s.fulfillments.get? i = some f → f.contractId = id → i = ful)
    (hstatus : f'.status ∈ c'.status.fulfillments) : Staged t := by
  intro i f x hf hx
  rw [hfulfillments, Dict.get?_set] at hf
  rw [hcontracts, Dict.get?_set] at hx
  split at hf <;> split at hx
  next =>
    cases hf
    cases hx
    exact hstatus
  next hi hne =>
    cases hf
    exact absurd hid hne
  next hi hfor => exact absurd (honly i f hf hfor) hi
  next => exact hs i f x hf hx

/-- Whatever the calls, fulfillments keep to the stage of their contracts. -/
theorem Staged.turn (hs : Staged s) (hfiled : Filed s) (h : Turn s t env m) : Staged t := by
  cases h with
  | kept h how =>
    intro i f c hf hc
    rw [h.fulfillments] at hf
    rw [h.contracts] at hc
    exact hs i f c hf hc
  | formed offer c h hm =>
    have hfresh := h.fresh hfiled
    intro i f x hf hx
    have hf : s.fulfillments.get? i = some f := by
      have hsame : t.fulfillments = s.fulfillments := h.rest.fulfillments
      rwa [hsame] at hf
    rw [h.contracts, Dict.get?_set] at hx
    split at hx
    next hid => exact absurd (by rw [hid]; exact hfresh) (hfiled.delivered i f hf)
    next => exact hs i f x hf hx
  | attested ful c c' f h hbefore hafter hattested hnone hful hcounter hm =>
    refine hs.writes rfl h.contracts h.fulfillments ?_ ?_
    · intro i g hg hfor
      exact absurd hfor (hnone g (Dict.mem_values_of_get? hg))
    · rw [hattested, hafter]
      decide
  | disputed ful c c' f f' h hf hfor hbefore hafter hdisputed hm =>
    refine hs.writes rfl h.contracts h.fulfillments ?_ ?_
    · intro i g hg hfor'
      exact hfiled.once i ful g f hg hf (by rw [hfor', hfor])
    · rw [hdisputed, hafter]
      decide
  | concluded ful c c' f f' st h hsettling hm =>
    have hcontract : s.contracts.get? f.contractId = some c := by
      rw [h.belongs]
      exact h.contract
    have hmem := hs ful f c h.fulfillment hcontract
    refine hs.writes (by rw [h.stays, h.belongs]) h.contracts h.fulfillments ?_ ?_
    · intro i g hg hfor
      exact hfiled.once i ful g f hg h.fulfillment (by rw [hfor, h.belongs])
    · obtain ⟨-, hsettled, hcomplete | hattested⟩ | ⟨hdisputed, hresolved, hsame⟩ := h.cases
      · rw [hsettled, hcomplete]
        decide
      · rw [hsettled, hattested]
        decide
      · rw [hdisputed] at hmem
        obtain hbuyer | hseller := hresolved
        · rw [hsame, hbuyer]
          exact hmem
        · rw [hsame, hseller]
          exact hmem

theorem settlementsOf_of_eq (h : t.settlements = s.settlements) (id : String) :
    t.settlementsOf id = s.settlementsOf id := by
  simp [DTPContract.settlementsOf, h]

theorem Closes.settlementsOf {ful : String} {c c' : TradeContract} {f f' : Fulfillment}
    {st : Settlement} (h : Closes s t env ful c c' f f' st) (hs : Filed s) (id : String) :
    t.settlementsOf id = s.settlementsOf id ++ if c.contractId = id then [st] else [] := by
  have hvalues : t.settlements.values = s.settlements.values ++ [st] := by
    rw [h.settlements]
    exact Dict.values_set_of_none (h.fresh hs) st
  rw [settlementsOf_append hvalues id]
  by_cases hid : c.contractId = id <;> simp [h.owed.1, hid]

/-- The contract that a call concludes was in delivery or in dispute. -/
theorem Phased.concludes (hs : Phased s) {ful : String} {c c' : TradeContract}
    {f f' : Fulfillment} {st : Settlement} (h : Concludes s t env ful c c' f f' st)
    (hopen : c.status ≠ .settled) : c.status = .inFulfillment ∨ c.status = .disputed := by
  have hcontract : s.contracts.get? f.contractId = some c := by
    rw [h.belongs]
    exact h.contract
  have hmem := hs.fulfilled ful f c h.fulfillment hcontract
  obtain ⟨hattested, -, -⟩ | ⟨hdisputed, -, -⟩ := h.cases
  · rw [hattested] at hmem
    cases hc : c.status <;> simp [hc, ContractStatus.fulfillments] at hmem hopen ⊢
  · exact .inr hdisputed

/-- One contract is written, and it was settled as often as its status tells. -/
theorem Phased.settled_set (hs : Phased s) {id : String} {c' : TradeContract}
    (hcontracts : t.contracts = s.contracts.set id c')
    (hsettled : (t.settlementsOf id).length = c'.status.settledTimes)
    (hothers : ∀ i, i ≠ id → t.settlementsOf i = s.settlementsOf i) {i : String}
    {x : TradeContract} (hx : t.contracts.get? i = some x) :
    (t.settlementsOf i).length = x.status.settledTimes := by
  rw [hcontracts, Dict.get?_set] at hx
  split at hx
  next hi =>
    cases hx
    rw [hi]
    exact hsettled
  next hi =>
    rw [hothers i hi]
    exact hs.settled i x hx

theorem Phased.turn (hs : Phased s) (hfiled : Filed s) (haccounted : Accounted s)
    (h : Turn s t env m) (hopen : ¬ Resettles s env m) : Phased t := by
  refine ⟨?_, Staged.turn hs.fulfilled hfiled h⟩
  intro i x hx
  cases h with
  | kept h how =>
    rw [h.contracts] at hx
    rw [settlementsOf_of_eq h.settlements]
    exact hs.settled i x hx
  | formed offer c h hm =>
    have hsame : t.settlements = s.settlements := h.rest.settlements
    refine hs.settled_set h.contracts ?_ (fun j _ => settlementsOf_of_eq hsame j) hx
    rw [settlementsOf_of_eq hsame, haccounted.settlementsOf_none (h.fresh hfiled), h.status]
    rfl
  | attested ful c c' f h hbefore hafter hattested hnone hful hcounter hm =>
    have hsame : t.settlements = s.settlements := h.rest.settlements
    refine hs.settled_set h.contracts ?_ (fun j _ => settlementsOf_of_eq hsame j) hx
    rw [settlementsOf_of_eq hsame, hs.settled _ c h.contract, hafter]
    obtain hactive | hdelivering := hbefore
    · rw [hactive]
      rfl
    · rw [hdelivering]
  | disputed ful c c' f f' h hf hfor hbefore hafter hdisputed hm =>
    have hsame : t.settlements = s.settlements := h.rest.settlements
    refine hs.settled_set h.contracts ?_ (fun j _ => settlementsOf_of_eq hsame j) hx
    rw [settlementsOf_of_eq hsame, hs.settled _ c h.contract, hafter]
    obtain hdelivering | hdelivered := hbefore
    · rw [hdelivering]
      rfl
    · rw [hdelivered]
      rfl
  | concluded ful c c' f f' st h hsettling hm =>
    have hbefore := hs.concludes h fun hsettled => hopen (hsettling.resettles hsettled)
    refine hs.settled_set h.contracts ?_ ?_ hx
    · have hzero : c.status.settledTimes = 0 := by
        obtain hdelivering | hdisputed := hbefore
        · rw [hdelivering]
          rfl
        · rw [hdisputed]
          rfl
      have hone : c'.status.settledTimes = 1 := by
        apply (ContractStatus.final_iff _).mp
        obtain ⟨-, hsettled, -⟩ | ⟨-, hbuyer | hseller, -⟩ := h.cases
        · exact .inl hsettled
        · exact .inr (.inl hbuyer)
        · exact .inr (.inr hseller)
      rw [h.settlementsOf hfiled, List.length_append, hs.settled _ c h.contract, hzero, hone]
      simp
    · intro j hj
      rw [h.settlementsOf hfiled]
      simp [Ne.symm hj]

/-- A contract whose trade is over keeps its status. -/
theorem Phased.final_stays (hs : Phased s) (hfiled : Filed s) (h : Turn s t env m)
    (hopen : ¬ Resettles s env m) {id : String} {c : TradeContract}
    (hc : s.contracts.get? id = some c) (hfinal : c.status.final) :
    ∃ c', t.contracts.get? id = some c' ∧ c'.status = c.status := by
  -- only the contract that the call is about is rewritten, and its trade is not over
  have hother : ∀ i x x', s.contracts.get? i = some x → t.contracts = s.contracts.set i x' →
      ¬ x.status.final → ∃ c', t.contracts.get? id = some c' ∧ c'.status = c.status := by
    intro i x x' hx hset hnot
    have hne : id ≠ i := by
      intro heq
      rw [heq, hx] at hc
      cases hc
      exact hnot hfinal
    exact ⟨c, by rw [hset, Dict.get?_set_of_ne _ _ hne]; exact hc, rfl⟩
  cases h with
  | kept h how => exact ⟨c, by rw [h.contracts]; exact hc, rfl⟩
  | formed offer x h hm =>
    have hne : id ≠ x.contractId := by
      intro heq
      rw [heq, h.fresh hfiled] at hc
      cases hc
    exact ⟨c, by rw [h.contracts, Dict.get?_set_of_ne _ _ hne]; exact hc, rfl⟩
  | attested ful x x' f h hbefore =>
    refine hother _ x x' h.contract h.contracts ?_
    obtain hx | hx := hbefore <;> simp [ContractStatus.final, hx]
  | disputed ful x x' f f' h hf hfor hbefore =>
    refine hother _ x x' h.contract h.contracts ?_
    obtain hx | hx := hbefore <;> simp [ContractStatus.final, hx]
  | concluded ful x x' f f' st h hsettling hm =>
    refine hother _ x x' h.contract h.contracts ?_
    have hbefore := hs.concludes h fun hsettled => hopen (hsettling.resettles hsettled)
    obtain hx | hx := hbefore <;> simp [ContractStatus.final, hx]

/-- What holds in every state that a run reaches without settling a contract again. -/
structure Sound (s : DTPContract) : Prop where
  filed : Filed s
  accounted : Accounted s
  phased : Phased s

theorem Sound.new (owner : AccountId) : Sound (.new owner) where
  filed := .new owner
  accounted := .new owner
  phased := ⟨(fun _ _ h => nomatch h), (fun _ _ _ h => nomatch h)⟩

/-- No call of a run settles a contract that is settled already. -/
def NoneResettles : DTPContract → List (Env × Method) → Prop
  | _, [] => True
  | s, r :: rest => ¬ Resettles s r.1 r.2 ∧ NoneResettles (call s r) rest

theorem Sound.call (hs : Sound s) {r : Env × Method} (hopen : ¬ Resettles s r.1 r.2) :
    Sound (call s r) := by
  unfold Near.call
  split
  next t h =>
    have hturn := execute_turn hs.filed.lots hs.filed.named h
    exact ⟨hs.filed.turn hturn, hs.accounted.turn hs.filed hturn,
      hs.phased.turn hs.filed hs.accounted hturn hopen⟩
  next => exact hs

theorem Sound.run (hs : Sound s) {requests : List (Env × Method)}
    (hopen : NoneResettles s requests) : Sound (run s requests) := by
  induction requests generalizing s with
  | nil => exact hs
  | cons r rest ih => exact ih (hs.call hopen.1) hopen.2

theorem Sound.final_call (hs : Sound s) {r : Env × Method} (hopen : ¬ Resettles s r.1 r.2)
    {id : String} {c : TradeContract} (hc : s.contracts.get? id = some c)
    (hfinal : c.status.final) :
    ∃ c', (Near.call s r).contracts.get? id = some c' ∧ c'.status = c.status := by
  unfold Near.call
  split
  next t h =>
    exact hs.phased.final_stays hs.filed (execute_turn hs.filed.lots hs.filed.named h) hopen hc
      hfinal
  next => exact ⟨c, hc, rfl⟩

theorem Sound.final_run (hs : Sound s) {requests : List (Env × Method)}
    (hopen : NoneResettles s requests) {id : String} {c : TradeContract}
    (hc : s.contracts.get? id = some c) (hfinal : c.status.final) :
    ∃ c', (Near.run s requests).contracts.get? id = some c' ∧ c'.status = c.status := by
  induction requests generalizing s c with
  | nil => exact ⟨c, hc, rfl⟩
  | cons r rest ih =>
    obtain ⟨c₁, hc₁, hstatus⟩ := hs.final_call hopen.1 hc hfinal
    obtain ⟨c₂, hc₂, hstatus'⟩ := ih (hs.call hopen.1) hopen.2 hc₁ (by rw [hstatus]; exact hfinal)
    exact ⟨c₂, hc₂, hstatus'.trans hstatus⟩

theorem NoneResettles.split {before after : List (Env × Method)}
    (h : NoneResettles s (before ++ after)) :
    NoneResettles s before ∧ NoneResettles (Near.run s before) after := by
  induction before generalizing s with
  | nil => exact ⟨trivial, h⟩
  | cons r rest ih =>
    obtain ⟨hrest, hafter⟩ := ih h.2
    exact ⟨⟨h.1, hrest⟩, hafter⟩

/-- Each contract has at most one fulfillment and one settlement, within its value, which
alone moved the lot and was counted for the pair and for both parties; the contract is
over exactly when it was settled. -/
structure SettledOnce (s : DTPContract) : Prop where
  fulfillment : ∀ i j f g, s.fulfillments.get? i = some f → s.fulfillments.get? j = some g →
    f.contractId = g.contractId → i = j
  settlement : ∀ id, (s.settlementsOf id).length ≤ 1
  value : ∀ id c, s.contracts.get? id = some c →
    ((s.settlementsOf id).map fun st => st.netAmount.val).sum ≤ c.totalValue.val
  transfers : ∀ id c l, s.contracts.get? id = some c →
    s.transfers l id = if c.lotId = some l then (s.settlementsOf id).length else 0
  traded : ∀ key, s.traded key = ((s.settlementsBetween key).length,
    ((s.settlementsBetween key).map fun st => st.netAmount.val).sum)
  completed : ∀ a n, s.completed a = some n → n = s.bought a + s.sold a
  status : ∀ id c, s.contracts.get? id = some c →
    (c.status.final ↔ (s.settlementsOf id).length = 1)

theorem ContractStatus.settledTimes_le (status : ContractStatus) : status.settledTimes ≤ 1 := by
  cases status <;> simp [settledTimes]

theorem Sound.settledOnce (hs : Sound s) : SettledOnce s := by
  have hlength : ∀ id, (s.settlementsOf id).length ≤ 1 := by
    intro id
    cases hc : s.contracts.get? id with
    | none => simp [hs.accounted.settlementsOf_none hc]
    | some c =>
      rw [hs.phased.settled id c hc]
      exact c.status.settledTimes_le
  refine ⟨hs.filed.once, hlength, ?_, hs.accounted.transfers, hs.accounted.traded,
    hs.accounted.completed, ?_⟩
  · intro id c hc
    have hle := hlength id
    cases hlist : s.settlementsOf id with
    | nil => simp
    | cons st rest =>
      rw [hlist, List.length_cons] at hle
      have hrest : rest = [] := List.eq_nil_of_length_eq_zero (by omega)
      have hst : st ∈ s.settlementsOf id := by simp [hlist]
      obtain ⟨hmem, hid⟩ := List.mem_filter.mp hst
      obtain ⟨x, hx, hnet⟩ := hs.accounted.settled st hmem
      have hsame : st.contractId = id := by simpa using hid
      rw [hsame, hc] at hx
      cases hx
      have hle : st.netAmount.val ≤ c.totalValue.val := hnet
      simpa [hrest] using hle
  · intro id c hc
    rw [hs.phased.settled id c hc]
    exact c.status.final_iff

/-- In every run in which no call settles a contract again, every state that is reached
has each contract settled at most once, and a contract whose trade is over keeps its
status. -/
theorem settled_once (owner : AccountId) (requests : List (Env × Method))
    (hopen : NoneResettles (.new owner) requests) :
    SettledOnce (run (.new owner) requests) ∧
      ∀ before after id c, requests = before ++ after →
        (run (.new owner) before).contracts.get? id = some c → c.status.final →
        ∃ c', (run (.new owner) requests).contracts.get? id = some c' ∧
          c'.status = c.status := by
  have hnew := Sound.new owner
  refine ⟨(hnew.run hopen).settledOnce, ?_⟩
  intro before after id c hsplit hc hfinal
  rw [hsplit] at hopen ⊢
  obtain ⟨hbefore, hafter⟩ := hopen.split
  have hstays := (hnew.run hbefore).final_run hafter hc hfinal
  rwa [run, List.foldl_append]

def sampleBuyer : AccountId := ⟨"buyer.near", by decide⟩

def sampleSeller : AccountId := ⟨"seller.near", by decide⟩

def sampleOwner : AccountId := ⟨"owner.near", by decide⟩

def sampleGoods : GoodsSpec := ⟨⟨1000, "lb"⟩, []⟩

/-- A trade up to the seller's attestation. -/
def sampleTrade : List (Env × Method) :=
  [(⟨sampleBuyer, 0⟩, .registerParty),
   (⟨sampleSeller, 0⟩, .registerParty),
   (⟨sampleBuyer, 0⟩, .postIntent sampleGoods ⟨0, 0⟩ ⟨5000000⟩ none none 0),
   (⟨sampleSeller, 0⟩, .submitOffer "int-1" .intent sampleGoods ⟨0, 0⟩ none none 5000000 5000000
     [] 0),
   (⟨sampleBuyer, 0⟩, .acceptOffer "off-2" none none),
   (⟨sampleSeller, 0⟩, .sellerAttestDelivery "ctr-3" ⟨1000, "lb"⟩ none)]

/-- Anyone settles the trade, fifty hours later. -/
def sampleSettles : Env × Method :=
  (⟨sampleSeller, 180000000000000⟩, .triggerAutoSettlement "ful-4")

theorem settled_once_sample :
    SettledOnce (run (.new sampleOwner) (sampleTrade ++ [sampleSettles])) := by
  refine (settled_once sampleOwner _ ?_).1
  refine ⟨id, id, id, id, id, id, ?_, trivial⟩
  rintro ⟨f, c, hf, hc, hsettled, -⟩
  have hstatus : ((run (.new sampleOwner) sampleTrade).fulfillments.get? "ful-4").map
      (fun f => ((run (.new sampleOwner) sampleTrade).contracts.get? f.contractId).map
        TradeContract.status) = some (some .inFulfillment) := by decide
  have hfulfillment : (run (.new sampleOwner) sampleTrade).fulfillments.get? "ful-4" = some f := hf
  have hcontract : (run (.new sampleOwner) sampleTrade).contracts.get? f.contractId = some c := hc
  rw [hfulfillment, Option.map_some, hcontract, Option.map_some, hsettled] at hstatus
  simp at hstatus

/-- The window elapsed once lets the trade be settled twice, for twice its value. -/
theorem settled_twice :
    Ordered (sampleTrade ++ [sampleSettles, sampleSettles]) ∧
      ((run (.new sampleOwner) (sampleTrade ++ [sampleSettles, sampleSettles])).settlementsOf
        "ctr-3").length = 2 ∧
      ¬ SettledOnce (run (.new sampleOwner) (sampleTrade ++ [sampleSettles, sampleSettles])) := by
  have htwo : ((run (.new sampleOwner)
        (sampleTrade ++ [sampleSettles, sampleSettles])).settlementsOf
      "ctr-3").length = 2 := by decide
  refine ⟨by unfold Ordered; decide, htwo, ?_⟩
  intro h
  have := h.settlement "ctr-3"
  omega

end DirectTrade.Near
