import DirectTrade.Near.Disposal

/-!
Owners of lots. The provenance of a lot leads from its origin to its owner, and what a
settled contract does not take stays with the seller, in the runs in which every
lot-backed contract that is settled was sold by the owner of the lot and takes all that
is left of it: settlement makes the buyer the owner of the whole lot.
-/

namespace DirectTrade.Near

open Library Outcome

variable {s t : DTPContract} {env : Env} {m : Method} {id : String} {c : TradeContract}

/-- The events lead from one account to another. -/
def Leads : AccountId → List ProvenanceEvent → AccountId → Prop
  | a, [], b => b = a
  | a, e :: rest, b => e.fromParty = a ∧ Leads e.toParty rest b

/-- Provenance leads from the origin of a lot to its owner. -/
def GoodsLot.Chained (lot : GoodsLot) : Prop :=
  Leads lot.originAccount lot.provenance lot.owner

theorem Leads.append {a b : AccountId} {events : List ProvenanceEvent} (h : Leads a events b)
    {e : ProvenanceEvent} (he : e.fromParty = b) : Leads a (events ++ [e]) e.toParty := by
  induction events generalizing a with
  | nil =>
    have hb : b = a := h
    exact ⟨by rw [he, hb], rfl⟩
  | cons first rest ih => exact ⟨h.1, ih h.2⟩

theorem GoodsLot.IsNew.chained {lot : GoodsLot} (h : lot.IsNew) : lot.Chained := by
  unfold Chained
  rw [h.provenance]
  exact h.owner

instance (status : ContractStatus) : Decidable status.final :=
  inferInstanceAs (Decidable (_ ∨ _ ∨ _))

/-- What is left of a lot beside a contract: what is available and what the other contracts
that are not settled take. -/
def DTPContract.remainder (s : DTPContract) (c : TradeContract) (id : String) (lot : GoodsLot) :
    ℕ :=
  lot.availableMilliamount.val + ((s.contracts.values.filter fun x =>
    decide (x.contractId ≠ c.contractId ∧ ¬ x.status.final)).map fun x => x.takes id).sum

/-- A call whose guards pass settles a contract that the owner of its lot did not sell, or
that leaves part of the lot. -/
def Overreaches (s : DTPContract) (env : Env) (m : Method) : Prop :=
  ∃ c id lot, Settling s env c m ∧ c.lotId = some id ∧ s.lots.get? id = some lot ∧
    (c.seller ≠ lot.owner ∨ c.buyer ≠ c.seller ∧ 0 < s.remainder c id lot)

/-- The call that settles a contract concludes it. -/
theorem Settling.concludes (hsettling : Settling s env c m)
    (hnamed : s.contracts.Named TradeContract.contractId) (h : execute s env m = .ok t) :
    ∃ ful c' f f' st, Concludes s t env ful c c' f f' st := by
  have hsame : ∀ {ful : String} {f g : Fulfillment} {x x' : TradeContract} {g' : Fulfillment}
      {st : Settlement}, s.fulfillments.get? ful = some f →
      s.contracts.get? f.contractId = some c → Concludes s t env ful x x' g g' st → x = c := by
    intro ful f g x x' g' st hf hc hconcludes
    have hg := hconcludes.fulfillment
    rw [hf, Option.some.injEq] at hg
    have hx := hconcludes.contract
    rw [← hconcludes.belongs, ← hg, hc] at hx
    exact (Option.some.inj hx).symm
  cases m with
  | buyerAttestDelivery ful notes deductions =>
    obtain ⟨⟨_, new⟩, hcall, rfl⟩ := (map_eq_ok _ _ _).mp h
    obtain ⟨f, hf, hc, -⟩ := hsettling
    obtain ⟨x, x', g, g', st, hconcludes, -⟩ := buyerAttestDelivery_spec hnamed hcall
    rw [hsame hf hc hconcludes] at hconcludes
    exact ⟨ful, x', g, g', st, hconcludes⟩
  | triggerAutoSettlement ful =>
    obtain ⟨⟨_, new⟩, hcall, rfl⟩ := (map_eq_ok _ _ _).mp h
    obtain ⟨f, hf, hc, -⟩ := hsettling
    obtain ⟨x, x', g, g', st, hconcludes, -⟩ := triggerAutoSettlement_spec hnamed hcall
    rw [hsame hf hc hconcludes] at hconcludes
    exact ⟨ful, x', g, g', st, hconcludes⟩
  | resolveDispute contractId resolution deductions =>
    obtain ⟨hc, -⟩ := hsettling
    obtain ⟨ful, x, x', g, g', st, hconcludes, hx, -⟩ := resolveDispute_spec hnamed h
    rw [hc, Option.some.injEq] at hx
    rw [← hx] at hconcludes
    exact ⟨ful, x', g, g', st, hconcludes⟩
  | _ => exact False.elim hsettling

structure Owned (s : DTPContract) : Prop where
  filed : Filed s
  chained : ∀ id lot, s.lots.get? id = some lot → lot.Chained

theorem Owned.new (owner : AccountId) : Owned (.new owner) where
  filed := .new owner
  chained := fun _ _ h => nomatch h

theorem Owned.step (hs : Owned s) (hgood : ¬ Overreaches s env m) (h : execute s env m = .ok t) :
    Owned t := by
  have hturn := execute_turn hs.filed.lots hs.filed.named h
  refine ⟨hs.filed.turn hturn, ?_⟩
  intro id lot' hlot'
  cases hlot : s.lots.get? id with
  | none => exact ((hturn.newLot hs.filed hlot).1 lot' hlot').chained
  | some lot =>
    have hbefore := hs.chained id lot hlot
    obtain ⟨changed, hchanged, hchange⟩ := hturn.lot hs.filed hlot
    rw [hlot', Option.some.injEq] at hchanged
    subst changed
    cases hchange with
    | kept hnoted =>
      rw [hnoted]
      exact hbefore
    | disposed disposition hm hstatus hset =>
      rw [hset]
      exact hbefore
    | allocated offer c hforms hm hlotId hdebited =>
      rw [hdebited.same]
      exact hbefore
    | consumed inputs output hm hinput hdebited =>
      rw [hdebited.same]
      exact hbefore
    | handed ful c c' f f' st hconcludes hsettling hm hlotId hset =>
      have hseller : c.seller = lot.owner := by
        by_contra hother
        exact hgood ⟨c, id, lot, hsettling, hlotId, hlot, .inl hother⟩
      rw [hset]
      exact hbefore.append hseller

theorem Owned.run (hs : Owned s) {requests : List (Env × Method)}
    (hgood : Avoids Overreaches s requests) : Owned (Near.run s requests) :=
  hgood.invariant (fun _ _ _ _ hs hgood h => hs.step hgood h) hs

/-- The seller keeps what a settled contract leaves of the lot. -/
theorem Owned.keeps (hs : Owned s) (hgood : ¬ Overreaches s env m)
    (h : execute s env m = .ok t) (hsettling : Settling s env c m) (hlotId : c.lotId = some id)
    {lot : GoodsLot} (hlot : s.lots.get? id = some lot) (hleft : 0 < s.remainder c id lot) :
    ∃ lot', t.lots.get? id = some lot' ∧ lot'.owner = c.seller ∧
      lot'.availableMilliamount = lot.availableMilliamount := by
  obtain ⟨ful, c', f, f', st, hconcludes⟩ := hsettling.concludes hs.filed.named h
  have hself : c.buyer = c.seller := by
    by_contra hother
    exact hgood ⟨c, id, lot, hsettling, hlotId, hlot, .inr ⟨hother, hleft⟩⟩
  have hhanded := hconcludes.handed
  rw [hlotId] at hhanded
  obtain ⟨found, hfound, hset⟩ := hhanded
  rw [hlot, Option.some.injEq] at hfound
  subst found
  refine ⟨lot.transferred c env.nowMs, ?_, hself, rfl⟩
  rw [hset, Dict.get?_set_self]

end DirectTrade.Near
