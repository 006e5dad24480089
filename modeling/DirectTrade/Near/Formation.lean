import DirectTrade.Library.Evolution
import DirectTrade.Near.Frame
import DirectTrade.Near.Once

/-!
How contracts are formed. Each uses up an offer and the intent or listing that the offer targets;
nobody checks that these have not expired, and the price is held against the quantity that the
intent asked for instead of the one that was offered.
-/

namespace DirectTrade.Near

open Library Outcome

variable {s t u : DTPContract} {env : Env} {m : Method}

/-- An offer keeps its terms, and an accepted one stays accepted. -/
structure Offer.Stays (o o' : Offer) : Prop where
  terms : o' = { o with status := o'.status }
  accepted : o.status = .accepted → o'.status = .accepted

/-- An intent keeps its terms, and a contracted one stays contracted. -/
structure TradeIntent.Stays (i i' : TradeIntent) : Prop where
  terms : i' = { i with status := i'.status, updatedAt := i'.updatedAt }
  contracted : i.status = .contracted → i'.status = .contracted

/-- A listing keeps its terms, and a contracted one stays contracted. -/
structure SupplyListing.Stays (l l' : SupplyListing) : Prop where
  terms : l' = { l with status := l'.status }
  contracted : l.status = .contracted → l'.status = .contracted

theorem Offer.Stays.refl (o : Offer) : o.Stays o := ⟨rfl, id⟩

theorem TradeIntent.Stays.refl (i : TradeIntent) : i.Stays i := ⟨rfl, id⟩

theorem SupplyListing.Stays.refl (l : SupplyListing) : l.Stays l := ⟨rfl, id⟩

/-- Offers, intents and listings of a state stay in a later one. -/
structure Stays (s t : DTPContract) : Prop where
  offers : Dict.Evolves Offer.Stays s.offers t.offers
  intents : Dict.Evolves TradeIntent.Stays s.intents t.intents
  listings : Dict.Evolves SupplyListing.Stays s.listings t.listings

/-- A table whose entries are under their own names, given out by the counter up to `n`. -/
structure Filing {β : Type} (stem : String) (name : β → String) (n : ℕ) (d : Dict String β) :
    Prop where
  issued : Issued stem n d
  named : d.Named name

section Filing

variable {β : Type} {stem : String} {name : β → String} {n k : ℕ} {d : Dict String β}

theorem filing_empty (stem : String) (name : β → String) (n : ℕ) :
    Filing stem name n (∅ : Dict String β) := ⟨issued_empty _ _, Dict.named_empty _⟩

theorem Filing.mono (h : Filing stem name n d) (hle : n ≤ k) : Filing stem name k d :=
  ⟨h.issued.mono hle, h.named⟩

theorem Filing.set (h : Filing stem name n d) {id : String} {x : β} (hid : IssuedBy stem n id)
    (hname : name x = id) : Filing stem name n (d.set id x) :=
  ⟨h.issued.set hid x, h.named.set hname⟩

end Filing

/-- What is posted is filed under the ids of the counter. -/
structure Market (s : DTPContract) : Prop where
  offers : Filing "off-" Offer.offerId s.idCounter.val s.offers
  intents : Filing "int-" TradeIntent.intentId s.idCounter.val s.intents
  listings : Filing "lst-" SupplyListing.listingId s.idCounter.val s.listings

theorem market_new (owner : AccountId) : Market (.new owner) :=
  ⟨filing_empty _ _ _, filing_empty _ _ _, filing_empty _ _ _⟩

section Writing

variable {id : String} (hs : Market s) (hcounter : s.idCounter.val ≤ t.idCounter.val)

include hs hcounter

/-- A call that writes none of the three tables. -/
theorem Market.aside (ho : t.offers = s.offers) (hi : t.intents = s.intents)
    (hl : t.listings = s.listings) : Market t ∧ Stays s t := by
  refine ⟨⟨?_, ?_, ?_⟩, .of_eq .refl ho, .of_eq .refl hi, .of_eq .refl hl⟩
  · rw [ho]
    exact hs.offers.mono hcounter
  · rw [hi]
    exact hs.intents.mono hcounter
  · rw [hl]
    exact hs.listings.mono hcounter

theorem Market.setIntent {intent : TradeIntent} (h : Frame [.intents] s t)
    (hset : t.intents = s.intents.set id intent) (hid : IssuedBy "int-" t.idCounter.val id)
    (hname : intent.intentId = id)
    (hstays : ∀ i, s.intents.get? id = some i → i.Stays intent) : Market t ∧ Stays s t := by
  have ho : t.offers = s.offers := h.same .offers (by decide)
  have hl : t.listings = s.listings := h.same .listings (by decide)
  refine ⟨⟨?_, ?_, ?_⟩, .of_eq .refl ho, ?_, .of_eq .refl hl⟩
  · rw [ho]
    exact hs.offers.mono hcounter
  · rw [hset]
    exact (hs.intents.mono hcounter).set hid hname
  · rw [hl]
    exact hs.listings.mono hcounter
  · rw [hset]
    exact .of_set .refl hstays

theorem Market.setListing {listing : SupplyListing} (h : Frame [.listings] s t)
    (hset : t.listings = s.listings.set id listing) (hid : IssuedBy "lst-" t.idCounter.val id)
    (hname : listing.listingId = id)
    (hstays : ∀ l, s.listings.get? id = some l → l.Stays listing) : Market t ∧ Stays s t := by
  have ho : t.offers = s.offers := h.same .offers (by decide)
  have hi : t.intents = s.intents := h.same .intents (by decide)
  refine ⟨⟨?_, ?_, ?_⟩, .of_eq .refl ho, .of_eq .refl hi, ?_⟩
  · rw [ho]
    exact hs.offers.mono hcounter
  · rw [hi]
    exact hs.intents.mono hcounter
  · rw [hset]
    exact (hs.listings.mono hcounter).set hid hname
  · rw [hset]
    exact .of_set .refl hstays

theorem Market.setOffer {offer : Offer} (h : Frame [.offers] s t)
    (hset : t.offers = s.offers.set id offer) (hid : IssuedBy "off-" t.idCounter.val id)
    (hname : offer.offerId = id)
    (hstays : ∀ o, s.offers.get? id = some o → o.Stays offer) : Market t ∧ Stays s t := by
  have hi : t.intents = s.intents := h.same .intents (by decide)
  have hl : t.listings = s.listings := h.same .listings (by decide)
  refine ⟨⟨?_, ?_, ?_⟩, ?_, .of_eq .refl hi, .of_eq .refl hl⟩
  · rw [hset]
    exact (hs.offers.mono hcounter).set hid hname
  · rw [hi]
    exact hs.intents.mono hcounter
  · rw [hl]
    exact hs.listings.mono hcounter
  · rw [hset]
    exact .of_set .refl hstays

end Writing

/-- An id that is in use stays issued. -/
theorem Filing.found {β : Type} {stem : String} {name : β → String} {n k : ℕ} {d : Dict String β}
    (h : Filing stem name n d) (hle : n ≤ k) {id : String} {x : β} (hx : d.get? id = some x) :
    IssuedBy stem k id ∧ name x = id := by
  refine ⟨(h.issued id ?_).mono hle, h.named id x hx⟩
  rw [hx]
  exact Option.some_ne_none x

/-- A new entry was not there. -/
theorem Filing.fresh {β : Type} {stem : String} {name : β → String} {n : ℕ} {d : Dict String β}
    (h : Filing stem name n d) : d.get? (stem ++ toString (n + 1)) = none :=
  h.issued.fresh (Nat.lt_succ_self n)

/-- What an accepted offer has been formed from, at its intent or its listing. -/
inductive Formed (s t : DTPContract) (env : Env) (offer : Offer) (c : TradeContract) : Prop
  | intent (intent : TradeIntent) (htype : offer.targetType = .intent)
      (hintent : s.intents.get? offer.targetId = some intent) (hposted : intent.status = .posted)
      (hfor : c.intentId = some offer.targetId) (hnone : c.listingId = none)
      (hset : t.intents = s.intents.set intent.intentId
        { intent with status := .contracted, updatedAt := env.nowMs })
      (hlistings : t.listings = s.listings) (hlanded : landedTotal offer ≤ ceilingTotal intent)
  | listing (listing : SupplyListing) (htype : offer.targetType = .listing)
      (hlisting : s.listings.get? offer.targetId = some listing)
      (hactive : listing.status = .active)
      (hfor : c.listingId = some offer.targetId) (hnone : c.intentId = none)
      (hset : t.listings = s.listings.set listing.listingId { listing with status := .contracted })
      (hintents : t.intents = s.intents)

/-- The terms of a contract are those of its offer. -/
structure Taken (s t : DTPContract) (env : Env) (offerId : String) (offer : Offer)
    (c : TradeContract) : Prop where
  found : s.offers.get? offerId = some offer
  available : offer.status = .submitted ∨ offer.status = .shortlisted
  accepted : t.offers = s.offers.set offerId { offer with status := .accepted }
  contracts : t.contracts = s.contracts.set c.contractId c
  numbered : c.contractId = "ctr-" ++ toString (s.idCounter.val + 1)
  named : c.offerId = offerId
  createdAt : c.createdAt = env.nowMs
  formed : Formed s t env offer c

theorem acceptOffer_taken (hs : Market s) {offerId id : String} {arbitrator : Option AccountId}
    {agreement : Option String} (h : acceptOffer s env offerId arbitrator agreement = .ok (t, id)) :
    ∃ offer c, Taken s t env offerId offer c := by
  simp only [acceptOffer, bind_eq_ok, require_eq_ok, demand_eq_ok] at h
  obtain ⟨offer, hoffer, -, hopen, ⟨u, formation⟩, htarget, _, hlanded, ⟨v, contractId⟩, hid, w,
    hlot, x, hcreated, y, hlocked, z, hfinance, h⟩ := h
  cases h
  obtain ⟨-, hu, -⟩ := acceptTarget_spec htarget
  obtain ⟨-, hv, hname⟩ := nextIdFor_spec hid
  have hw := (allocateLot_spec hlot).1
  have ht := requestFinancing_spec hfinance
  rw [emit_eq_ok hlocked, emit_eq_ok hcreated] at ht
  have hcounter : u.idCounter = s.idCounter := by rw [hu]
  have hoffers : w.offers = u.offers.set offerId { offer with status := .accepted } := by
    rw [hw, hv]
  have hcontracts : w.contracts = s.contracts := by rw [hw, hv, hu]
  have hintents : t.intents = u.intents := by
    rw [ht]
    show w.intents = u.intents
    rw [hw, hv]
  have hlistings : t.listings = u.listings := by
    rw [ht]
    show w.listings = u.listings
    rw [hw, hv]
  refine ⟨offer, formation.contract env offer offerId contractId w.defaultDisputeWindowHours
    arbitrator agreement, hoffer, hopen, ?_, ?_, ?_, rfl, rfl, ?_⟩
  · rw [ht]
    show w.offers = _
    rw [hoffers, hu]
  · rw [ht, ← hcontracts]
    rfl
  · rw [← hcounter]
    exact hname
  · unfold acceptTarget at htarget
    cases htype : offer.targetType with
    | intent =>
      simp only [htype, bind_eq_ok, require_eq_ok, demand_eq_ok] at htarget
      obtain ⟨intent, hintent, -, -, -, hposted, htarget⟩ := htarget
      cases htarget
      refine .intent intent htype hintent hposted rfl rfl hintents hlistings ?_
      have hkey : intent.intentId = offer.targetId := hs.intents.named _ _ hintent
      simp only [checkLandedCost, bind_eq_ok, require_eq_ok, demand_eq_ok, hkey,
        Dict.get?_set_self, Option.some.injEq] at hlanded
      obtain ⟨contracted, hcontracted, hle⟩ := hlanded
      rw [← hcontracted] at hle
      exact hle
    | listing =>
      simp only [htype, bind_eq_ok, require_eq_ok, demand_eq_ok] at htarget
      obtain ⟨listing, hlisting, -, -, -, hactive, htarget⟩ := htarget
      cases htarget
      exact .listing listing htype hlisting hactive rfl rfl hlistings hintents

theorem Taken.market {offerId : String} {offer : Offer} {c : TradeContract} (hs : Market s)
    (hcounter : s.idCounter.val ≤ t.idCounter.val) (h : Taken s t env offerId offer c) :
    Market t ∧ Stays s t := by
  obtain ⟨hid, hname⟩ := hs.offers.found hcounter h.found
  have hoffers : Dict.Evolves Offer.Stays s.offers t.offers := by
    rw [h.accepted]
    refine .of_set .refl ?_
    intro o ho
    rw [h.found] at ho
    cases ho
    exact ⟨rfl, fun _ => rfl⟩
  have hfiled : Filing "off-" Offer.offerId t.idCounter.val t.offers := by
    rw [h.accepted]
    exact (hs.offers.mono hcounter).set hid hname
  cases h.formed with
  | intent intent htype hintent hposted hfor hnone hset hlistings hlanded =>
    obtain ⟨hid', hname'⟩ := hs.intents.found hcounter hintent
    rw [← hname'] at hid' hintent
    refine ⟨⟨hfiled, ?_, ?_⟩, hoffers, ?_, .of_eq .refl hlistings⟩
    · rw [hset]
      exact (hs.intents.mono hcounter).set hid' rfl
    · rw [hlistings]
      exact hs.listings.mono hcounter
    · rw [hset]
      refine .of_set .refl ?_
      intro i hi
      rw [hintent] at hi
      cases hi
      exact ⟨rfl, fun _ => rfl⟩
  | listing listing htype hlisting hactive hfor hnone hset hintents =>
    obtain ⟨hid', hname'⟩ := hs.listings.found hcounter hlisting
    rw [← hname'] at hid' hlisting
    refine ⟨⟨hfiled, ?_, ?_⟩, hoffers, .of_eq .refl hintents, ?_⟩
    · rw [hintents]
      exact hs.intents.mono hcounter
    · rw [hset]
      exact (hs.listings.mono hcounter).set hid' rfl
    · rw [hset]
      refine .of_set .refl ?_
      intro l hl
      rw [hlisting] at hl
      cases hl
      exact ⟨rfl, fun _ => rfl⟩

/-- The next id stays issued while an event is logged. -/
theorem issued_of_emit {stem id : String} {v : DTPContract} {e : AuditEvent}
    (hid : nextIdFor s stem = .ok (u, id)) (h : emit v e = .ok t)
    (hv : v.idCounter = u.idCounter) :
    IssuedBy stem t.idCounter.val id ∧ id = stem ++ toString (s.idCounter.val + 1) := by
  obtain ⟨hcount, -, hname⟩ := nextIdFor_spec hid
  have hcounter : t.idCounter = u.idCounter := by
    rw [emit_eq_ok h]
    exact hv
  exact ⟨⟨_, le_rfl, by rw [hcounter, hcount, hname]⟩, hname⟩

/-- Every accepted call keeps what is posted. -/
theorem execute_market (hs : Market s) (hfiled : Filed s) (h : execute s env m = .ok t) :
    Market t ∧ Stays s t := by
  have hcounter := (execute_turn hfiled.lots hfiled.named h).counter_le
  have hframe := execute_frame h
  cases m with
  | postIntent goods delivery pricing finance freight expiresAt =>
    obtain ⟨⟨_, id⟩, hcall, rfl⟩ := (map_eq_ok _ _ _).mp h
    simp only [postIntent, bind_eq_ok] at hcall
    obtain ⟨_, -, _, -, _, -, ⟨u, intentId⟩, hid, _, hemit, hcall⟩ := hcall
    cases hcall
    obtain ⟨hissued, hname⟩ := issued_of_emit hid hemit rfl
    obtain ⟨-, hu, -⟩ := nextIdFor_spec hid
    have ht := emit_eq_ok hemit
    rw [hu] at ht
    refine hs.setIntent hcounter hframe (congrArg DTPContract.intents ht) hissued rfl ?_
    intro i hi
    rw [hname, hs.intents.fresh] at hi
    cases hi
  | cancelIntent id =>
    simp only [execute, cancelIntent, bind_eq_ok, require_eq_ok, demand_eq_ok] at h
    obtain ⟨intent, hintent, -, -, -, hposted, h⟩ := h
    obtain ⟨hid, hname⟩ := hs.intents.found hcounter hintent
    have hset : t.intents = s.intents.set id
        { intent with status := .cancelled, updatedAt := env.nowMs } := by
      rw [emit_eq_ok h]
      rfl
    refine hs.setIntent hcounter hframe hset hid hname ?_
    intro i hi
    rw [hintent] at hi
    cases hi
    refine ⟨rfl, ?_⟩
    rw [hposted]
    intro hcontracted
    cases hcontracted
  | postListing lotId goods delivery pricing finance freight certs availableFrom expiresAt =>
    obtain ⟨⟨_, id⟩, hcall, rfl⟩ := (map_eq_ok _ _ _).mp h
    simp only [postListing, bind_eq_ok] at hcall
    obtain ⟨_, -, _, -, _, -, _, -, ⟨u, listingId⟩, hid, _, hemit, hcall⟩ := hcall
    cases hcall
    obtain ⟨hissued, hname⟩ := issued_of_emit hid hemit rfl
    obtain ⟨-, hu, -⟩ := nextIdFor_spec hid
    have ht := emit_eq_ok hemit
    rw [hu] at ht
    refine hs.setListing hcounter hframe (congrArg DTPContract.listings ht) hissued rfl ?_
    intro l hl
    rw [hname, hs.listings.fresh] at hl
    cases hl
  | withdrawListing id =>
    simp only [execute, withdrawListing, bind_eq_ok, require_eq_ok, demand_eq_ok] at h
    obtain ⟨listing, hlisting, -, -, -, hactive, h⟩ := h
    obtain ⟨hid, hname⟩ := hs.listings.found hcounter hlisting
    have hset : t.listings = s.listings.set id { listing with status := .withdrawn } := by
      rw [emit_eq_ok h]
      rfl
    refine hs.setListing hcounter hframe hset hid hname ?_
    intro l hl
    rw [hlisting] at hl
    cases hl
    refine ⟨rfl, ?_⟩
    rw [hactive]
    intro hcontracted
    cases hcontracted
  | submitOffer targetId targetType goods delivery finance freight price total certs expiresAt =>
    obtain ⟨⟨_, id⟩, hcall, rfl⟩ := (map_eq_ok _ _ _).mp h
    simp only [submitOffer, bind_eq_ok] at hcall
    obtain ⟨_, -, _, -, _, -, _, -, ⟨u, offerId⟩, hid, _, hemit, hcall⟩ := hcall
    cases hcall
    obtain ⟨hissued, hname⟩ := issued_of_emit hid hemit rfl
    obtain ⟨-, hu, -⟩ := nextIdFor_spec hid
    have ht := emit_eq_ok hemit
    rw [hu] at ht
    refine hs.setOffer hcounter hframe (congrArg DTPContract.offers ht) hissued rfl ?_
    intro o ho
    rw [hname, hs.offers.fresh] at ho
    cases ho
  | retractOffer id =>
    simp only [execute, retractOffer, bind_eq_ok, require_eq_ok, demand_eq_ok] at h
    obtain ⟨offer, hoffer, -, -, -, hsubmitted, h⟩ := h
    obtain ⟨hid, hname⟩ := hs.offers.found hcounter hoffer
    have hset : t.offers = s.offers.set id { offer with status := .retracted } := by
      rw [emit_eq_ok h]
      rfl
    refine hs.setOffer hcounter hframe hset hid hname ?_
    intro o ho
    rw [hoffer] at ho
    cases ho
    refine ⟨rfl, ?_⟩
    rw [hsubmitted]
    intro haccepted
    cases haccepted
  | acceptOffer offerId arbitrator agreement =>
    obtain ⟨⟨_, id⟩, hcall, rfl⟩ := (map_eq_ok _ _ _).mp h
    obtain ⟨offer, c, htaken⟩ := acceptOffer_taken hs hcall
    exact htaken.market hs hcounter
  | _ =>
    exact hs.aside hcounter (hframe.same .offers (by simp [Method.writes]))
      (hframe.same .intents (by simp [Method.writes]))
      (hframe.same .listings (by simp [Method.writes]))

/-- The offer of a contract is accepted, and the intent or listing it names is contracted. -/
structure Spent (s : DTPContract) (c : TradeContract) : Prop where
  offer : ∃ o, s.offers.get? c.offerId = some o ∧ o.status = .accepted
  intent : ∀ id, c.intentId = some id →
    ∃ i, s.intents.get? id = some i ∧ i.status = .contracted
  listing : ∀ id, c.listingId = some id →
    ∃ l, s.listings.get? id = some l ∧ l.status = .contracted

/-- Two contracts use one offer, one intent or one listing. -/
def Shares (c c' : TradeContract) : Prop :=
  c.offerId = c'.offerId ∨ (∃ id, c.intentId = some id ∧ c'.intentId = some id) ∨
    ∃ id, c.listingId = some id ∧ c'.listingId = some id

theorem Shares.symm {c c' : TradeContract} (h : Shares c c') : Shares c' c :=
  h.imp Eq.symm <| Or.imp (fun h => h.imp fun _ hid => hid.symm)
    fun h => h.imp fun _ hid => hid.symm

/-- Each offer, intent and listing is used by at most one contract. -/
def UsedOnce (s : DTPContract) : Prop :=
  ∀ id id' c c', s.contracts.get? id = some c → s.contracts.get? id' = some c' → Shares c c' →
    id = id'

theorem Spent.stays {c : TradeContract} (h : Spent s c) (hstays : Stays s t) : Spent t c where
  offer := by
    obtain ⟨o, ho, haccepted⟩ := h.offer
    obtain ⟨o', ho', hsame⟩ := hstays.offers _ o ho
    exact ⟨o', ho', hsame.accepted haccepted⟩
  intent := by
    intro id hid
    obtain ⟨i, hi, hcontracted⟩ := h.intent id hid
    obtain ⟨i', hi', hsame⟩ := hstays.intents _ i hi
    exact ⟨i', hi', hsame.contracted hcontracted⟩
  listing := by
    intro id hid
    obtain ⟨l, hl, hcontracted⟩ := h.listing id hid
    obtain ⟨l', hl', hsame⟩ := hstays.listings _ l hl
    exact ⟨l', hl', hsame.contracted hcontracted⟩

/-- A contract just formed shares nothing with a contract of the state before. -/
theorem Taken.unshared {offerId : String} {offer : Offer} {c old : TradeContract}
    (h : Taken s t env offerId offer c) (hspent : Spent s old) : ¬ Shares c old := by
  intro hshares
  obtain hoffer | ⟨id, hid, hid'⟩ | ⟨id, hid, hid'⟩ := hshares
  · obtain ⟨o, ho, haccepted⟩ := hspent.offer
    rw [← hoffer, h.named, h.found] at ho
    cases ho
    obtain hstatus | hstatus := h.available
    · rw [hstatus] at haccepted
      cases haccepted
    · rw [hstatus] at haccepted
      cases haccepted
  · obtain ⟨i, hi, hcontracted⟩ := hspent.intent id hid'
    cases h.formed with
    | intent intent htype hintent hposted hfor =>
      rw [hfor] at hid
      cases hid
      rw [hintent] at hi
      cases hi
      rw [hposted] at hcontracted
      cases hcontracted
    | listing listing htype hlisting hactive hfor hnone =>
      rw [hnone] at hid
      cases hid
  · obtain ⟨l, hl, hcontracted⟩ := hspent.listing id hid'
    cases h.formed with
    | intent intent htype hintent hposted hfor hnone =>
      rw [hnone] at hid
      cases hid
    | listing listing htype hlisting hactive hfor =>
      rw [hfor] at hid
      cases hid
      rw [hlisting] at hl
      cases hl
      rw [hactive] at hcontracted
      cases hcontracted

/-- A contract just formed has used up its offer and its target. -/
theorem Taken.spent {offerId : String} {offer : Offer} {c : TradeContract} (hs : Market s)
    (h : Taken s t env offerId offer c) : Spent t c where
  offer := by
    rw [h.named, h.accepted]
    exact ⟨_, Dict.get?_set_self _ _ _, rfl⟩
  intent := by
    intro id hid
    cases h.formed with
    | intent intent htype hintent hposted hfor hnone hset =>
      rw [hfor] at hid
      cases hid
      rw [hset, hs.intents.named _ _ hintent]
      exact ⟨_, Dict.get?_set_self _ _ _, rfl⟩
    | listing listing htype hlisting hactive hfor hnone =>
      rw [hnone] at hid
      cases hid
  listing := by
    intro id hid
    cases h.formed with
    | intent intent htype hintent hposted hfor hnone =>
      rw [hnone] at hid
      cases hid
    | listing listing htype hlisting hactive hfor hnone hset =>
      rw [hfor] at hid
      cases hid
      rw [hset, hs.listings.named _ _ hlisting]
      exact ⟨_, Dict.get?_set_self _ _ _, rfl⟩

/-- Every contract was there before, in all but its status, or was just formed. -/
theorem execute_contract (hs : Market s) (hfiled : Filed s) (h : execute s env m = .ok t)
    {id : String} {c : TradeContract} (hc : t.contracts.get? id = some c) :
    (∃ old, s.contracts.get? id = some old ∧ Restated old c) ∨
      ∃ offerId arbitrator agreement offer, m = .acceptOffer offerId arbitrator agreement ∧
        Taken s t env offerId offer c ∧ s.contracts.get? id = none := by
  have hset : ∀ {i : String} {x x' : TradeContract}, s.contracts.get? i = some x →
      Restated x x' → t.contracts = s.contracts.set i x' →
      ∃ old, s.contracts.get? id = some old ∧ Restated old c := by
    intro i x x' hx hrestated hcontracts
    rw [hcontracts, Dict.get?_set] at hc
    split at hc
    next hi =>
      cases hc
      exact ⟨x, by rw [hi]; exact hx, hrestated⟩
    next => exact ⟨c, hc, .refl c⟩
  cases execute_turn hfiled.lots hfiled.named h with
  | kept h how =>
    rw [h.contracts] at hc
    exact .inl ⟨c, hc, .refl c⟩
  | formed offer x hforms hm =>
    obtain ⟨offerId, arbitrator, agreement, hm, hoffer⟩ := hm
    subst hm
    obtain ⟨⟨_, new⟩, hcall, rfl⟩ := (map_eq_ok _ _ _).mp h
    obtain ⟨offer', c', htaken⟩ := acceptOffer_taken hs hcall
    have hnew : s.contracts.get? c'.contractId = none := by
      rw [htaken.numbered]
      exact hfiled.contracts.fresh (Nat.lt_succ_self _)
    rw [htaken.contracts, Dict.get?_set] at hc
    split at hc
    next hi =>
      cases hc
      exact .inr ⟨offerId, arbitrator, agreement, offer', rfl, htaken, by rw [hi]; exact hnew⟩
    next => exact .inl ⟨c, hc, .refl c⟩
  | attested ful x x' f h => exact .inl (hset h.contract h.restated h.contracts)
  | disputed ful x x' f f' h => exact .inl (hset h.contract h.restated h.contracts)
  | concluded ful x x' f f' st h => exact .inl (hset h.contract h.restated h.contracts)

/-- All contracts have used up what they were formed from, and share none of it. -/
structure Exhausted (s : DTPContract) : Prop where
  spent : ∀ id c, s.contracts.get? id = some c → Spent s c
  once : UsedOnce s

theorem Restated.spent {c c' : TradeContract} (h : Restated c c') (hs : Spent s c) :
    Spent s c' := by
  rw [h]
  exact ⟨hs.offer, hs.intent, hs.listing⟩

theorem execute_exhausted (hs : Exhausted s) (hmarket : Market s) (hfiled : Filed s)
    (h : execute s env m = .ok t) : Exhausted t := by
  obtain ⟨-, hstays⟩ := execute_market hmarket hfiled h
  refine ⟨?_, ?_⟩
  · intro id c hc
    obtain ⟨old, hold, hrestated⟩ | ⟨_, _, _, _, -, htaken, -⟩ :=
      execute_contract hmarket hfiled h hc
    · exact hrestated.spent ((hs.spent id old hold).stays hstays)
    · exact htaken.spent hmarket
  · intro id id' c c' hc hc' hshares
    obtain ⟨old, hold, hrestated⟩ | ⟨_, _, _, offer, hm, htaken, hnone⟩ :=
      execute_contract hmarket hfiled h hc
    · obtain ⟨old', hold', hrestated'⟩ | ⟨_, _, _, _, -, htaken', -⟩ :=
        execute_contract hmarket hfiled h hc'
      · rw [hrestated, hrestated'] at hshares
        exact hs.once id id' old old' hold hold' hshares
      · exact absurd hshares.symm
          (htaken'.unshared (hrestated.spent (hs.spent id old hold)))
    · obtain ⟨old', hold', hrestated'⟩ | ⟨_, _, _, offer', hm', htaken', hnone'⟩ :=
        execute_contract hmarket hfiled h hc'
      · exact absurd hshares (htaken.unshared (hrestated'.spent (hs.spent id' old' hold')))
      · -- a call forms one contract
        have hfound : ∀ {i : String} {x : TradeContract}, s.contracts.get? i = none →
            t.contracts.get? i = some x → i = c.contractId := by
          intro i x hi hx
          rw [htaken.contracts, Dict.get?_set] at hx
          split at hx
          next heq => exact heq
          next =>
            rw [hi] at hx
            cases hx
        rw [hfound hnone hc, hfound hnone' hc']

/-- The price with the freight that the buyer pays beyond the seller's allowance. -/
def landedCost (offer : Offer) : ℕ :=
  match offer.freight with
  | none => offer.totalPrice.val
  | some freight =>
    if freight.payer = .buyer then
      offer.totalPrice.val + (freight.estimatedFreight.val - freight.freightAllowance.val)
    else offer.totalPrice.val

/-- A landed cost that does not saturate is exact. -/
theorem landedCost_le {offer : Offer} {n : ℕ} (h : (landedTotal offer).val ≤ n)
    (hn : n < 2 ^ 128 - 1) : landedCost offer ≤ n := by
  unfold landedTotal at h
  unfold landedCost
  cases hfreight : offer.freight with
  | none =>
    simp only [hfreight] at h
    exact h
  | some freight =>
    simp only [hfreight] at h
    simp only
    split at h
    next hbuyer =>
      rw [if_pos hbuyer]
      simp only [saturatingAdd, saturatingSub] at h
      omega
    next hseller =>
      rw [if_neg hseller]
      exact h

/-- The ceiling's total is within the ceiling for the intent's quantity, in thousandths. -/
theorem ceilingTotal_le (intent : TradeIntent) :
    (ceilingTotal intent).val * 1000 ≤
      intent.pricing.ceilingPricePerUnit.val * intent.goods.quantity.milliamount.val ∧
        (ceilingTotal intent).val < 2 ^ 128 - 1 := by
  have hmin : (saturatingMul intent.pricing.ceilingPricePerUnit
      (⟨intent.goods.quantity.milliamount.val, by omega⟩ : Amount)).val ≤
        intent.pricing.ceilingPricePerUnit.val * intent.goods.quantity.milliamount.val :=
    Nat.min_le_left _ _
  have hdiv := Nat.div_mul_le_self (saturatingMul intent.pricing.ceilingPricePerUnit
      (⟨intent.goods.quantity.milliamount.val, by omega⟩ : Amount)).val 1000
  refine ⟨hdiv.trans hmin, ?_⟩
  show (saturatingMul _ _).val / 1000 < _
  omega

/-- An offer taken at a moment respects the expiry of both sides and, on an intent, the buyer's
ceiling for the quantity that is contracted. -/
structure Respects (s : DTPContract) (offer : Offer) (now : U64) : Prop where
  fresh : now < offer.expiresAt
  intent : offer.targetType = .intent → ∃ i, s.intents.get? offer.targetId = some i ∧
    now < i.expiresAt ∧ landedCost offer * 1000 ≤
      i.pricing.ceilingPricePerUnit.val * offer.goods.quantity.milliamount.val
  listing : offer.targetType = .listing → ∃ l, s.listings.get? offer.targetId = some l ∧
    now < l.expiresAt

/-- Every contract was formed within the terms of its offer and of what the offer targets. -/
def WithinTerms (s : DTPContract) : Prop :=
  ∀ id c, s.contracts.get? id = some c →
    ∃ offer, s.offers.get? c.offerId = some offer ∧ Respects s offer c.createdAt

/-- The guards that an offer on an intent passes when the buyer accepts it. -/
structure IntentAdmits (s : DTPContract) (env : Env) (offer : Offer) (i : TradeIntent) : Prop where
  targets : offer.targetType = .intent
  found : s.intents.get? offer.targetId = some i
  caller : i.buyer = env.predecessor
  posted : i.status = .posted
  landed : landedTotal offer ≤ ceilingTotal i

/-- The guards that an offer on a listing passes when the seller accepts it. -/
structure ListingAdmits (s : DTPContract) (env : Env) (offer : Offer) (l : SupplyListing) :
    Prop where
  targets : offer.targetType = .listing
  found : s.listings.get? offer.targetId = some l
  caller : l.seller = env.predecessor
  active : l.status = .active
  backed : ∀ id, l.lotId = some id → ∃ lot, s.lots.get? id = some lot ∧
    offer.goods.quantity.milliamount ≤ lot.availableMilliamount

/-- An offer whose guards pass is accepted late, or on an intent for more than it offers. -/
def OverreachesTerms (s : DTPContract) (env : Env) : Method → Prop
  | .acceptOffer offerId _ _ => ∃ offer, s.offers.get? offerId = some offer ∧
      (offer.status = .submitted ∨ offer.status = .shortlisted) ∧
      ((∃ i, IntentAdmits s env offer i ∧ (offer.expiresAt ≤ env.nowMs ∨
          i.expiresAt ≤ env.nowMs ∨
          offer.goods.quantity.milliamount < i.goods.quantity.milliamount)) ∨
        ∃ l, ListingAdmits s env offer l ∧
          (offer.expiresAt ≤ env.nowMs ∨ l.expiresAt ≤ env.nowMs))
  | _ => False

theorem acceptOffer_admits (hs : Market s) {offerId id : String} {arbitrator : Option AccountId}
    {agreement : Option String} (h : acceptOffer s env offerId arbitrator agreement = .ok (t, id))
    {offer : Offer} (hoffer : s.offers.get? offerId = some offer) :
    (offer.status = .submitted ∨ offer.status = .shortlisted) ∧
      ((∃ i, IntentAdmits s env offer i) ∨ ∃ l, ListingAdmits s env offer l) := by
  simp only [acceptOffer, bind_eq_ok, require_eq_ok, demand_eq_ok] at h
  obtain ⟨found, hfound, -, hopen, ⟨u, formation⟩, htarget, _, hlanded, ⟨v, contractId⟩, hid, w,
    hlot, -⟩ := h
  rw [hoffer] at hfound
  cases hfound
  refine ⟨hopen, ?_⟩
  obtain ⟨-, hu, -⟩ := acceptTarget_spec htarget
  obtain ⟨-, hv, -⟩ := nextIdFor_spec hid
  have hlots : v.lots = s.lots := by rw [hv, hu]
  obtain ⟨-, hallocated⟩ := allocateLot_spec hlot
  unfold acceptTarget at htarget
  cases htype : offer.targetType with
  | intent =>
    simp only [htype, bind_eq_ok, require_eq_ok, demand_eq_ok] at htarget
    obtain ⟨intent, hintent, -, hbuyer, -, hposted, htarget⟩ := htarget
    cases htarget
    have hkey : intent.intentId = offer.targetId := hs.intents.named _ _ hintent
    simp only [checkLandedCost, bind_eq_ok, require_eq_ok, demand_eq_ok, hkey,
      Dict.get?_set_self, Option.some.injEq] at hlanded
    obtain ⟨contracted, hcontracted, hle⟩ := hlanded
    rw [← hcontracted] at hle
    exact .inl ⟨intent, htype, hintent, hbuyer, hposted, hle⟩
  | listing =>
    simp only [htype, bind_eq_ok, require_eq_ok, demand_eq_ok] at htarget
    obtain ⟨listing, hlisting, -, hseller, -, hactive, htarget⟩ := htarget
    cases htarget
    refine .inr ⟨listing, htype, hlisting, hseller, hactive, ?_⟩
    intro id hlotId
    simp only [hlotId, hlots] at hallocated
    obtain ⟨lot, hget, hle, -⟩ := hallocated
    exact ⟨lot, hget, hle⟩

theorem Respects.stays {offer offer' : Offer} {now : U64} (h : Respects s offer now)
    (hstays : Stays s t) (hoffer : offer.Stays offer') : Respects t offer' now := by
  rw [hoffer.terms]
  refine ⟨h.fresh, ?_, ?_⟩
  · intro htype
    obtain ⟨i, hi, hlate, hlanded⟩ := h.intent htype
    obtain ⟨i', hi', hsame⟩ := hstays.intents _ i hi
    refine ⟨i', hi', ?_⟩
    rw [hsame.terms]
    exact ⟨hlate, hlanded⟩
  · intro htype
    obtain ⟨l, hl, hlate⟩ := h.listing htype
    obtain ⟨l', hl', hsame⟩ := hstays.listings _ l hl
    refine ⟨l', hl', ?_⟩
    rw [hsame.terms]
    exact hlate

/-- An offer that is accepted in time and offers what the intent asks for is within the terms. -/
theorem acceptOffer_respects (hs : Market s) {offerId id : String}
    {arbitrator : Option AccountId} {agreement : Option String}
    (h : acceptOffer s env offerId arbitrator agreement = .ok (t, id)) {offer : Offer}
    (hoffer : s.offers.get? offerId = some offer)
    (hgood : ¬ OverreachesTerms s env (.acceptOffer offerId arbitrator agreement)) :
    Respects s offer env.nowMs := by
  obtain ⟨hopen, hadmits⟩ := acceptOffer_admits hs h hoffer
  obtain ⟨i, hi⟩ | ⟨l, hl⟩ := hadmits
  · have hno : ¬ (offer.expiresAt ≤ env.nowMs ∨ i.expiresAt ≤ env.nowMs ∨
        offer.goods.quantity.milliamount < i.goods.quantity.milliamount) :=
      fun hbad => hgood ⟨offer, hoffer, hopen, .inl ⟨i, hi, hbad⟩⟩
    obtain ⟨hfresh, hlate, hless⟩ := not_or.mp hno |>.imp_right not_or.mp
    refine ⟨Fin.not_le.mp hfresh, ?_, ?_⟩
    · intro htype
      obtain ⟨hceiling, hroom⟩ := ceilingTotal_le i
      have hcost := landedCost_le hi.landed hroom
      have hquantity : i.goods.quantity.milliamount.val ≤ offer.goods.quantity.milliamount.val :=
        Fin.not_lt.mp hless
      refine ⟨i, hi.found, Fin.not_le.mp hlate, ?_⟩
      calc landedCost offer * 1000
          ≤ (ceilingTotal i).val * 1000 := Nat.mul_le_mul_right _ hcost
        _ ≤ i.pricing.ceilingPricePerUnit.val * i.goods.quantity.milliamount.val := hceiling
        _ ≤ _ := Nat.mul_le_mul_left _ hquantity
    · intro hother
      rw [hi.targets] at hother
      cases hother
  · have hno : ¬ (offer.expiresAt ≤ env.nowMs ∨ l.expiresAt ≤ env.nowMs) :=
      fun hbad => hgood ⟨offer, hoffer, hopen, .inr ⟨l, hl, hbad⟩⟩
    obtain ⟨hfresh, hlate⟩ := not_or.mp hno
    refine ⟨Fin.not_le.mp hfresh, ?_, ?_⟩
    · intro hother
      rw [hl.targets] at hother
      cases hother
    · intro htype
      exact ⟨l, hl.found, Fin.not_le.mp hlate⟩

theorem execute_within (hs : WithinTerms s) (hmarket : Market s) (hfiled : Filed s)
    (hgood : ¬ OverreachesTerms s env m) (h : execute s env m = .ok t) : WithinTerms t := by
  obtain ⟨-, hstays⟩ := execute_market hmarket hfiled h
  intro id c hc
  obtain ⟨old, hold, hrestated⟩ | ⟨offerId, _, _, offer, hm, htaken, -⟩ :=
    execute_contract hmarket hfiled h hc
  · obtain ⟨offer, hoffer, hrespects⟩ := hs id old hold
    obtain ⟨offer', hoffer', hsame⟩ := hstays.offers _ offer hoffer
    rw [hrestated]
    exact ⟨offer', hoffer', hrespects.stays hstays hsame⟩
  · subst hm
    obtain ⟨⟨_, new⟩, hcall, rfl⟩ := (map_eq_ok _ _ _).mp h
    rw [htaken.named, htaken.createdAt]
    obtain ⟨offer', hoffer', hsame⟩ := hstays.offers _ offer htaken.found
    have hrespects := acceptOffer_respects hmarket hcall htaken.found hgood
    exact ⟨offer', hoffer', hrespects.stays hstays hsame⟩

/-- What every state of a run satisfies. -/
structure Orderly (s : DTPContract) : Prop where
  market : Market s
  filed : Filed s
  exhausted : Exhausted s

theorem orderly_new (owner : AccountId) : Orderly (.new owner) where
  market := market_new owner
  filed := .new owner
  exhausted := ⟨(fun _ _ h => nomatch h), (fun _ _ _ _ h => nomatch h)⟩

theorem execute_orderly (hs : Orderly s) (h : execute s env m = .ok t) : Orderly t where
  market := (execute_market hs.market hs.filed h).1
  filed := hs.filed.turn (execute_turn hs.filed.lots hs.filed.named h)
  exhausted := execute_exhausted hs.exhausted hs.market hs.filed h

theorem run_orderly (hs : Orderly s) (requests : List (Env × Method)) :
    Orderly (run s requests) := by
  induction requests generalizing s with
  | nil => exact hs
  | cons r rest ih =>
    refine ih ?_
    unfold call
    split
    next t h => exact execute_orderly hs h
    next => exact hs

/-- In every reached state each offer, intent and listing is used once; and where no offer was
accepted late or short of what its intent asks for, every contract is within its terms. -/
theorem formed_within_terms (owner : AccountId) (requests : List (Env × Method)) :
    UsedOnce (run (.new owner) requests) ∧
      (Avoids OverreachesTerms (.new owner) requests →
        WithinTerms (run (.new owner) requests)) := by
  refine ⟨(run_orderly (orderly_new owner) requests).exhausted.once, ?_⟩
  intro havoids
  have hboth : Orderly (run (.new owner) requests) ∧ WithinTerms (run (.new owner) requests) := by
    refine havoids.invariant (P := fun s => Orderly s ∧ WithinTerms s) ?_
      ⟨orderly_new owner, fun _ _ h => nomatch h⟩
    intro s env m t hs hgood h
    exact ⟨execute_orderly hs.1 h, execute_within hs.2 hs.1.market hs.1.filed hgood h⟩
  exact hboth.2

/-- A trade on an intent for twice what is offered, accepted after everything has expired. -/
def sampleOverreach : List (Env × Method) :=
  [(⟨sampleBuyer, 0⟩, .registerParty),
   (⟨sampleSeller, 0⟩, .registerParty),
   (⟨sampleBuyer, 0⟩, .postIntent ⟨⟨2000, "lb"⟩, []⟩ ⟨0, 0⟩ ⟨5000000⟩ none none 5),
   (⟨sampleSeller, 0⟩, .submitOffer "int-1" .intent sampleGoods ⟨0, 0⟩ none none 10000000 10000000
     [] 5),
   (⟨sampleBuyer, 9000000⟩, .acceptOffer "off-2" none none)]

/-- The contract is formed past both expiries and at twice the buyer's ceiling. -/
theorem formed_overreaching :
    ¬ WithinTerms (run (.new sampleOwner) sampleOverreach) ∧
      ((run (.new sampleOwner) sampleOverreach).offers.get? "off-2").map
        (fun o => landedCost o * 1000) = some 10000000000 ∧
      ((run (.new sampleOwner) sampleOverreach).intents.get? "int-1").map
        (fun i => i.pricing.ceilingPricePerUnit.val * 1000) = some 5000000000 := by
  refine ⟨?_, by decide, by decide⟩
  intro h
  have hcontract : ((run (.new sampleOwner) sampleOverreach).contracts.get? "ctr-3").map
      (fun c => (c.offerId, c.createdAt)) = some ("off-2", 9) := by decide
  obtain ⟨c, hc, hterms⟩ := Option.map_eq_some_iff.mp hcontract
  obtain ⟨hoffer, hcreated⟩ := Prod.mk.inj hterms
  obtain ⟨offer, hfound, hrespects⟩ := h "ctr-3" c hc
  rw [hoffer] at hfound
  have hexpires : ((run (.new sampleOwner) sampleOverreach).offers.get? "off-2").map
      Offer.expiresAt = some 5 := by decide
  rw [hfound] at hexpires
  have hfresh := hrespects.fresh
  rw [hcreated, Option.some.inj hexpires] at hfresh
  exact absurd hfresh (by decide)

/-- A trade in time, on an intent for what is offered, up to the offer. -/
def sampleTimely : List (Env × Method) :=
  [(⟨sampleBuyer, 0⟩, .registerParty),
   (⟨sampleSeller, 0⟩, .registerParty),
   (⟨sampleBuyer, 0⟩, .postIntent sampleGoods ⟨0, 0⟩ ⟨5000000⟩ none none 5),
   (⟨sampleSeller, 0⟩, .submitOffer "int-1" .intent sampleGoods ⟨0, 0⟩ none none 5000000 5000000
     [] 5)]

theorem formed_within_terms_sample :
    WithinTerms (run (.new sampleOwner)
      (sampleTimely ++ [(⟨sampleBuyer, 0⟩, .acceptOffer "off-2" none none)])) := by
  refine (formed_within_terms sampleOwner _).2 ⟨id, id, id, id, ?_, trivial⟩
  intro h
  obtain ⟨offer, hfound, -, hbad⟩ := h
  have hoffer : ((run (.new sampleOwner) sampleTimely).offers.get? "off-2").map
      (fun o => (o.expiresAt, o.targetType, o.targetId, o.goods)) =
        some (5, .intent, "int-1", sampleGoods) := by decide
  have hintent : ((run (.new sampleOwner) sampleTimely).intents.get? "int-1").map
      (fun i => (i.expiresAt, i.goods)) = some (5, sampleGoods) := by decide
  have hget : (run (.new sampleOwner) sampleTimely).offers.get? "off-2" = some offer := hfound
  rw [hget] at hoffer
  simp only [Option.map_some, Option.some.injEq, Prod.mk.injEq] at hoffer
  obtain ⟨hexpires, htype, htarget, hgoods⟩ := hoffer
  obtain ⟨i, hadmits, hbad⟩ | ⟨l, hadmits, -⟩ := hbad
  · have hget : (run (.new sampleOwner) sampleTimely).intents.get? "int-1" = some i := by
      rw [← htarget]
      exact hadmits.found
    rw [hget, Option.map_some, Option.some.injEq, Prod.mk.injEq] at hintent
    rw [hexpires, hgoods, hintent.1, hintent.2] at hbad
    exact absurd hbad (by decide)
  · have hother := hadmits.targets
    rw [htype] at hother
    cases hother

end DirectTrade.Near
