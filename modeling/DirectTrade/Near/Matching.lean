import Mathlib.Data.List.Sort
import DirectTrade.Library.Slice
import DirectTrade.Near.Once
import DirectTrade.Near.Trail

/-!
Match discovery. Every posting is checked against every one of the other side, scored and sorted.
The score multiplies what the parties posted before it divides, so a pair with a wide enough
price gap or delivery window stops the scan for everyone; otherwise the answer is the page asked
for, up to the 32-bit sizes of the platform.
-/

namespace DirectTrade.Near

open Library Outcome

variable {s : DTPContract} {env : Env}

/-- A product of `w`-bit words with `overflow-checks = true`. -/
def wordMul (w a b : ℕ) : Except Panic ℕ :=
  if a * b < 2 ^ w then .ok (a * b) else .error "attempt to multiply with overflow"

def wordAdd (w a b : ℕ) : Except Panic ℕ :=
  if a + b < 2 ^ w then .ok (a + b) else .error "attempt to add with overflow"

theorem wordMul_of_lt {w a b : ℕ} (h : a * b < 2 ^ w) : wordMul w a b = .ok (a * b) := if_pos h

theorem wordAdd_of_lt {w a b : ℕ} (h : a + b < 2 ^ w) : wordAdd w a b = .ok (a + b) := if_pos h

/-- How far below the ceiling the asking price is. -/
def priceScore (ceiling ask : Amount) : Except Panic ℕ :=
  if ceiling.val = 0 then .ok 2500
  else do
    let scaled ← wordMul 128 (ceiling.val - ask.val) 10000
    let pctBelow := scaled / ceiling.val
    let points ← wordMul 32 (min pctBelow 10000) 2500
    .ok (min (points / 10000) 2500)

/-- The milliseconds that two delivery windows share. -/
def sharedWindow (listing intent : DeliverySpec) : ℕ :=
  let overlapStart := max listing.windowEarliest.val intent.windowEarliest.val
  let overlapEnd := min listing.windowLatest.val intent.windowLatest.val
  if overlapStart < overlapEnd then overlapEnd - overlapStart else 0

/-- How much of the intent's delivery window the listing covers. -/
def timingScore (listing intent : DeliverySpec) : Except Panic ℕ := do
  let intentWindow := max (intent.windowLatest.val - intent.windowEarliest.val) 1
  let scaled ← wordMul 64 (sharedWindow listing intent) 2500
  .ok (min (scaled / intentWindow % 2 ^ 32) 2500)

def reputationScore (sellerReputationScore : U32) : Except Panic ℕ := do
  let points ← wordMul 32 (min sellerReputationScore.val 10000) 2500
  .ok (min (points / 10000) 2500)

/-- Certifications beyond the required ones, and the bonus for the very product asked for. -/
def certificationScore (required provided : ℕ) (catalogMatched : Bool) : Except Panic ℕ := do
  let certBonus ← wordMul 32 (min (provided - required) 5) 200
  let total ← wordAdd 32 (if catalogMatched then 1500 else 0) (min certBonus 1000)
  .ok (min total 2500)

def computeMatchScore (intent : TradeIntent) (listing : SupplyListing)
    (sellerReputationScore : U32) (catalogMatched : Bool) : Except Panic ℕ := do
  let price ← priceScore intent.pricing.ceilingPricePerUnit listing.pricing.askingPricePerUnit
  let timing ← timingScore listing.delivery intent.delivery
  let reputation ← reputationScore sellerReputationScore
  let certification ← certificationScore intent.goods.requiredCertifications.length
    listing.certifications.length catalogMatched
  let sum ← wordAdd 32 price timing
  let sum ← wordAdd 32 sum reputation
  wordAdd 32 sum certification

structure MatchEligibility where
  eligible : Bool
  reasons : List String
  score : ℕ
  deriving DecidableEq

/-- An active certification of the required type that has not expired. -/
def certifies (listing : SupplyListing) (now : U64) (required : String) : Bool :=
  listing.certifications.any fun c =>
    decide (c.certType = required ∧ c.status = .active ∧ now < c.expiresAt)

/-- Why a listing does not match an intent. -/
def mismatches (intent : TradeIntent) (listing : SupplyListing) (now : U64)
    (listingCatalogId : Option String) : List String :=
  let offered := listing.goods.quantity.milliamount
  let desired := intent.goods.quantity.milliamount
  let ask := listing.pricing.askingPricePerUnit
  let ceiling := intent.pricing.ceilingPricePerUnit
  (if offered < desired
    then ["Listing quantity (" ++ toString offered.val ++ ") below intent required (" ++
      toString desired.val ++ ")"] else []) ++
  ((intent.goods.requiredCertifications.filter fun required => !certifies listing now required).map
    fun required => "Missing required certification: " ++ required) ++
  (if ceiling < ask
    then ["Listing price (" ++ toString ask.val ++ ") exceeds intent ceiling (" ++
      toString ceiling.val ++ ")"] else []) ++
  (if listing.delivery.windowLatest < intent.delivery.windowEarliest ∨
      intent.delivery.windowLatest < listing.delivery.windowEarliest
    then ["Delivery windows do not overlap"] else []) ++
  (match intent.catalogId, listingCatalogId with
    | some intentCatalog, some lotCatalog =>
      if intentCatalog ≠ lotCatalog
      then ["Catalog mismatch: intent requires " ++ intentCatalog ++ ", listing lot is " ++
        lotCatalog] else []
    | _, _ => []) ++
  (if listing.expiresAt ≤ now then ["Listing has expired"] else []) ++
  (if intent.expiresAt ≤ now then ["Intent has expired"] else [])

def checkListingVsIntent (intent : TradeIntent) (listing : SupplyListing) (now : U64)
    (sellerReputationScore : Option U32) (listingCatalogId : Option String) :
    Except Panic MatchEligibility := do
  let reasons := mismatches intent listing now listingCatalogId
  let catalogMatched := intent.catalogId.isSome && decide (listingCatalogId = intent.catalogId)
  -- a score is only meaningful for an eligible pair
  let score ← (if reasons.isEmpty
    then computeMatchScore intent listing (sellerReputationScore.getD 10000) catalogMatched
    else .ok 0 : Except Panic ℕ)
  .ok { eligible := reasons.isEmpty, reasons, score }

structure RankedMatch where
  intentId : String
  listingId : String
  score : ℕ
  reasons : List String
  deriving DecidableEq

/-- An intent and a listing that are checked against each other. -/
structure Pairing where
  intentId : String
  intent : TradeIntent
  listingId : String
  listing : SupplyListing

def DTPContract.sellerReputation (s : DTPContract) (listing : SupplyListing) : Option U32 :=
  (s.parties.get? listing.seller).map fun party => party.reputation.score

/-- The catalog entry of the lot that backs a listing. -/
def DTPContract.listingCatalogId (s : DTPContract) (listing : SupplyListing) : Option String :=
  (listing.lotId.bind s.lots.get?).map GoodsLot.catalogId

def rank (s : DTPContract) (env : Env) (pair : Pairing) : Except Panic (Option RankedMatch) := do
  let result ← checkListingVsIntent pair.intent pair.listing env.nowMs
    (s.sellerReputation pair.listing) (s.listingCatalogId pair.listing)
  .ok (if result.eligible then
    some { intentId := pair.intentId, listingId := pair.listingId, score := result.score
           reasons := [] }
  else none)

/-- The better score comes first. -/
def byScore (a b : RankedMatch) : Bool := decide (b.score ≤ a.score)

/-- Ranks the eligible pairs, the best first, and cuts out a page. -/
def findMatches (s : DTPContract) (env : Env) (pairs : List Pairing) (offset limit : U64) :
    Except Panic (List RankedMatch) := do
  let found ← pairs.mapM (rank s env)
  let sorted := (found.filterMap id).mergeSort byScore
  .ok ((sorted.drop (asUsize offset)).take (asUsize limit))

/-- The active listings, each against the intent. -/
def DTPContract.listingsAgainst (s : DTPContract) (intentId : String) (intent : TradeIntent) :
    List Pairing :=
  (s.listings.entries.filter fun entry => decide (entry.2.status = .active)).map fun entry =>
    { intentId, intent, listingId := entry.1, listing := entry.2 }

/-- The posted intents, each against the listing. -/
def DTPContract.intentsAgainst (s : DTPContract) (listingId : String) (listing : SupplyListing) :
    List Pairing :=
  (s.intents.entries.filter fun entry => decide (entry.2.status = .posted)).map fun entry =>
    { intentId := entry.1, intent := entry.2, listingId, listing }

def findMatchesForIntent (s : DTPContract) (env : Env) (intentId : String) (offset limit : U64) :
    Except Panic (List RankedMatch) := do
  let intent ← require "Intent not found" (s.intents.get? intentId)
  findMatches s env (s.listingsAgainst intentId intent) offset limit

def findMatchesForListing (s : DTPContract) (env : Env) (listingId : String) (offset limit : U64) :
    Except Panic (List RankedMatch) := do
  let listing ← require "Listing not found" (s.listings.get? listingId)
  findMatches s env (s.intentsAgainst listingId listing) offset limit

/-- The price gap or the shared delivery window does not fit its word once it is scaled. -/
def Overflows (intent : TradeIntent) (listing : SupplyListing) : Prop :=
  2 ^ 128 ≤ (intent.pricing.ceilingPricePerUnit.val - listing.pricing.askingPricePerUnit.val) *
      10000 ∨
    2 ^ 64 ≤ sharedWindow listing.delivery intent.delivery * 2500

def pricePoints (ceiling ask : ℕ) : ℕ :=
  if ceiling = 0 then 2500 else min ((ceiling - ask) * 10000 / ceiling) 10000 * 2500 / 10000

def timingPoints (listing intent : DeliverySpec) : ℕ :=
  sharedWindow listing intent * 2500 / max (intent.windowLatest.val - intent.windowEarliest.val) 1

def reputationPoints (score : ℕ) : ℕ := min score 10000 * 2500 / 10000

def certificationPoints (required provided : ℕ) (catalogMatched : Bool) : ℕ :=
  (if catalogMatched then 1500 else 0) + min (provided - required) 5 * 200

/-- Basis points, capped at ten thousand, are worth at most a quarter of the score. -/
theorem capped (x : ℕ) : min x 10000 * 2500 < 2 ^ 32 ∧ min x 10000 * 2500 / 10000 ≤ 2500 := by
  omega

theorem capped_mono {x y : ℕ} (h : x ≤ y) :
    min x 10000 * 2500 / 10000 ≤ min y 10000 * 2500 / 10000 := by
  omega

theorem pricePoints_le (ceiling ask : ℕ) : pricePoints ceiling ask ≤ 2500 := by
  unfold pricePoints
  split
  · exact le_rfl
  · exact (capped _).2

theorem sharedWindow_le (listing intent : DeliverySpec) : sharedWindow listing intent ≤
    intent.windowLatest.val - intent.windowEarliest.val := by
  unfold sharedWindow
  simp only
  split <;> omega

theorem timingPoints_le (listing intent : DeliverySpec) : timingPoints listing intent ≤ 2500 := by
  unfold timingPoints
  have hshared := sharedWindow_le listing intent
  apply Nat.div_le_of_le_mul
  calc sharedWindow listing intent * 2500
      ≤ max (intent.windowLatest.val - intent.windowEarliest.val) 1 * 2500 :=
        Nat.mul_le_mul_right _ (hshared.trans (Nat.le_max_left _ _))
    _ = _ := rfl

theorem reputationPoints_le (score : ℕ) : reputationPoints score ≤ 2500 := (capped score).2

theorem certificationPoints_le (required provided : ℕ) (catalogMatched : Bool) :
    certificationPoints required provided catalogMatched ≤ 2500 := by
  unfold certificationPoints
  split <;> omega

theorem priceScore_eq {ceiling ask : Amount}
    (h : (ceiling.val - ask.val) * 10000 < 2 ^ 128) :
    priceScore ceiling ask = .ok (pricePoints ceiling.val ask.val) := by
  unfold priceScore pricePoints
  by_cases hzero : ceiling.val = 0
  · rw [if_pos hzero, if_pos hzero]
  · rw [if_neg hzero, if_neg hzero, wordMul_of_lt (w := 128) h, ok_bind]
    simp only
    rw [wordMul_of_lt (capped _).1, ok_bind, min_eq_left (capped _).2]

theorem timingScore_eq {listing intent : DeliverySpec}
    (h : sharedWindow listing intent * 2500 < 2 ^ 64) :
    timingScore listing intent = .ok (timingPoints listing intent) := by
  unfold timingScore
  simp only [wordMul_of_lt h, ok_bind]
  have hle := timingPoints_le listing intent
  unfold timingPoints at hle ⊢
  rw [Nat.mod_eq_of_lt (by omega), min_eq_left hle]

theorem reputationScore_eq (score : U32) :
    reputationScore score = .ok (reputationPoints score.val) := by
  unfold reputationScore
  rw [wordMul_of_lt (capped score.val).1, ok_bind]
  exact congrArg Except.ok (min_eq_left (reputationPoints_le score.val))

theorem certificationScore_eq (required provided : ℕ) (catalogMatched : Bool) :
    certificationScore required provided catalogMatched =
      .ok (certificationPoints required provided catalogMatched) := by
  have hle := certificationPoints_le required provided catalogMatched
  unfold certificationScore
  unfold certificationPoints at hle ⊢
  rw [wordMul_of_lt (by omega), ok_bind, min_eq_left (by omega), wordAdd_of_lt (by omega), ok_bind,
    min_eq_left hle]

/-- The score of a pair, in exact arithmetic. -/
def matchPoints (intent : TradeIntent) (listing : SupplyListing) (reputation : ℕ)
    (catalogMatched : Bool) : ℕ :=
  pricePoints intent.pricing.ceilingPricePerUnit.val listing.pricing.askingPricePerUnit.val +
    timingPoints listing.delivery intent.delivery + reputationPoints reputation +
    certificationPoints intent.goods.requiredCertifications.length listing.certifications.length
      catalogMatched

theorem matchPoints_le (intent : TradeIntent) (listing : SupplyListing) (reputation : ℕ)
    (catalogMatched : Bool) : matchPoints intent listing reputation catalogMatched ≤ 10000 := by
  have hprice := pricePoints_le intent.pricing.ceilingPricePerUnit.val
    listing.pricing.askingPricePerUnit.val
  have htiming := timingPoints_le listing.delivery intent.delivery
  have hreputation := reputationPoints_le reputation
  have hcertification := certificationPoints_le intent.goods.requiredCertifications.length
    listing.certifications.length catalogMatched
  unfold matchPoints
  omega

/-- The score is exact unless the price gap or the shared window overflows. -/
theorem computeMatchScore_eq {intent : TradeIntent} {listing : SupplyListing} {reputation : U32}
    {catalogMatched : Bool} (h : ¬ Overflows intent listing) :
    computeMatchScore intent listing reputation catalogMatched =
      .ok (matchPoints intent listing reputation.val catalogMatched) := by
  obtain ⟨hprice, htiming⟩ := not_or.mp h
  have hle := matchPoints_le intent listing reputation.val catalogMatched
  unfold computeMatchScore
  unfold matchPoints at hle ⊢
  rw [priceScore_eq (not_le.mp hprice), ok_bind, timingScore_eq (not_le.mp htiming), ok_bind,
    reputationScore_eq, ok_bind, certificationScore_eq, ok_bind, wordAdd_of_lt (by omega), ok_bind,
    wordAdd_of_lt (by omega), ok_bind, wordAdd_of_lt (by omega)]

/-- A pair that overflows has no score. -/
theorem computeMatchScore_panics {intent : TradeIntent} {listing : SupplyListing}
    {reputation : U32} {catalogMatched : Bool} {score : ℕ} (h : Overflows intent listing) :
    computeMatchScore intent listing reputation catalogMatched ≠ .ok score := by
  intro hscore
  simp only [computeMatchScore, bind_eq_ok] at hscore
  obtain ⟨price, hprice, timing, htiming, -⟩ := hscore
  cases h with
  | inl hgap =>
    unfold priceScore at hprice
    split at hprice
    next hzero =>
      rw [hzero, Nat.zero_sub, Nat.zero_mul] at hgap
      omega
    next =>
      rw [bind_eq_ok] at hprice
      obtain ⟨scaled, hscaled, -⟩ := hprice
      unfold wordMul at hscaled
      rw [if_neg (by omega)] at hscaled
      cases hscaled
  | inr hwide =>
    unfold timingScore at htiming
    simp only [bind_eq_ok] at htiming
    obtain ⟨scaled, hscaled, -⟩ := htiming
    unfold wordMul at hscaled
    rw [if_neg (by omega)] at hscaled
    cases hscaled

theorem pricePoints_anti (ceiling : ℕ) {ask ask' : ℕ} (h : ask' ≤ ask) :
    pricePoints ceiling ask ≤ pricePoints ceiling ask' := by
  unfold pricePoints
  split
  · exact le_rfl
  · have hgap : (ceiling - ask) * 10000 / ceiling ≤ (ceiling - ask') * 10000 / ceiling :=
      Nat.div_le_div_right (by omega)
    exact capped_mono hgap

theorem reputationPoints_mono {score score' : ℕ} (h : score ≤ score') :
    reputationPoints score ≤ reputationPoints score' := capped_mono h

/-- The listing at another asking price. -/
def SupplyListing.asking (listing : SupplyListing) (price : Amount) : SupplyListing :=
  { listing with pricing := ⟨price⟩ }

theorem mismatches_asking {intent : TradeIntent} {listing : SupplyListing} {now : U64}
    {catalog : Option String} {price : Amount} (hprice : price ≤ listing.pricing.askingPricePerUnit)
    (h : mismatches intent listing now catalog = []) :
    mismatches intent (listing.asking price) now catalog = [] := by
  simp only [mismatches, List.append_eq_nil_iff, ite_eq_right_iff, List.cons_ne_nil, imp_false]
    at h ⊢
  obtain ⟨⟨⟨⟨⟨⟨hquantity, hcerts⟩, hceiling⟩, hwindow⟩, hcatalog⟩, hlisting⟩, hintent⟩ := h
  refine ⟨⟨⟨⟨⟨⟨hquantity, hcerts⟩, ?_⟩, hwindow⟩, hcatalog⟩, hlisting⟩, hintent⟩
  intro hlt
  exact hceiling (lt_of_lt_of_le hlt hprice)

/-- A lower asking price and a better reputation keep a match and do not lower its score. -/
theorem checkListingVsIntent_mono {intent : TradeIntent} {listing : SupplyListing} {now : U64}
    {reputation reputation' : U32} {catalog : Option String} {price : Amount}
    {r r' : MatchEligibility} (hprice : price ≤ listing.pricing.askingPricePerUnit)
    (hreputation : reputation ≤ reputation')
    (h : checkListingVsIntent intent listing now (some reputation) catalog = .ok r)
    (h' : checkListingVsIntent intent (listing.asking price) now (some reputation') catalog =
      .ok r') :
    (r.eligible = true → r'.eligible = true) ∧ r.score ≤ r'.score := by
  simp only [checkListingVsIntent, bind_eq_ok, Option.getD_some] at h h'
  obtain ⟨score, hscore, h⟩ := h
  obtain ⟨score', hscore', h'⟩ := h'
  cases h
  cases h'
  by_cases hmatch : mismatches intent listing now catalog = []
  · have hmatch' := mismatches_asking hprice hmatch
    rw [hmatch] at hscore ⊢
    rw [hmatch'] at hscore' ⊢
    refine ⟨fun _ => rfl, ?_⟩
    simp only [List.isEmpty_nil, if_true] at hscore hscore'
    have hfits : ¬ Overflows intent listing :=
      fun hover => computeMatchScore_panics hover hscore
    have hfits' : ¬ Overflows intent (listing.asking price) :=
      fun hover => computeMatchScore_panics hover hscore'
    rw [computeMatchScore_eq hfits, Except.ok.injEq] at hscore
    rw [computeMatchScore_eq hfits', Except.ok.injEq] at hscore'
    have hbetter := pricePoints_anti intent.pricing.ceilingPricePerUnit.val hprice
    have hknown := reputationPoints_mono hreputation
    rw [← hscore, ← hscore']
    unfold matchPoints
    simp only [SupplyListing.asking]
    omega
  · have hempty : (mismatches intent listing now catalog).isEmpty = false := by
      simpa using hmatch
    rw [hempty] at hscore ⊢
    cases hscore
    exact ⟨(absurd · Bool.false_ne_true), Nat.zero_le _⟩

/-- The listing and the intent of a pair fit each other. -/
def Pairing.eligible (pair : Pairing) (s : DTPContract) (env : Env) : Bool :=
  (mismatches pair.intent pair.listing env.nowMs (s.listingCatalogId pair.listing)).isEmpty

/-- A pair with its score. -/
def Pairing.ranked (pair : Pairing) (s : DTPContract) : RankedMatch where
  intentId := pair.intentId
  listingId := pair.listingId
  score := matchPoints pair.intent pair.listing ((s.sellerReputation pair.listing).getD 10000).val
    (pair.intent.catalogId.isSome &&
      decide (s.listingCatalogId pair.listing = pair.intent.catalogId))
  reasons := []

/-- Every eligible pair, once. -/
def candidates (s : DTPContract) (env : Env) (pairs : List Pairing) : List RankedMatch :=
  (pairs.filter fun pair => pair.eligible s env).map fun pair => pair.ranked s

/-- The candidates, the best first. -/
def ranking (s : DTPContract) (env : Env) (pairs : List Pairing) : List RankedMatch :=
  (candidates s env pairs).mergeSort byScore

/-- Every eligible pair can be scored. -/
def Scorable (s : DTPContract) (env : Env) (pairs : List Pairing) : Prop :=
  ∀ pair ∈ pairs, pair.eligible s env = true → ¬ Overflows pair.intent pair.listing

theorem rank_eq {pair : Pairing}
    (h : pair.eligible s env = true → ¬ Overflows pair.intent pair.listing) :
    rank s env pair = .ok (if pair.eligible s env then some (pair.ranked s) else none) := by
  unfold rank checkListingVsIntent
  by_cases heligible : pair.eligible s env = true
  · have hempty := heligible
    unfold Pairing.eligible at hempty
    simp only [hempty, if_true, heligible, computeMatchScore_eq (h heligible), ok_bind]
    rfl
  · have hempty := heligible
    unfold Pairing.eligible at hempty
    simp only [heligible, hempty]
    rfl

theorem rank_panics {pair : Pairing} {r : Option RankedMatch}
    (heligible : pair.eligible s env = true) (h : Overflows pair.intent pair.listing) :
    rank s env pair ≠ .ok r := by
  intro hrank
  unfold Pairing.eligible at heligible
  simp only [rank, checkListingVsIntent, heligible, if_true, bind_eq_ok] at hrank
  obtain ⟨_, ⟨score, hscore, -⟩, -⟩ := hrank
  exact computeMatchScore_panics h hscore

theorem filterMap_map_ite {α β : Type} (p : α → Bool) (f : α → β) (l : List α) :
    (l.map fun a => if p a then some (f a) else none).filterMap id = (l.filter p).map f := by
  induction l with
  | nil => rfl
  | cons a rest ih =>
    rw [List.map_cons, List.filterMap_cons, ih]
    cases hp : p a <;> simp [hp]

/-- A query answers exactly if every eligible pair can be scored, and with a slice of the
ranking. -/
theorem findMatches_eq_ok {pairs : List Pairing} {offset limit : U64} {r : List RankedMatch} :
    findMatches s env pairs offset limit = .ok r ↔
      Scorable s env pairs ∧ r = slice (ranking s env pairs) (asUsize offset) (asUsize limit) := by
  have hfound : ∀ l : List Pairing, Scorable s env l →
      l.mapM (rank s env) = .ok (l.map fun pair =>
        if pair.eligible s env then some (pair.ranked s) else none) := by
    intro l hl
    induction l with
    | nil => rfl
    | cons pair rest ih =>
      have hrest := ih fun p hp => hl p (List.mem_cons_of_mem _ hp)
      rw [List.mapM_cons, rank_eq (hl pair List.mem_cons_self), ok_bind, hrest, ok_bind]
      rfl
  have hcandidates : ((pairs.map fun pair =>
      if pair.eligible s env then some (pair.ranked s) else none).filterMap id) =
        candidates s env pairs := filterMap_map_ite _ _ pairs
  unfold findMatches
  simp only [bind_eq_ok]
  constructor
  · intro h
    obtain ⟨found, hmap, h⟩ := h
    have hscorable : Scorable s env pairs := by
      intro pair hpair heligible hover
      obtain ⟨b, -, hb⟩ := (exists_of_mapM hmap).2 pair hpair
      exact rank_panics heligible hover hb
    rw [hfound pairs hscorable, Except.ok.injEq] at hmap
    rw [← hmap, hcandidates, Except.ok.injEq] at h
    exact ⟨hscorable, h.symm⟩
  · intro h
    refine ⟨_, hfound pairs h.1, ?_⟩
    rw [hcandidates, h.2]
    rfl

theorem byScore_trans (a b c : RankedMatch) (hab : byScore a b = true) (hbc : byScore b c = true) :
    byScore a c = true := by
  unfold byScore at *
  simp only [decide_eq_true_eq] at *
  omega

theorem byScore_total (a b : RankedMatch) : (byScore a b || byScore b a) = true := by
  unfold byScore
  simp only [Bool.or_eq_true, decide_eq_true_eq]
  omega

/-- The 32-bit sizes leave the slice of a query where it is in a ranking of `n` matches. -/
def Pageable (n : ℕ) (offset limit : U64) : Prop :=
  min (asUsize limit) (n - asUsize offset) = min limit.val (n - offset.val) ∧
    (min limit.val (n - offset.val) = 0 ∨ asUsize offset = offset.val)

/-- What a query over some pairs does, for every offset and limit. -/
structure Discovers (s : DTPContract) (env : Env) (pairs : List Pairing)
    (query : U64 → U64 → Except Panic (List RankedMatch)) : Prop where
  /-- It answers with the page asked for exactly under these conditions. -/
  answers : ∀ offset limit,
    query offset limit = .ok (slice (ranking s env pairs) offset.val limit.val) ↔
      Scorable s env pairs ∧ Pageable (ranking s env pairs).length offset limit
  complete : (ranking s env pairs).Perm (candidates s env pairs)
  once : ((ranking s env pairs).map fun r => (r.intentId, r.listingId)).Nodup
  descending : (ranking s env pairs).Pairwise fun a b => b.score ≤ a.score
  bounded : ∀ r ∈ ranking s env pairs, r.score ≤ 10000
  /-- The pages of one size, laid end to end, are the whole ranking. -/
  walked : ∀ limit, 0 < limit →
    ((List.range (ranking s env pairs).length).flatMap fun k =>
      slice (ranking s env pairs) (k * limit) limit) = ranking s env pairs

theorem findMatches_discovers {pairs : List Pairing}
    (hpairs : (pairs.map fun p => (p.intentId, p.listingId)).Nodup) :
    Discovers s env pairs (findMatches s env pairs) := by
  have hperm : (ranking s env pairs).Perm (candidates s env pairs) := List.mergeSort_perm _ _
  have honce : ((ranking s env pairs).map fun r => (r.intentId, r.listingId)).Nodup := by
    refine ((hperm.map _).nodup_iff).mpr ?_
    rw [candidates, List.map_map]
    exact hpairs.sublist (List.filter_sublist.map _)
  refine ⟨?_, hperm, honce, ?_, ?_, fun limit hlimit => flatMap_slice hlimit _⟩
  · intro offset limit
    rw [findMatches_eq_ok, eq_comm (a := slice _ _ _), slice_inj (List.Nodup.of_map _ honce)]
    unfold Pageable
    constructor
    · intro h
      obtain ⟨hscorable, hlength, hplace⟩ := h
      rw [hlength] at hplace
      exact ⟨hscorable, hlength, hplace⟩
    · intro h
      obtain ⟨hscorable, hlength, hplace⟩ := h
      rw [← hlength] at hplace
      exact ⟨hscorable, hlength, hplace⟩
  · have hsorted := List.pairwise_mergeSort byScore_trans byScore_total (candidates s env pairs)
    refine hsorted.imp ?_
    intro a b hab
    exact decide_eq_true_eq.mp hab
  · intro r hr
    obtain ⟨pair, -, rfl⟩ := List.mem_map.mp (hperm.subset hr)
    exact matchPoints_le _ _ _ _

theorem listingsAgainst_nodup (s : DTPContract) (intentId : String) (intent : TradeIntent) :
    ((s.listingsAgainst intentId intent).map fun p => (p.intentId, p.listingId)).Nodup := by
  have hkeys := s.listings.nodup.sublist
    ((List.filter_sublist (p := fun entry => decide (entry.2.status = .active))).map Prod.fst)
  refine List.Nodup.of_map Prod.snd ?_
  rw [DTPContract.listingsAgainst, List.map_map, List.map_map]
  exact hkeys

theorem intentsAgainst_nodup (s : DTPContract) (listingId : String) (listing : SupplyListing) :
    ((s.intentsAgainst listingId listing).map fun p => (p.intentId, p.listingId)).Nodup := by
  have hkeys := s.intents.nodup.sublist
    ((List.filter_sublist (p := fun entry => decide (entry.2.status = .posted))).map Prod.fst)
  refine List.Nodup.of_map Prod.fst ?_
  rw [DTPContract.intentsAgainst, List.map_map, List.map_map]
  exact hkeys

/-- Whatever is posted, a query for a known intent or listing answers with its page of the ranking
exactly if every eligible pair can be scored and the platform's sizes leave the page in its place;
and a lower asking price or a better reputation never lowers a score. -/
theorem match_discovery (s : DTPContract) (env : Env) :
    (∀ intentId intent, s.intents.get? intentId = some intent →
      Discovers s env (s.listingsAgainst intentId intent) (findMatchesForIntent s env intentId)) ∧
    (∀ listingId listing, s.listings.get? listingId = some listing →
      Discovers s env (s.intentsAgainst listingId listing)
        (findMatchesForListing s env listingId)) ∧
    ∀ intent listing now reputation reputation' catalog price r r',
      price ≤ listing.pricing.askingPricePerUnit → reputation ≤ reputation' →
      checkListingVsIntent intent listing now (some reputation) catalog = .ok r →
      checkListingVsIntent intent (listing.asking price) now (some reputation') catalog = .ok r' →
      (r.eligible = true → r'.eligible = true) ∧ r.score ≤ r'.score := by
  refine ⟨?_, ?_, ?_⟩
  · intro intentId intent hintent
    have hquery : findMatchesForIntent s env intentId =
        findMatches s env (s.listingsAgainst intentId intent) := by
      funext offset limit
      rw [findMatchesForIntent, hintent]
      rfl
    rw [hquery]
    exact findMatches_discovers (listingsAgainst_nodup s intentId intent)
  · intro listingId listing hlisting
    have hquery : findMatchesForListing s env listingId =
        findMatches s env (s.intentsAgainst listingId listing) := by
      funext offset limit
      rw [findMatchesForListing, hlisting]
      rfl
    rw [hquery]
    exact findMatches_discovers (intentsAgainst_nodup s listingId listing)
  · intro intent listing now reputation reputation' catalog price r r' hprice hreputation h h'
    exact checkListingVsIntent_mono hprice hreputation h h'

/-- A listing, an intent that fits it, and a second one with the highest ceiling there is. -/
def samplePostings : List (Env × Method) :=
  [(⟨sampleSeller, 0⟩, .registerParty),
   (⟨sampleBuyer, 0⟩, .registerParty),
   (⟨sampleSeller, 0⟩, .postListing none sampleGoods ⟨0, 9⟩ ⟨1000⟩ none none [] 0 5),
   (⟨sampleBuyer, 0⟩, .postIntent sampleGoods ⟨0, 9⟩ ⟨5000⟩ none none 5),
   (⟨sampleBuyer, 0⟩, .postIntent sampleGoods ⟨0, 9⟩ ⟨340282366920938463463374607431768211455⟩
     none none 5)]

/-- The second intent stops the discovery of the first. -/
theorem match_discovery_panics :
    ((run (.new sampleOwner) samplePostings).listings.get? "lst-1").isSome = true ∧
      findMatchesForListing (run (.new sampleOwner) (samplePostings.take 4)) ⟨sampleBuyer, 0⟩
        "lst-1" 0 10 = .ok [⟨"int-2", "lst-1", 7000, []⟩] ∧
      findMatchesForListing (run (.new sampleOwner) samplePostings) ⟨sampleBuyer, 0⟩
        "lst-1" 0 10 = .error "attempt to multiply with overflow" := by
  refine ⟨by decide, ?_, by decide⟩
  decide +kernel

end DirectTrade.Near
