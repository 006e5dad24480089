import DirectTrade.Foundation.Commitments
import DirectTrade.Library.Dict
import Mathlib.Data.List.Sort
import Mathlib.Data.Prod.Lex

/-!
A bounded index over the publications that providers authenticate. It keeps the head of every
publication; a query pages through the heads that its viewer may see and that may match its
demand, under a cursor that is bound to exactly those.
-/

namespace DirectTrade.Foundation.Discovery

open Library Outcome
open Commitments (InstantInterval Inclusion parseInstantInterval)

inductive DiscoveryCode where
  | invalidDiscovery
  | conflict
  | unavailable
  | restartRequired
  | capacity
  deriving DecidableEq

inductive Refusal where
  | discovery (reason : String) (code : DiscoveryCode)
  | datatype (message : String)
  deriving DecidableEq

abbrev Indexed (α : Type) := Except Refusal α

def invalid (reason : String) : Refusal := .discovery reason .invalidDiscovery

def conflict (reason : String) : Refusal := .discovery reason .conflict

def restart (reason : String) : Refusal := .discovery reason .restartRequired

def datatype {α : Type} : Checked α → Indexed α
  | .ok a => .ok a
  | .error message => .error (.datatype message)

inductive Family where
  | goods
  | service
  deriving DecidableEq

/-- What is published: a supply or a demand, of goods or of a service. -/
structure DiscoveryKind where
  family : Family
  isDemand : Bool
  deriving DecidableEq

/-- What a demand is matched with. -/
def DiscoveryKind.supply (k : DiscoveryKind) : DiscoveryKind := { k with isDemand := false }

inductive Knowledge (α : Type) where
  | known (value : α)
  | absent
  | unknown
  | withheld
  | notApplicable
  deriving DecidableEq

def Knowledge.known? {α : Type} : Knowledge α → Option α
  | .known value => some value
  | _ => none

/-- A quantity in millionths of its unit. -/
structure Quantity where
  amount : ℕ
  unit : ExternalIdentifier
  deriving DecidableEq

inductive PriceKind where
  | asking
  | estimate
  | budget
  deriving DecidableEq

structure Price where
  kind : PriceKind
  amount : ℕ
  currency : ExternalIdentifier
  basis : ExternalIdentifier
  taxes : Inclusion
  fees : Inclusion
  deriving DecidableEq

inductive DiscoveryPricing where
  | requestForQuote
  | priced (price : Price)
  deriving DecidableEq

def DiscoveryPricing.price? : DiscoveryPricing → Option Price
  | .requestForQuote => none
  | .priced price => some price

structure AuthorityLocator where
  provider : EntityReference
  profileDigest : Digest
  quoteOperation : String
  bookingOperation : String
  deriving DecidableEq

structure DiscoveryTerms where
  category : ExternalIdentifier
  area : ExternalIdentifier
  subject : Option EntityReference
  timeWindow : InstantInterval
  timezone : String
  quantity : Knowledge Quantity
  minQuantity : Knowledge Quantity
  maxQuantity : Knowledge Quantity
  authorityLocator : AuthorityLocator
  pricing : DiscoveryPricing
  conditions : List ExternalIdentifier
  deriving DecidableEq

inductive PublicationVisibility where
  | everyone
  | allowlist (organizations : List Uuid)
  deriving DecidableEq

/-- A withdrawn publication has no terms. -/
inductive PublicationStatus where
  | withdrawn
  | published (terms : DiscoveryTerms)
  deriving DecidableEq

structure DiscoveryPublication where
  revision : RevisionReference
  previous : Option RevisionReference
  profileDigest : Digest
  kind : DiscoveryKind
  provider : EntityReference
  status : PublicationStatus
  visibility : PublicationVisibility
  publishedAt : ℤ
  expiresAt : ℤ
  deriving DecidableEq

structure DiscoveryProfile where
  digest : Digest
  kind : DiscoveryKind
  compatibilityGroup : String
  deriving DecidableEq

def unique {α κ : Type} [DecidableEq κ] (values : List α) (key : α → κ) : Indexed Unit :=
  demand (invalid "duplicate scoped identifier") (values.map key).Nodup

def array {α : Type} (values : List α) (max : ℕ) : Indexed Unit :=
  demand (invalid "bounded array required") (values.length ≤ max)

/-- At most 18 digits before the point and six after it. -/
def amount (v : ℕ) : Indexed Unit :=
  demand (invalid "bounded nonnegative decimal required") (v < 10 ^ 24)

def operation (s : String) : Indexed Unit :=
  demand (invalid "bounded operation name required") (textLength s ≤ 96 ∧ isNamespaced s = true)

def pricing (v : DiscoveryPricing) (isDemand : Bool) : Indexed Unit :=
  match v with
  | .requestForQuote => pure ()
  | .priced p => do
    demand (invalid "pricing kind differs from supply/demand")
      (if isDemand then p.kind = .budget else p.kind = .asking ∨ p.kind = .estimate)
    amount p.amount
    datatype (parseExternalIdentifier p.currency)
    datatype (parseExternalIdentifier p.basis)

def quantity (v : Knowledge Quantity) : Indexed Unit :=
  match v with
  | .known q => do
    amount q.amount
    datatype (parseExternalIdentifier q.unit)
  | _ => pure ()

/-- The quantities that are known. -/
def known (l : List (Knowledge Quantity)) : List Quantity := l.filterMap Knowledge.known?

/-- Every known quantity is in the unit of the first. -/
def sameUnits (l : List (Knowledge Quantity)) : Prop :=
  ∀ q ∈ known l, ∀ first ∈ (known l).head?, q.unit = first.unit

instance (l : List (Knowledge Quantity)) : Decidable (sameUnits l) := by
  unfold sameUnits
  infer_instance

/-- A known demand is positive and within its own known limits. -/
def demandedQuantity (t : DiscoveryTerms) : Indexed Unit :=
  match t.quantity with
  | .known q => do
    demand (invalid "known demand quantity must be positive") (0 < q.amount)
    demand (invalid "demand is below its declared minimum")
      (∀ m ∈ t.minQuantity.known?, m.amount ≤ q.amount)
    demand (invalid "demand exceeds its declared maximum")
      (∀ m ∈ t.maxQuantity.known?, q.amount ≤ m.amount)
  | _ => pure ()

def parseTerms (p : DiscoveryPublication) (t : DiscoveryTerms) (zones : List String) :
    Indexed Unit := do
  demand (invalid "subject must be a resource") (∀ s ∈ t.subject, s.kind = .resource)
  quantity t.quantity
  quantity t.minQuantity
  quantity t.maxQuantity
  demand (invalid "quantity bounds require consistent exact units")
    (sameUnits [t.quantity, t.minQuantity, t.maxQuantity])
  demand (invalid "minimum exceeds maximum")
    (∀ low ∈ t.minQuantity.known?, ∀ high ∈ t.maxQuantity.known?, low.amount ≤ high.amount)
  if p.kind.isDemand then demandedQuantity t else pure ()
  demand (invalid "authority locator provider differs from publisher")
    (t.authorityLocator.provider = p.provider)
  operation t.authorityLocator.quoteOperation
  operation t.authorityLocator.bookingOperation
  datatype (parseExternalIdentifier t.category)
  datatype (parseExternalIdentifier t.area)
  datatype (parseInstantInterval t.timeWindow)
  demand (.datatype "timezone not explicitly supported at $") (t.timezone ∈ zones)
  pricing t.pricing p.kind.isDemand
  array t.conditions 32
  each (fun c => datatype (parseExternalIdentifier c)) t.conditions
  unique t.conditions id

def publication (p : DiscoveryPublication) (zones : List String) : Indexed Unit := do
  demand (invalid "publication/provider scope mismatch")
    (p.provider.kind = .organization ∧ p.revision.entity.kind = .record ∧
      p.revision.entity.organizationId = some p.provider.id)
  demand (invalid "previous revision belongs to another publication")
    (∀ r ∈ p.previous, r.entity = p.revision.entity)
  match p.visibility with
  | .everyone => pure ()
  | .allowlist organizations => do
    array organizations 64
    unique organizations id
  demand (invalid "publication expiry must follow publication time") (p.publishedAt < p.expiresAt)
  match p.status with
  | .withdrawn => pure ()
  | .published t => parseTerms p t zones

def PublicationVisibility.shows (v : PublicationVisibility) (viewer : Option Uuid) : Bool :=
  match v with
  | .everyone => true
  | .allowlist organizations => viewer.any fun organization => organization ∈ organizations

/-- The terms that a viewer may see at a time. -/
def visible (p : DiscoveryPublication) (viewer : Option Uuid) (now : ℤ) : Option DiscoveryTerms :=
  match p.status with
  | .withdrawn => none
  | .published t =>
    if p.publishedAt ≤ now ∧ now < p.expiresAt ∧ now < t.timeWindow.stop ∧
        (some p.provider.id = viewer ∨ p.visibility.shows viewer = true) then some t
    else none

/-- The least amount of two that are not both missing. -/
def leastOf (bound : Option ℕ) (n : ℕ) : Option ℕ :=
  match bound with
  | none => some n
  | some m => some (min m n)

/-- What limits a match that quantities, prices and times leave possible. -/
def limitations (d s : DiscoveryTerms) : List String :=
  ["authoritative_availability_and_terms_recheck"] ++
    (if d.subject = none then ["subject_unspecified"] else []) ++
    (if d.timeWindow.start < s.timeWindow.start ∨ s.timeWindow.stop < d.timeWindow.stop then
      ["partial_time_window"] else []) ++
    (if d.quantity.known? = none ∨ s.quantity.known? = none then
      ["quantity_unknown_not_available"] else []) ++
    (if ∃ q ∈ [d.minQuantity, d.maxQuantity, s.minQuantity, s.maxQuantity], q.known? = none then
      ["order_limits_unknown_not_unrestricted"] else []) ++
    (if d.pricing = .requestForQuote ∨ s.pricing = .requestForQuote then
      ["price_unknown_request_quote"] else []) ++
    match s.pricing with
    | .requestForQuote => []
    | .priced p =>
      (if p.kind = .estimate then ["estimated_price"] else []) ++
        (if p.taxes = .included then [] else ["taxes_not_confirmed_included"]) ++
        (if p.fees = .included then [] else ["fees_not_confirmed_included"])

/-- Whether the known bounds of demand and supply leave a quantity. -/
def quantitiesMeet (d s : DiscoveryTerms) : Prop :=
  let minimum := ((known [d.quantity, d.minQuantity, s.minQuantity]).map
    fun q => q.amount).foldl max 1
  let maximum := ((known [d.quantity, d.maxQuantity, s.maxQuantity, s.quantity]).map
    fun q => q.amount).foldl leastOf none
  ∀ m ∈ maximum, minimum ≤ m

instance (d s : DiscoveryTerms) : Decidable (quantitiesMeet d s) := by
  unfold quantitiesMeet
  infer_instance

/-- Whether the price is in the currency and on the basis of the budget, and within it. -/
def pricesMeet (d s : DiscoveryTerms) : Prop :=
  ∀ budget ∈ d.pricing.price?, ∀ price ∈ s.pricing.price?,
    budget.currency = price.currency ∧ budget.basis = price.basis ∧ price.amount ≤ budget.amount

instance (d s : DiscoveryTerms) : Decidable (pricesMeet d s) := by
  unfold pricesMeet
  infer_instance

def potential (d s : DiscoveryTerms) : Option (List String) :=
  if d.category = s.category ∧ d.area = s.area ∧ (∀ r ∈ d.subject, s.subject = some r) ∧
      s.timeWindow.start < d.timeWindow.stop ∧ d.timeWindow.start < s.timeWindow.stop ∧
      (∀ c ∈ d.conditions, c ∈ s.conditions) ∧
      sameUnits [d.quantity, d.minQuantity, d.maxQuantity, s.quantity, s.minQuantity,
        s.maxQuantity] ∧
      quantitiesMeet d s ∧ pricesMeet d s then some (limitations d s)
  else none

structure DiscoveryConfiguration where
  profiles : Dict Digest DiscoveryProfile
  supportedTimezones : List String

structure DiscoveryIndex where
  heads : Dict EntityReference DiscoveryPublication
  seen : List (EntityReference × Uuid)
  deriving DecidableEq

/-- The new head of a publication, and whether it is the one already there. -/
def apply (config : DiscoveryConfiguration) (index : DiscoveryIndex) (p : DiscoveryPublication)
    (authenticatedProvider : Uuid) (acceptedAt : ℤ) : Indexed (DiscoveryIndex × Bool) := do
  publication p config.supportedTimezones
  demand (invalid "publication profile/kind is not admitted")
    ((config.profiles.get? p.profileDigest).map DiscoveryProfile.kind = some p.kind)
  demand (invalid "publisher authority/time mismatch")
    (p.provider.id = authenticatedProvider ∧ p.publishedAt ≤ acceptedAt)
  let key := p.revision.entity
  let current := index.heads.get? key
  let revisionKey := (key, p.revision.revisionId)
  if current.map DiscoveryPublication.revision = some p.revision then do
    demand (conflict "conflicting publication retry") (current = some p)
    pure (index, true)
  else do
    demand (conflict "previously accepted revision cannot be replayed as current")
      (revisionKey ∉ index.seen)
    demand (conflict "publication previous-head conflict")
      (current.map DiscoveryPublication.revision = p.previous)
    demand (conflict "publication identity or time cannot roll back")
      (∀ c ∈ current, c.provider = p.provider ∧ c.kind = p.kind ∧ c.publishedAt ≤ p.publishedAt)
    demand (.discovery "discovery index capacity exhausted" .capacity)
      ((current.isSome = true ∨ index.heads.entries.length < 1024) ∧ index.seen.length < 8192)
    pure ({ heads := index.heads.set key p, seen := index.seen ++ [revisionKey] }, false)

structure PotentialOffer where
  publication : DiscoveryPublication
  limitations : List String
  deriving DecidableEq

/-- The texts of records compare as their identifiers. -/
def entityReferenceKey (e : EntityReference) : ℕ ×ₗ ℕ := toLex (e.id, e.organizationId.getD 0)

def PotentialOffer.entity (o : PotentialOffer) : EntityReference := o.publication.revision.entity

def compatibilityGroup (config : DiscoveryConfiguration) (p : DiscoveryPublication) :
    Option String :=
  (config.profiles.get? p.profileDigest).map DiscoveryProfile.compatibilityGroup

/-- A head as an offer for a demand, where the viewer may see it and it may match. -/
def offer? (config : DiscoveryConfiguration) (d : DiscoveryPublication) (terms : DiscoveryTerms)
    (viewer : Option Uuid) (now : ℤ) (s : DiscoveryPublication) : Option PotentialOffer := do
  let offered ← visible s viewer now
  if s.kind = d.kind.supply ∧ compatibilityGroup config s = compatibilityGroup config d then do
    let limits ← potential terms offered
    pure { publication := s, limitations := limits }
  else none

def offersFor (config : DiscoveryConfiguration) (index : DiscoveryIndex)
    (d : DiscoveryPublication) (terms : DiscoveryTerms) (viewer : Option Uuid) (now : ℤ) :
    List PotentialOffer :=
  (index.heads.values.filterMap (offer? config d terms viewer now)).insertionSort
    fun a b => entityReferenceKey a.entity ≤ entityReferenceKey b.entity

structure Cursor where
  queryDigest : Digest
  visibleDigest : Digest
  after : EntityReference
  deriving DecidableEq

/-- The text of a cursor: one that reads as a cursor, or any other. -/
inductive CursorText where
  | read (cursor : Cursor)
  | unreadable
  deriving DecidableEq

structure DiscoveryQuery where
  demand : RevisionReference
  viewerOrganization : Option Uuid
  now : ℤ
  limit : ℕ
  cursor : Option CursorText

structure DiscoveryPage where
  offers : List PotentialOffer
  nextCursor : Option CursorText
  deriving DecidableEq

/-- The demand of a query, where the viewer may see that exact revision of it. -/
def demanded (index : DiscoveryIndex) (ref : RevisionReference) (viewer : Option Uuid) (now : ℤ) :
    Option (DiscoveryPublication × DiscoveryTerms) := do
  let d ← index.heads.get? ref.entity
  let terms ← visible d viewer now
  if d.revision = ref ∧ d.kind.isDemand = true then pure (d, terms) else none

/-- The digests of a query and of the canonical text of a view. -/
class DiscoveryDigest where
  query : RevisionReference → Option Uuid → Digest
  view : List PotentialOffer → Digest

/-- Where a page starts: at the first offer, or after the one that the cursor names. -/
def pageStart [DiscoveryDigest] (q : DiscoveryQuery) (offers : List PotentialOffer) : Indexed ℕ :=
  match q.cursor with
  | none => pure 0
  | some .unreadable => throw (restart "cursor invalid; restart query")
  | some (.read cursor) => do
    demand (restart "cursor invalid; restart query")
      (cursor.queryDigest = DiscoveryDigest.query q.demand q.viewerOrganization ∧
        cursor.visibleDigest = DiscoveryDigest.view offers ∧
        ∃ o ∈ offers, o.entity = cursor.after)
    pure (offers.findIdx (fun o => o.entity = cursor.after) + 1)

def pageOf [DiscoveryDigest] (q : DiscoveryQuery) (offers : List PotentialOffer) (start : ℕ) :
    DiscoveryPage :=
  let page := (offers.drop start).take q.limit
  { offers := page
    nextCursor :=
      if start + page.length < offers.length then
        page.getLast?.map fun last => .read
          { queryDigest := DiscoveryDigest.query q.demand q.viewerOrganization
            visibleDigest := DiscoveryDigest.view offers
            after := last.entity }
      else none }

/-- A page of the view. The index may change from `index` to `later` while digests are computed;
the answer is a page of what was there before and still is. -/
def findPotentialOffers [DiscoveryDigest] (config : DiscoveryConfiguration)
    (index later : DiscoveryIndex) (q : DiscoveryQuery) : Indexed DiscoveryPage := do
  demand (invalid "invalid page request") (1 ≤ q.limit ∧ q.limit ≤ 50)
  let (d, terms) ← require (.discovery "demand unavailable" .unavailable)
    (demanded index q.demand q.viewerOrganization q.now)
  let offers := offersFor config index d terms q.viewerOrganization q.now
  demand (restart "authorized view changed; restart query")
    (later.heads.get? q.demand.entity = some d ∧
      offersFor config later d terms q.viewerOrganization q.now = offers)
  let start ← pageStart q offers
  pure (pageOf q offers start)

end DirectTrade.Foundation.Discovery
