import DirectTrade.Foundation.Datatypes

/-!
Replayable views of authorized changes. The host keeps an immutable snapshot and the events
since, and answers pages of both; a consumer stages the snapshot pages and applies the events
once each. The host's inputs are authorized projections, and both states are stored with
compare-and-set.
-/

namespace DirectTrade.Foundation.Changes

open Library Outcome

inductive ChangesCode where
  | invalidChanges
  | conflict
  | sourceGap
  | capacity
  deriving DecidableEq

inductive Refusal where
  | changes (message : String) (code : ChangesCode)
  | invalidUrl
  deriving DecidableEq

abbrev Changed (α : Type) := Except Refusal α

def invalid (message : String) : Refusal := .changes message .invalidChanges

/-- What a URL parser reads of a URL. -/
structure Url where
  origin : String
  protocol : String
  deriving DecidableEq

/-- The URL parser of the platform. -/
class UrlParser where
  parse : String → Option Url

structure ViewBinding where
  viewId : Uuid
  subject : EntityReference
  audience : String
  organizationId : Uuid
  authorityId : Uuid
  authorityEpoch : Uuid
  policyEpoch : Uuid
  deriving DecidableEq

structure ChangeItem where
  revision : RevisionReference
  profileDigest : Digest
  body : Json
  deriving DecidableEq

structure ChangeEvent where
  eventId : Uuid
  checkpoint : Uuid
  entity : EntityReference
  previous : Option RevisionReference
  value : Option ChangeItem
  acceptedAt : ℤ
  deriving DecidableEq

structure DeliveredChange extends ChangeEvent where
  previousCheckpoint : Uuid
  deriving DecidableEq

structure ChangeBatch where
  expectedVersion : ℕ
  fromSourceCheckpoint : Uuid
  toSourceCheckpoint : Uuid
  events : List ChangeEvent
  asOf : ℤ
  deriving DecidableEq

structure ViewInput where
  binding : ViewBinding
  snapshot : List ChangeItem
  sourceCheckpoint : Uuid
  initialCheckpoint : Uuid
  snapshotTokens : List Uuid
  asOf : ℤ
  expiresAt : ℤ
  deriving DecidableEq

/-- An event that was taken, under its identity, with its canonical form: the event itself. -/
structure Seen (α : Type) where
  eventId : Uuid
  checkpoint : Uuid
  canonical : α
  deriving DecidableEq

structure ChangeView extends ViewInput where
  version : ℕ
  snapshotAsOf : ℤ
  current : List ChangeItem
  events : List DeliveredChange
  seen : List (Seen ChangeEvent)
  floorCheckpoint : Uuid
  latestCheckpoint : Uuid
  lastBatch : Option ChangeBatch
  deriving DecidableEq

/-- A page, or the uniform answer that a new snapshot is needed. -/
inductive Answer (α : Type) where
  | page (page : α)
  | resnapshotRequired
  deriving DecidableEq

structure SnapshotPage where
  binding : ViewBinding
  cursor : Option Uuid
  next : Option Uuid
  baseCheckpoint : Uuid
  items : List ChangeItem
  snapshotAsOf : ℤ
  currentAsOf : ℤ
  complete : Bool
  deriving DecidableEq

structure ChangesPage where
  binding : ViewBinding
  start : Uuid
  stop : Uuid
  events : List DeliveredChange
  currentAsOf : ℤ
  complete : Bool
  deriving DecidableEq

inductive Mode where
  | snapshot
  | live
  | invalidated
  deriving DecidableEq

inductive Completeness where
  | complete
  | part
  deriving DecidableEq

structure ConsumerState where
  binding : ViewBinding
  mode : Mode
  items : List ChangeItem
  checkpoint : Option Uuid
  nextSnapshot : Option Uuid
  baseCheckpoint : Uuid
  asOf : ℤ
  currentAsOf : ℤ
  completeness : Completeness
  snapshotReceipts : List SnapshotPage
  seen : List (Seen DeliveredChange)
  deriving DecidableEq

def pageSize : ℕ := 64

def ChangeItem.json (v : ChangeItem) : Json :=
  .obj [("revision", v.revision.json), ("profile_digest", digestJson v.profileDigest),
    ("body", v.body)]

def integer (v : ℕ) (max : ℤ) : Changed Unit :=
  demand (invalid "bounded integer required") ((v : ℤ) ≤ max)

def item (v : ChangeItem) (company : Uuid) : Changed Unit := do
  demand (invalid "item company scope mismatch")
    ((v.revision.entity.kind = .record ∨ v.revision.entity.kind = .resource) ∧
      v.revision.entity.organizationId = some company)
  demand (.changes "change item byte limit" .capacity) (v.json.bytes ≤ 16384)

def entityOf (v : ChangeItem) : EntityReference := v.revision.entity

def items (values : List ChangeItem) (company : Uuid) : Changed Unit := do
  demand (.changes "view item capacity" .capacity) (values.length ≤ 1024)
  each (item · company) values
  demand (invalid "duplicate snapshot entity") (values.map entityOf).Nodup

def event (v : ChangeEvent) (company : Uuid) : Changed Unit := do
  demand (invalid "event company scope mismatch")
    ((v.entity.kind = .record ∨ v.entity.kind = .resource) ∧ v.entity.organizationId = some company)
  demand (invalid "event predecessor entity mismatch") (∀ p ∈ v.previous, p.entity = v.entity)
  each (item · company) v.value.toList
  demand (invalid "event value entity mismatch") (∀ x ∈ v.value, entityOf x = v.entity)
  demand (invalid "empty change not permitted") (v.previous ≠ none ∨ v.value ≠ none)
  demand (invalid "new revision identity required")
    (∀ p ∈ v.previous, ∀ x ∈ v.value, p.revisionId ≠ x.revision.revisionId)

/-- An event on the items: it replaces, adds or removes the item of its entity. An event that
removes has a predecessor, so the item is there. -/
def apply (l : List ChangeItem) (e : ChangeEvent) : Changed (List ChangeItem) := do
  let index := l.findIdx fun v => entityOf v = e.entity
  demand (.changes "change predecessor conflict" .conflict)
    ((l[index]?).map ChangeItem.revision = e.previous)
  let out := match e.value with
    | none => l.eraseIdx index
    | some v => if index < l.length then l.set index v else l ++ [v]
  demand (.changes "view item capacity" .capacity) (out.length ≤ 1024)
  pure out

section
variable [UrlParser]

def binding (v : ViewBinding) : Changed Unit := do
  demand (invalid "person or service viewer required")
    (v.subject.kind = .person ∨ v.subject.kind = .service)
  demand (invalid "exact audience required") (textLength v.audience ≤ 2048)
  let url ← require .invalidUrl (UrlParser.parse v.audience)
  demand (invalid "exact audience origin required")
    (url.origin = v.audience ∧ url.protocol ∈ ["http:", "https:"])

/-- Whether a caller's current binding is the view's, within its lifetime. -/
def access (state : ChangeView) (current : ViewBinding) (now : ℤ) : Changed Bool := do
  binding current
  pure (decide (state.binding = current ∧ state.asOf ≤ now ∧ now < state.expiresAt))

/-- The snapshot and its source checkpoint come from one transaction of the host. -/
def createChangeView (v : ViewInput) : Changed ChangeView := do
  binding v.binding
  items v.snapshot v.binding.organizationId
  demand (invalid "view lifetime must be at most 24 hours")
    (v.asOf < v.expiresAt ∧ v.expiresAt - v.asOf ≤ 86400000)
  demand (invalid "one opaque token per continuation page required")
    (v.snapshotTokens.length = (v.snapshot.length + (pageSize - 1)) / pageSize - 1)
  demand (invalid "checkpoint namespaces must be distinct")
    ((v.initialCheckpoint :: v.snapshotTokens).Nodup ∧
      v.sourceCheckpoint ∉ v.initialCheckpoint :: v.snapshotTokens)
  pure { v with
    version := 0, snapshotAsOf := v.asOf, current := v.snapshot, events := [], seen := []
    floorCheckpoint := v.initialCheckpoint, latestCheckpoint := v.initialCheckpoint
    lastBatch := none }

end

/-- Whether a checkpoint names nothing of the view yet. -/
def ChangeView.unused (state : ChangeView) (checkpoint : Uuid) : Prop :=
  checkpoint ≠ state.initialCheckpoint ∧ checkpoint ∉ state.snapshotTokens ∧
    ∀ s ∈ state.seen, s.checkpoint ≠ checkpoint

instance (state : ChangeView) (checkpoint : Uuid) : Decidable (state.unused checkpoint) :=
  inferInstanceAs (Decidable (_ ∧ _ ∧ _))

/-- One event of a batch, unless it was taken before. -/
def appendEvent (batch : ChangeBatch) (state : ChangeView) (e : ChangeEvent) :
    Changed ChangeView :=
  match state.seen.find? fun s => s.eventId = e.eventId with
  | some s => do
    demand (.changes "conflicting stable change identity" .conflict) (s.canonical = e)
    pure state
  | none => do
    demand (invalid "event outside accepted source interval")
      (state.asOf ≤ e.acceptedAt ∧ e.acceptedAt ≤ batch.asOf)
    demand (.changes "checkpoint reuse" .conflict) (state.unused e.checkpoint)
    demand (invalid "source checkpoint must remain private")
      (e.checkpoint ≠ batch.fromSourceCheckpoint ∧ e.checkpoint ≠ batch.toSourceCheckpoint)
    let current ← apply state.current e
    demand (.changes "view dedup capacity; start new snapshot" .capacity)
      (state.seen.length + 1 ≤ 4096)
    pure { state with
      current
      events := state.events ++ [{ e with previousCheckpoint := state.latestCheckpoint }]
      latestCheckpoint := e.checkpoint
      seen := state.seen ++ [⟨e.eventId, e.checkpoint, e⟩] }

/-- Source inputs are authorized projections. A batch that is sent again changes nothing. -/
def appendChangeBatch (state : ChangeView) (batch : ChangeBatch) : Changed ChangeView := do
  integer batch.expectedVersion maxSafeInteger
  demand (invalid "bounded source batch required") (batch.events.length ≤ pageSize)
  each (event · state.binding.organizationId) batch.events
  if state.lastBatch = some batch then pure state
  else do
    demand (.changes "view version conflict" .conflict) (batch.expectedVersion = state.version)
    demand (.changes "source continuity gap" .sourceGap)
      (batch.fromSourceCheckpoint = state.sourceCheckpoint ∧
        batch.toSourceCheckpoint ≠ batch.fromSourceCheckpoint)
    demand (invalid "source checkpoint must remain private")
      (state.unused batch.toSourceCheckpoint)
    demand (invalid "source watermark outside view lifetime")
      (state.asOf ≤ batch.asOf ∧ batch.asOf < state.expiresAt)
    let appended ← batch.events.foldlM (appendEvent batch) state
    demand (.changes "retained change capacity; prune with explicit gap behavior" .capacity)
      (appended.events.length ≤ 256)
    integer (appended.version + 1) maxSafeInteger
    pure { appended with
      sourceCheckpoint := batch.toSourceCheckpoint, asOf := batch.asOf, lastBatch := some batch
      version := appended.version + 1 }

/-- Retention removes events from delivery, and none from the identities ever taken. -/
def retainChanges (state : ChangeView) (expectedVersion keep : ℕ) : Changed ChangeView := do
  integer keep 256
  demand (.changes "view version conflict" .conflict) (state.version = expectedVersion)
  let removed := state.events.take (state.events.length - keep)
  integer (state.version + 1) maxSafeInteger
  pure { state with
    events := state.events.drop (state.events.length - keep)
    floorCheckpoint := ((removed.getLast?).map fun e => e.checkpoint).getD state.floorCheckpoint
    version := state.version + 1
    lastBatch := none }

section
variable [UrlParser]

/-- The number of the page that a cursor starts. -/
def ChangeView.pageNumber (state : ChangeView) : Option Uuid → Option ℕ
  | none => some 0
  | some cursor =>
    if cursor ∈ state.snapshotTokens then some (state.snapshotTokens.idxOf cursor + 1) else none

def ChangeView.snapshotPage (state : ChangeView) (cursor : Option Uuid) (page : ℕ) :
    SnapshotPage :=
  let next := state.snapshotTokens[page]?
  { binding := state.binding, cursor, next, baseCheckpoint := state.initialCheckpoint
    items := (state.snapshot.drop (page * pageSize)).take pageSize
    snapshotAsOf := state.snapshotAsOf, currentAsOf := state.asOf, complete := next.isNone }

def snapshotPage (state : ChangeView) (current : ViewBinding) (cursor : Option Uuid) (now : ℤ) :
    Changed (Answer SnapshotPage) := do
  let allowed ← access state current now
  if !allowed || state.floorCheckpoint ≠ state.initialCheckpoint then pure .resnapshotRequired
  else
    match state.pageNumber cursor with
    | none => pure .resnapshotRequired
    | some page => pure (.page (state.snapshotPage cursor page))

/-- The number of retained events up to a checkpoint. -/
def ChangeView.position (state : ChangeView) (checkpoint : Uuid) : Option ℕ :=
  if checkpoint = state.floorCheckpoint then some 0
  else
    let index := state.events.findIdx fun e => e.checkpoint = checkpoint
    if index < state.events.length then some (index + 1) else none

def ChangeView.changesPage (state : ChangeView) (checkpoint : Uuid) (position limit : ℕ) :
    ChangesPage :=
  let events := (state.events.drop position).take limit
  let stop := ((events.getLast?).map fun e => e.checkpoint).getD checkpoint
  { binding := state.binding, start := checkpoint, stop, events, currentAsOf := state.asOf
    complete := decide (stop = state.latestCheckpoint) }

def pullChanges (state : ChangeView) (current : ViewBinding) (checkpoint : Uuid) (limit : ℕ)
    (now : ℤ) : Changed (Answer ChangesPage) := do
  integer limit pageSize
  demand (invalid "positive page size required") (0 < limit)
  let allowed ← access state current now
  if !allowed then pure .resnapshotRequired
  else
    match state.position checkpoint with
    | none => pure .resnapshotRequired
    | some position => pure (.page (state.changesPage checkpoint position limit))

/-- A consumer before its first page. -/
def SnapshotPage.begin (page : SnapshotPage) : ConsumerState :=
  { binding := page.binding, mode := .snapshot, items := [], checkpoint := none
    nextSnapshot := none, baseCheckpoint := page.baseCheckpoint, asOf := page.snapshotAsOf
    currentAsOf := page.currentAsOf, completeness := .part, snapshotReceipts := [], seen := [] }

def checkSnapshotPage (page : SnapshotPage) : Changed Unit := do
  binding page.binding
  demand (invalid "invalid snapshot metadata")
    (page.snapshotAsOf ≤ page.currentAsOf ∧ (page.complete = true ↔ page.next = none))
  items page.items page.binding.organizationId
  demand (invalid "snapshot page size") (page.items.length ≤ pageSize)
  demand (invalid "nonfinal snapshot page must be full")
    (page.complete = true ∨ page.items.length = pageSize)
  demand (invalid "snapshot and catch-up tokens must differ")
    (page.cursor ≠ some page.baseCheckpoint ∧ page.next ≠ some page.baseCheckpoint)

/-- A page that was staged before tells at most how fresh the host is. -/
def ConsumerState.refresh (state : ConsumerState) (currentAsOf : ℤ) : ConsumerState :=
  if state.currentAsOf < currentAsOf then
    { state with
      currentAsOf
      completeness := if state.asOf < currentAsOf then .part else state.completeness }
  else state

/-- The next page of the snapshot. -/
def ConsumerState.stage (state : ConsumerState) (page : SnapshotPage) : ConsumerState :=
  { state with
    items := state.items ++ page.items
    snapshotReceipts := state.snapshotReceipts ++ [page]
    nextSnapshot := page.next
    currentAsOf := max state.currentAsOf page.currentAsOf
    mode := if page.complete then .live else state.mode
    checkpoint := if page.complete then some page.baseCheckpoint else state.checkpoint
    completeness := if page.complete then .part else state.completeness }

def consumeSnapshotPage (input : Option ConsumerState) (page : SnapshotPage) :
    Changed ConsumerState := do
  checkSnapshotPage page
  let state := input.getD page.begin
  demand (.changes "snapshot context conflict" .conflict)
    (state.binding = page.binding ∧ state.baseCheckpoint = page.baseCheckpoint ∧
      ((state.snapshotReceipts.head?).map SnapshotPage.snapshotAsOf).getD state.asOf =
        page.snapshotAsOf)
  match state.snapshotReceipts.find? fun p => p.cursor = page.cursor with
  | some prior => do
    demand (.changes "conflicting snapshot retry" .conflict)
      ({ prior with currentAsOf := page.currentAsOf } = page)
    pure (state.refresh page.currentAsOf)
  | none => do
    demand (.changes "snapshot delivery gap" .sourceGap)
      (state.mode = .snapshot ∧ state.nextSnapshot = page.cursor)
    demand (invalid "snapshot cursor cycle") (page.next = none ∨
      (page.next ≠ page.cursor ∧ ∀ p ∈ state.snapshotReceipts, p.cursor ≠ page.next))
    let staged := state.stage page
    items staged.items staged.binding.organizationId
    demand (.changes "snapshot page capacity" .capacity) (staged.snapshotReceipts.length ≤ 16)
    pure staged

/-- A delivered event after its predecessor: applied in its turn, or recognized. -/
def consumeEvent (currentAsOf : ℤ) (reached : ConsumerState × Uuid) (d : DeliveredChange) :
    Changed (ConsumerState × Uuid) := do
  let state := reached.1
  event d.toChangeEvent state.binding.organizationId
  demand (.changes "delivery predecessor gap" .sourceGap)
    (d.previousCheckpoint = reached.2 ∧ d.acceptedAt ≤ currentAsOf)
  match state.seen.find? fun s => s.eventId = d.eventId with
  | some s => do
    demand (.changes "conflicting delivered event" .conflict) (s.canonical = d)
    pure (state, d.checkpoint)
  | none => do
    demand (.changes "duplicate checkpoint" .conflict)
      ((∀ s ∈ state.seen, s.checkpoint ≠ d.checkpoint) ∧ d.checkpoint ≠ state.baseCheckpoint)
    demand (.changes "out-of-order change delivery" .sourceGap)
      (state.checkpoint = some d.previousCheckpoint)
    let items ← apply state.items d.toChangeEvent
    demand (.changes "consumer dedup capacity; resnapshot" .capacity)
      (state.seen.length + 1 ≤ 4096)
    pure ({ state with
      items, checkpoint := some d.checkpoint
      seen := state.seen ++ [⟨d.eventId, d.checkpoint, d⟩] }, d.checkpoint)

/-- What a page says of the freshness of the items. -/
def ConsumerState.conclude (state : ConsumerState) (page : ChangesPage) : ConsumerState :=
  if state.currentAsOf ≤ page.currentAsOf then
    if page.complete = true ∧ state.checkpoint = some page.stop then
      { state with
        currentAsOf := page.currentAsOf, completeness := .complete, asOf := page.currentAsOf }
    else { state with currentAsOf := page.currentAsOf, completeness := .part }
  else state

/-- The host has nothing that follows: the projection is given up. -/
def ConsumerState.invalidate (state : ConsumerState) : ConsumerState :=
  { state with
    mode := .invalidated, items := [], checkpoint := none, nextSnapshot := none
    completeness := .part, seen := [], snapshotReceipts := [] }

def consumeChangePage (state : ConsumerState) (incoming : Answer ChangesPage) :
    Changed ConsumerState :=
  match incoming with
  | .resnapshotRequired => pure state.invalidate
  | .page page => do
    binding page.binding
    demand (.changes "consumer context conflict" .conflict)
      (state.mode = .live ∧ state.binding = page.binding)
    demand (invalid "bounded changes page required") (page.events.length ≤ pageSize)
    demand (.changes "consumer checkpoint gap" .sourceGap)
      (page.start = state.baseCheckpoint ∨ state.checkpoint = some page.start ∨
        ∃ s ∈ state.seen, s.checkpoint = page.start)
    let (caught, predecessor) ← page.events.foldlM (consumeEvent page.currentAsOf)
      (state, page.start)
    demand (invalid "page checkpoint mismatch") (predecessor = page.stop)
    pure (caught.conclude page)

end

end DirectTrade.Foundation.Changes
