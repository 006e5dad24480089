import DirectTrade.Federation

/-!
The snapshot of one company. Every listed collection is enumerated as the source
enumerates it; the sorted ones are independent of the order of the host's tables.
-/

namespace DirectTrade

open Library

/-- Adds an element to a set that enumerates in insertion order. -/
def addNew {α : Type} [DecidableEq α] (set : List α) (a : α) : List α :=
  if a ∈ set then set else set ++ [a]

/-- The elements of a list in the order of their first occurrences. -/
def distinct {α : Type} [DecidableEq α] (l : List α) : List α := l.foldl addNew []

/-- Renumbers records `start, start + 1, …` in list order. -/
def renumber (start : ℕ) : List BusinessRecord → List BusinessRecord
  | [] => []
  | r :: rest => { r with seq := start } :: renumber (start + 1) rest

/-- Walks a growing set of profile digests and adds the dependencies of each member.
There are never more members than admitted profiles, so `fuel` does not run out. -/
def closeProfiles (s : State) : (fuel index : ℕ) → (ids : List Digest) → Attempt (List Digest)
  | 0, _, _ => .error .fault
  | fuel + 1, index, ids =>
    match ids[index]? with
    | none => .ok ids
    | some d => do
      let p ← require (s.profiles.get? d) "invalid_snapshot" "required profile is missing" 403
      closeProfiles s fuel (index + 1) (p.dependencies.foldl addNew ids)

/-- The people that a payload lists as controllers. -/
def Mutation.controllers : Mutation → List Uuid
  | .organizationCreate _ _ controllers _ => controllers
  | .organizationPolicy controllers _ => controllers
  | _ => []

/-- The people that a payload lists as stewards. -/
def Mutation.stewards : Mutation → List Uuid
  | .policyCreate p | .policyUpdate p => p.stewards
  | _ => []

/-- The people a kept command names. -/
def commandPeople (c : StoredCommand) : List Uuid :=
  (if c.actor.kind = .person then [c.actor.id] else []) ++ c.requestedBy.toList ++
    c.payload.controllers ++ c.payload.stewards

def Inventory.flow (company : Inventory) : Option FlowIndex := company.index.bind (·.flow)

/-- The signed openings of a company's stock that its snapshot carries people for. -/
def openingCommands (inventory : Option Inventory) : List StoredCommand :=
  (inventory.elim [] fun company => company.creations.values) ++
    ((inventory.bind Inventory.flow).elim [] fun flow => flow.bookOpenings.values) ++
    ((inventory.bind Inventory.flow).elim [] fun flow => flow.ledgerOpenings.values)

def snapshotReleases (s : State) (organizationId : Uuid) (organization : Organization) :
    Attempt (List Release) :=
  (sortedSet (organization.installations.values.map (·.releaseDigest) ++
    (s.releases.values.filter (·.publisherId = organizationId)).map (·.digest))).mapM fun d =>
      require (s.releases.get? d) "invalid_snapshot" "installed release is missing" 403

/-- A company's records in sequence order, renumbered from one. -/
def snapshotRecords (s : State) (organizationId : Uuid) : List BusinessRecord :=
  renumber 1 ((s.records.values.filter (·.organizationId = organizationId)).insertionSort
    (·.seq ≤ ·.seq))

def snapshotPeople (organization : Organization) (policies : List Policy)
    (commands : List StoredCommand) : List Uuid :=
  sortedSet (organization.controllers ++ organization.members.keys ++
    organization.invitations.values.map (·.personId) ++
    policies.flatMap (fun p => p.stewards ++ p.grants.map (·.personId)) ++
    organization.installations.values.map (·.sponsorId) ++ commands.flatMap commandPeople)

def buildSnapshot (s : State) (organizationId : Uuid) (ctx : Context) : Attempt Snapshot := do
  let organization ← require (s.organizations.get? organizationId)
    "not_found" "company unavailable" 404
  let policies := s.policies.values.filter (·.organizationId = organizationId)
  let records := snapshotRecords s organizationId
  let releases ← snapshotReleases s organizationId organization
  let profileIds ← closeProfiles s (s.profiles.entries.length + 1) 0
    (distinct (records.map (·.profileDigest) ++ releases.flatMap (·.profiles) ++
      (s.profiles.values.filter (·.publisherId = .organization organizationId)).map (·.digest)))
  let profiles ← (profileIds.insertionSort (· ≤ ·)).mapM fun d => access (s.profiles.get? d)
  let inventory := s.inventory.get? organizationId
  let commands := organization.history ++ policies.flatMap (·.history) ++
    records.map (·.command) ++ profiles.map (·.command) ++ releases.map (·.command) ++
    openingCommands inventory
  let persons ← (snapshotPeople organization policies commands).mapM fun id =>
    require (s.persons.get? id) "invalid_snapshot" "required personal history is missing" 403
  let counterparties := distinct (records.flatMap (·.counterpartyIds))
  pure
    { source := ctx.audience
      organization := organization
      persons := persons
      policies := policies
      profiles := profiles
      releases := releases
      records := records
      remoteAuthorities := counterparties.filterMap fun id =>
        (s.remoteAuthorities.get? id).map (·.token)
      inventory := match inventory with
        | none => ∅
        | some company => (∅ : Table Uuid Inventory).insert organizationId company }

end DirectTrade
