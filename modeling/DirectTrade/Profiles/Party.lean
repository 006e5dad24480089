import DirectTrade.Profiles.Fields

/-!
Parties: the rules of a body, and what a revision must keep of the one before it. Who a party
claims to be in the protocol, once claimed, is neither changed nor withdrawn.
-/

namespace DirectTrade.Profiles

open DirectTrade.Flow (indexed)
open Library Outcome

def partyRoles : List String :=
  ["customer", "supplier", "carrier", "financer", "service_provider", "manufacturer", "broker",
    "other"]

mutual

/-- `String(value)`: an object that shadows `toString` has no text. -/
def stringOf : Json → Attempt String
  | .null => pure "null"
  | .bool value => pure (toString value)
  | .num value => pure (toString value)
  | .str value => pure value
  | .arr items => do
    let parts ← joinedParts items
    pure (",".intercalate parts)
  | .obj members =>
    if members.any (·.1 = "toString") then .error .fault else pure "[object Object]"

/-- What `join` makes of the elements: `null` is the empty text. -/
def joinedParts : List Json → Attempt (List String)
  | [] => pure []
  | .null :: rest => do
    let parts ← joinedParts rest
    pure ("" :: parts)
  | v :: rest => do
    let part ← stringOf v
    let parts ← joinedParts rest
    pure (part :: parts)

end

/-- The claimed organization is tested as a text, whatever it is. -/
def isProtocolIdentity (v : Option Json) : Attempt Bool :=
  if v = some .null then pure true
  else if exact v ["organization_id"] = false then pure false
  else
    match v.bind (·.member? "organization_id") with
    | none => pure false
    | some id => do
      let s ← stringOf id
      pure (isUuidText s)

/-- Distinct roles of the closed set. -/
def areRoles (v : Option Json) : Bool :=
  isArrayOf 0 8 v && (elements v).Nodup && (elements v).all fun r => oneOf partyRoles (some r)

def checkAddress (a : Option Json) (path : String) : List Issue :=
  let field := fun name => a.bind (·.member? name)
  if exact a ["lines", "locality", "region", "postal_code", "country"] then
    issueUnless (isArrayOf 0 4 (field "lines") &&
        (elements (field "lines")).all fun line => isText 200 (some line))
      (path ++ ".lines") "up to four bounded lines required" ++
    issueUnless (isText 120 (field "locality")) (path ++ ".locality") "locality required" ++
    issueUnless (orNull (isText 120) (field "region")) (path ++ ".region")
      "bounded region or null required" ++
    issueUnless (orNull (isText 32) (field "postal_code")) (path ++ ".postal_code")
      "bounded postal code or null required" ++
    issueUnless (textOf (isCode 2) (field "country")) (path ++ ".country")
      "ISO 3166-1 alpha-2 country required"
  else [⟨path, "exact address fields required"⟩]

def checkLocation (seen : List Json) (i : ℕ) (l : Json) : List Issue × List Json :=
  let path := indexed "$.locations" i
  if exact l ["location_id", "name", "address", "gln"] then
    (issueUnless (isText 120 (l.member? "location_id")) (path ++ ".location_id")
        "bounded location id required" ++
      issueUnless (!seen.contains (canonical (l.member? "location_id"))) path
        "duplicate location id" ++
      issueUnless (orNull (isText 200) (l.member? "name")) (path ++ ".name")
        "bounded name or null required" ++
      checkAddress (l.member? "address") (path ++ ".address") ++
      issueUnless (orNull isGln (l.member? "gln")) (path ++ ".gln") "GLN or null required",
      seen ++ [canonical (l.member? "location_id")])
  else ([⟨path, "exact location fields required"⟩], seen)

def checkParent (b : Json) : List Issue :=
  issueUnless (uuidOrNull (b.member? "parent")) "$.parent" "parent party root or null required" ++
  issueUnless (b.member? "kind" ≠ some (.str "unit") || b.member? "parent" ≠ some .null) "$.parent"
    "a unit names its parent party" ++
  issueUnless (b.member? "kind" = some (.str "unit") || b.member? "parent" = some .null) "$.parent"
    "only a unit has a parent"

def validateParty (b : Json) : Attempt (List Issue) :=
  if exact b ["kind", "names", "identifiers", "protocol_identity", "roles", "locations", "parent",
      "status"] then do
    let identity ← isProtocolIdentity (b.member? "protocol_identity")
    pure (issueUnless (oneOf ["organization", "person", "unit"] (b.member? "kind")) "$.kind"
        "organization, person or unit required" ++
      checkNames b ++
      checkIdentifiers (b.member? "identifiers") "$.identifiers" 32 "at most 32 identifiers"
        "namespaced identifier scheme required" (fun _ path v =>
          schemeRule "gs1.gln" isGln "GLN check digit or length invalid" path v ++
          schemeRule "duns" isDuns "nine-digit DUNS required" path v) ++
      issueUnless identity "$.protocol_identity" "organization id or null required" ++
      issueUnless (areRoles (b.member? "roles")) "$.roles"
        "distinct roles from the closed set required" ++
      (if isArrayOf 0 32 (b.member? "locations") then
        forEach checkLocation [] 0 (elements (b.member? "locations"))
      else [⟨"$.locations", "at most 32 locations"⟩]) ++
      checkParent b ++
      issueUnless (oneOf ["active", "inactive"] (b.member? "status")) "$.status"
        "active or inactive required")
  else pure [⟨"$", "exact party fields required"⟩]

def checkPartyContinuity (previous next : Json) : List Issue :=
  issueUnless (previous.member? "kind" = next.member? "kind") "$.kind"
    "kind is immutable; a different kind of party is a new party" ++
  issueUnless (previous.member? "protocol_identity" = some .null ||
      sameMember previous next "protocol_identity") "$.protocol_identity"
    ("a protocol identity claim, once made, cannot be changed or withdrawn; " ++
      "a different identity is a new party") ++
  issueUnless (previous.member? "parent" = next.member? "parent") "$.parent"
    "the parent party is immutable"

/-- What a later revision keeps of a party. -/
structure KeepsParty (previous next : Json) : Prop where
  kind : next.member? "kind" = previous.member? "kind"
  parent : next.member? "parent" = previous.member? "parent"
  identity : canonical (previous.member? "protocol_identity") ≠ .null →
    canonical (next.member? "protocol_identity") = canonical (previous.member? "protocol_identity")

theorem keepsParty_of_continuity {previous next : Json}
    (h : checkPartyContinuity previous next = []) : KeepsParty previous next := by
  simp only [checkPartyContinuity, List.append_eq_nil_iff, issueUnless_eq_nil, sameMember,
    decide_eq_true_eq, Bool.or_eq_true] at h
  obtain ⟨⟨hkind, hidentity⟩, hparent⟩ := h
  refine ⟨hkind.symm, hparent.symm, ?_⟩
  intro hclaimed
  rcases hidentity with hnull | hsame
  · rw [hnull] at hclaimed
    exact absurd rfl hclaimed
  · exact hsame.symm

theorem KeepsParty.trans {a b c : Json} (h : KeepsParty a b) (h' : KeepsParty b c) :
    KeepsParty a c where
  kind := h'.kind.trans h.kind
  parent := h'.parent.trans h.parent
  identity hclaimed :=
    have hfirst := h.identity hclaimed
    (h'.identity (hfirst ▸ hclaimed)).trans hfirst

/-- A party from its first revision on. -/
def PartyHistory (revisions : List Json) : Prop := revisions.Pairwise KeepsParty

theorem partyHistory {revisions : List Json}
    (linked : revisions.IsChain fun a b => checkPartyContinuity a b = []) :
    PartyHistory revisions := by
  have : Trans KeepsParty KeepsParty KeepsParty := ⟨KeepsParty.trans⟩
  exact List.isChain_iff_pairwise.mp (linked.imp fun _ _ h => keepsParty_of_continuity h)

end DirectTrade.Profiles
