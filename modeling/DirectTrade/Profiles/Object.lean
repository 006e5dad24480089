import DirectTrade.Profiles.Fields

/-!
Objects: the rules of a body, and what a revision must keep of the one before it. A retired
object changes only by being found, active and under its label, with new evidence.
-/

namespace DirectTrade.Profiles

open DirectTrade.Flow (indexed)
open Library Outcome
open Foundation (isLower isDigitChar)

def validateObjectRef (ref : Json) (path : String) : List Issue :=
  if exact ref ["minted_by", "root", "record_id"] then
    issueUnless (uuidOrNull (ref.member? "minted_by")) (path ++ ".minted_by")
        "organization id or null required" ++
      issueUnless (textOf isUuidText (ref.member? "root")) (path ++ ".root")
        "object root required" ++
      issueUnless (uuidOrNull (ref.member? "record_id")) (path ++ ".record_id")
        "exact revision id or null required"
  else [⟨path, "minted_by, root and record_id required"⟩]

/-- References are distinct: the same reference twice in one list says nothing more. -/
def checkListedRef (path : String) (seen : List Json) (i : ℕ) (ref : Json) :
    List Issue × List Json :=
  let own := validateObjectRef ref (indexed path i)
  if own = [] then
    (issueUnless (!seen.contains ref) (indexed path i) "duplicate reference", seen ++ [ref])
  else (own, seen)

def validateRefList (list : Option Json) (path : String) (max : ℕ) : List Issue :=
  if isArrayOf 0 max list then forEach (checkListedRef path) [] 0 (elements list)
  else [⟨path, "at most " ++ toString max ++ " references"⟩]

/-- A reference to the writer's own object leaves `minted_by` null. -/
def checkRefOwner (ref : Json) (path : String) (organizationId : Uuid) : List Issue :=
  issueUnless (!decide (ref.names "minted_by" organizationId)) (path ++ ".minted_by")
    "a reference to the writer's own object leaves minted_by null"

/-- `/^(dtp|<uuid>)\/[a-z][a-z0-9._-]{0,79}$/` -/
def isClassName (s : String) : Bool :=
  match splitOn '/' s.toList with
  | [space, name] => (space = "dtp".toList || isUuidText (String.ofList space)) &&
      name.head?.any isLower && name.length ≤ 80 &&
      name.all fun c => isLower c || isDigitChar c || c = '.' || c = '_' || c = '-'
  | _ => false

def objectClasses : List String :=
  ["dtp/account", "dtp/document", "dtp/equipment", "dtp/handling-unit", "dtp/instrument",
    "dtp/location", "dtp/position", "dtp/vehicle"]

def checkClass (v : Option Json) : List Issue :=
  match v with
  | some (.str name) =>
    if isClassName name then
      issueUnless (!"dtp/".toList.isPrefixOf name.toList || objectClasses.contains name) "$.class"
        "not a protocol class; see spec/profiles/classes.json"
    else [⟨"$.class", "<namespace>/<name> class required"⟩]
  | _ => [⟨"$.class", "<namespace>/<name> class required"⟩]

def retireReasons : List String := ["scrapped", "lost", "consumed", "ended", "other"]

def checkRetirement (retired : Option Json) : List Issue :=
  let field := fun name => retired.bind (·.member? name)
  if exact retired ["reason", "note"] then
    issueUnless (oneOf retireReasons (field "reason")) "$.retired.reason"
        "scrapped, lost, consumed, ended or other required" ++
      (if orNull (isText 500) (field "note") then
        issueUnless (field "reason" ≠ some (.str "other") || field "note" ≠ some .null)
          "$.retired.note" "reason other needs a note"
      else [⟨"$.retired.note", "bounded note or null required"⟩])
  else [⟨"$.retired", "a retired object states its reason"⟩]

def checkObjectStatus (b : Json) : List Issue :=
  if b.member? "status" = some (.str "active") then
    issueUnless (b.member? "retired" = some .null) "$.retired"
      "an active object carries no retirement"
  else if b.member? "status" = some (.str "retired") then checkRetirement (b.member? "retired")
  else [⟨"$.status", "active or retired required"⟩]

def validateObject (b : Json) : List Issue :=
  if exact b ["class", "label", "identifiers", "status", "retired", "evidence"] then
    checkClass (b.member? "class") ++
    issueUnless (orNull (isText 200) (b.member? "label")) "$.label"
      "bounded label or null required" ++
    checkIdentifiers (b.member? "identifiers") "$.identifiers" 16 "at most 16 identifiers"
      "namespaced identifier scheme required" (fun _ path v =>
        schemeRule "gs1.sscc" isSscc "SSCC check digit or length invalid" path v ++
        schemeRule "gs1.gtin" isGtin "GTIN check digit or length invalid" path v ++
        schemeRule "gs1.gln" isGln "GLN check digit or length invalid" path v) ++
    checkObjectStatus b ++
    validateRefList (b.member? "evidence") "$.evidence" 16
  else [⟨"$", "exact object fields required"⟩]

/-- An array none of whose elements is `null`. -/
def evidenceItems (b : Json) : Attempt (List Json) := do
  let items ← access ((b.member? "evidence").bind Json.array?)
  if items.contains .null then .error .fault else pure items

def checkObjectOwner (b : Json) (organizationId : Uuid) : Attempt (List Issue) := do
  let evidence ← evidenceItems b
  pure (evidence.zipIdx.flatMap fun (r, i) =>
    checkRefOwner r (indexed "$.evidence" i) organizationId)

def checkObjectGenesis (b : Json) : List Issue :=
  issueUnless (b.member? "status" = some (.str "active")) "$.status"
    "an object enters the ledger active; retire it by a revision"

/-- A retired object is found: active again, under its label, with evidence not cited before. -/
def checkFound (previous next : Json) : Attempt (List Issue) :=
  if previous.member? "status" ≠ some (.str "retired") then pure []
  else if next.member? "status" ≠ some (.str "active") then
    pure [⟨"$.status", "a retired object changes only by being found active again"⟩]
  else do
    let before ← access ((previous.member? "evidence").bind Json.array?)
    let after ← access ((next.member? "evidence").bind Json.array?)
    pure (issueUnless (next.member? "label" = previous.member? "label") "$.label"
        "finding an object does not rename it" ++
      issueUnless (after.any fun r => !before.contains r) "$.evidence"
        "finding a retired object cites new evidence of it")

def checkObjectContinuity (previous next : Json) : Attempt (List Issue) := do
  let kept ← identifierKeys (next.member? "identifiers")
  let held ← identifierKeys (previous.member? "identifiers")
  let found ← checkFound previous next
  pure (issueUnless (previous.member? "class" = next.member? "class") "$.class"
      "class is immutable; a different class is a different object" ++
    issueUnless (held.all kept.contains) "$.identifiers"
      "identifiers may be added, never removed" ++ found)

/-- What a later revision keeps of an object. -/
structure KeepsObject (previous next : Json) : Prop where
  sort : next.member? "class" = previous.member? "class"
  identifiers : ∀ e ∈ identifiers (previous.member? "identifiers"),
    e ∈ identifiers (next.member? "identifiers")

/-- The next revision of a retired object is active and has its label. -/
def Finds (previous next : Json) : Prop :=
  previous.member? "status" = some (.str "retired") →
    next.member? "status" = some (.str "active") ∧
      next.member? "label" = previous.member? "label"

theorem finds_of_found {previous next : Json} (h : checkFound previous next = .ok []) :
    Finds previous next := by
  intro hretired
  unfold checkFound at h
  rw [if_neg (not_not.mpr hretired)] at h
  split at h
  next => exact absurd (Except.ok.inj h) (List.cons_ne_nil _ _)
  next hactive =>
    simp only [bind_eq_ok, pure_eq_ok, List.append_eq_nil_iff, issueUnless_eq_nil,
      decide_eq_true_eq] at h
    obtain ⟨before, -, after, -, hlabel, -⟩ := h
    exact ⟨not_not.mp hactive, hlabel⟩

theorem objectContinuity {previous next : Json}
    (h : checkObjectContinuity previous next = .ok []) :
    Finds previous next ∧ KeepsObject previous next := by
  simp only [checkObjectContinuity, bind_eq_ok, pure_eq_ok, List.append_eq_nil_iff,
    issueUnless_eq_nil, decide_eq_true_eq, List.all_eq_true] at h
  obtain ⟨kept, hkept, held, hheld, found, hfound, ⟨hclass, hidentifiers⟩, hnone⟩ := h
  rw [hnone] at hfound
  refine ⟨finds_of_found hfound, ⟨hclass.symm, ?_⟩⟩
  intro e he
  rw [← identifierKeys_eq_ok hheld] at he
  rw [← identifierKeys_eq_ok hkept]
  simpa using hidentifiers e he

theorem KeepsObject.trans {a b c : Json} (h : KeepsObject a b) (h' : KeepsObject b c) :
    KeepsObject a c where
  sort := h'.sort.trans h.sort
  identifiers e he := h'.identifiers e (h.identifiers e he)

/-- An object from its first revision on. -/
structure ObjectHistory (revisions : List Json) : Prop where
  born : ∀ first, revisions.head? = some first → first.member? "status" = some (.str "active")
  found : revisions.IsChain Finds
  keeps : revisions.Pairwise KeepsObject

theorem objectHistory {revisions : List Json}
    (born : ∀ first, revisions.head? = some first → checkObjectGenesis first = [])
    (linked : revisions.IsChain fun a b => checkObjectContinuity a b = .ok []) :
    ObjectHistory revisions := by
  have : Trans KeepsObject KeepsObject KeepsObject := ⟨KeepsObject.trans⟩
  refine ⟨?_, linked.imp fun _ _ h => (objectContinuity h).1,
    List.isChain_iff_pairwise.mp (linked.imp fun _ _ h => (objectContinuity h).2)⟩
  intro first hfirst
  have hactive := born first hfirst
  rw [checkObjectGenesis, issueUnless_eq_nil, decide_eq_true_eq] at hactive
  exact hactive

end DirectTrade.Profiles
