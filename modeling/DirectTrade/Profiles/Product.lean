import DirectTrade.Profiles.Fields

/-!
Products: the rules of a body, and what a revision must keep of the one before it. A packaging
version that was published stays published, with the conversion it was published with.
-/

namespace DirectTrade.Profiles

open DirectTrade.Flow (isUcum indexed)
open Library Outcome

def checkSku (seen : List (Json × Json)) (path : String) (v : Json) : List Issue :=
  issueUnless (v.member? "scheme" ≠ some (.str "sku") || !seen.any (·.1 = .str "sku")) path
    "at most one sku: the company's own"

/-- What a packaging version is known by. -/
def packagingKey (p : Json) : Json × Json :=
  (canonical (p.member? "packaging_id"), canonical (p.member? "version"))

/-- What a packaging version says: its name, its conversion and its trade number. -/
def conversion (p : Json) : Json × Json × Json :=
  (canonical (p.member? "name"), canonical (p.member? "base_units_per_pack"),
    canonical (p.member? "gtin"))

def checkPackaging (seen : List (Json × Json)) (i : ℕ) (p : Json) :
    List Issue × List (Json × Json) :=
  let path := indexed "$.packaging" i
  if exact p ["packaging_id", "version", "name", "base_units_per_pack", "gtin"] then
    (issueUnless (isText 80 (p.member? "packaging_id") && isText 40 (p.member? "version") &&
        isText 120 (p.member? "name")) path "bounded packaging id, version and name required" ++
      issueUnless (!seen.contains (packagingKey p)) path "duplicate packaging version" ++
      (match amount 3 (p.member? "base_units_per_pack") with
        | none => [⟨path ++ ".base_units_per_pack", "three-place decimal required"⟩]
        | some n => issueUnless (0 < n) (path ++ ".base_units_per_pack")
          "positive pack conversion required") ++
      issueUnless (orNull isGtin (p.member? "gtin")) (path ++ ".gtin") "GTIN or null required",
      seen ++ [packagingKey p])
  else ([⟨path, "exact packaging fields required"⟩], seen)

def checkPackagings (b : Json) : List Issue :=
  if isArrayOf 0 32 (b.member? "packaging") then
    forEach checkPackaging [] 0 (elements (b.member? "packaging"))
  else [⟨"$.packaging", "at most 32 packaging revisions"⟩]

def validateProduct (b : Json) : List Issue :=
  if exact b ["names", "description", "brand", "category", "identifiers", "base_unit", "packaging",
      "tracking", "shelf_life_days", "replaces", "status"] then
    checkNames b ++
    [("description", 4000), ("brand", 200), ("category", 200)].flatMap (fun (name, max) =>
      issueUnless (orNull (isText max) (b.member? name)) ("$." ++ name)
        "bounded nonempty text or null required") ++
    checkIdentifiers (b.member? "identifiers") "$.identifiers" 32 "at most 32 identifiers"
      "namespaced identifier scheme required" (fun seen path v =>
        schemeRule "gs1.gtin" isGtin "GTIN check digit or length invalid" path v ++
        checkSku seen path v) ++
    issueUnless (exact (b.member? "base_unit") ["system", "code"] &&
        (b.member? "base_unit").any fun u => u.member? "system" = some (.str "ucum") &&
          textOf isUcum (u.member? "code"))
      "$.base_unit" "UCUM base unit required" ++
    checkPackagings b ++
    issueUnless (oneOf ["none", "lot", "serial"] (b.member? "tracking")) "$.tracking"
      "none, lot or serial required" ++
    issueUnless (orNull (isIntegerIn 1 36500) (b.member? "shelf_life_days")) "$.shelf_life_days"
      "positive day count or null required" ++
    issueUnless (uuidOrNull (b.member? "replaces")) "$.replaces"
      "replaced product root or null required" ++
    issueUnless (oneOf ["active", "discontinued"] (b.member? "status")) "$.status"
      "active or discontinued required"
  else [⟨"$", "exact product fields required"⟩]

def packagings (b : Json) : List Json := elements (b.member? "packaging")

/-- The packaging that a map from keys to packagings has under a key, the last one written. -/
def published (packaging : List Json) (key : Json × Json) : Option Json :=
  packaging.reverse.find? (packagingKey · = key)

def checkPublished (later : List Json) (i : ℕ) (p : Json) : List Issue :=
  match published later (packagingKey p) with
  | none => [⟨indexed "$.packaging" i, "a published packaging version cannot be removed"⟩]
  | some same => issueUnless (conversion same = conversion p) (indexed "$.packaging" i)
      "a published packaging version is immutable; publish a new version"

/-- The elements of a list of packagings, none of which may be `null`. -/
def packagingItems (b : Json) : Attempt (List Json) := do
  let items ← access ((b.member? "packaging").bind Json.array?)
  if items.contains .null then .error .fault else pure items

def checkProductContinuity (previous next : Json) : Attempt (List Issue) := do
  let later ← packagingItems next
  let earlier ← packagingItems previous
  pure (issueUnless (sameMember previous next "base_unit") "$.base_unit"
      "base unit is immutable; a change is a new product" ++
    issueUnless (previous.member? "tracking" = next.member? "tracking") "$.tracking"
      "tracking is immutable; a change is a new product" ++
    issueUnless (previous.member? "replaces" = next.member? "replaces") "$.replaces"
      "the replaced product is immutable" ++
    forEach (fun _ i p => (checkPublished later i p, ())) () 0 earlier)

theorem packagingItems_eq_ok {b : Json} {items : List Json} (h : packagingItems b = .ok items) :
    items = packagings b := by
  simp only [packagingItems, bind_eq_ok, access_eq_ok] at h
  obtain ⟨found, hfound, hitems⟩ := h
  split at hitems
  · cases hitems
  · have hequal : found = items := Except.ok.inj hitems
    rw [packagings, elements, hfound, ← hequal]
    rfl

/-- A body without issues publishes every packaging version once. -/
theorem packagings_nodup {b : Json} (h : validateProduct b = []) :
    ((packagings b).map packagingKey).Nodup := by
  have hnew : ∀ (items : List Json) (seen : List (Json × Json)) (i : ℕ), seen.Nodup →
      forEach checkPackaging seen i items = [] → (seen ++ items.map packagingKey).Nodup := by
    intro items
    induction items with
    | nil =>
      intro seen i hseen _
      simpa using hseen
    | cons p rest ih =>
      intro seen i hseen hissues
      rw [forEach, List.append_eq_nil_iff] at hissues
      obtain ⟨hhere, hrest⟩ := hissues
      unfold checkPackaging at hhere hrest
      dsimp only at hhere hrest
      split at hhere
      next hexact =>
        simp only [List.append_eq_nil_iff, issueUnless_eq_nil, Bool.not_eq_true',
          List.contains_eq_mem, decide_eq_false_iff_not] at hhere
        rw [if_pos hexact] at hrest
        have hfresh : packagingKey p ∉ seen := hhere.1.1.2
        have hgrown : (seen ++ [packagingKey p]).Nodup :=
          hseen.append (List.nodup_singleton _) (by simpa using hfresh)
        have hall := ih (seen ++ [packagingKey p]) (i + 1) hgrown hrest
        rwa [List.append_assoc, List.singleton_append, ← List.map_cons] at hall
      next => exact absurd hhere (List.cons_ne_nil _ _)
  unfold validateProduct at h
  split at h
  next =>
    simp only [List.append_eq_nil_iff] at h
    have hpackaging : checkPackagings b = [] := h.1.1.1.1.2
    unfold checkPackagings at hpackaging
    split at hpackaging
    next => simpa using hnew (packagings b) [] 0 List.nodup_nil hpackaging
    next => exact absurd hpackaging (List.cons_ne_nil _ _)
  next => exact absurd h (List.cons_ne_nil _ _)

/-- What a later revision keeps of a product. -/
structure KeepsProduct (previous next : Json) : Prop where
  baseUnit : canonical (next.member? "base_unit") = canonical (previous.member? "base_unit")
  tracking : next.member? "tracking" = previous.member? "tracking"
  replaces : next.member? "replaces" = previous.member? "replaces"
  published : ∀ p ∈ packagings previous, ∃ q ∈ packagings next,
    packagingKey q = packagingKey p ∧ conversion q = conversion p

theorem keepsProduct_of_continuity {previous next : Json}
    (h : checkProductContinuity previous next = .ok []) : KeepsProduct previous next := by
  simp only [checkProductContinuity, bind_eq_ok, pure_eq_ok, List.append_eq_nil_iff,
    issueUnless_eq_nil, sameMember, decide_eq_true_eq] at h
  obtain ⟨later, hlater, earlier, hearlier, ⟨⟨hunit, htracking⟩, hreplaces⟩, hpublished⟩ := h
  refine ⟨hunit.symm, htracking.symm, hreplaces.symm, ?_⟩
  rw [← packagingItems_eq_ok hlater, ← packagingItems_eq_ok hearlier]
  intro p hp
  obtain ⟨i, hhere⟩ := forEach_eq_nil hpublished p hp
  unfold checkPublished at hhere
  split at hhere
  next => exact absurd hhere (List.cons_ne_nil _ _)
  next q hq =>
    rw [issueUnless_eq_nil, decide_eq_true_eq] at hhere
    have hkey : packagingKey q = packagingKey p := by simpa using List.find?_some hq
    exact ⟨q, List.mem_reverse.mp (List.mem_of_find?_eq_some hq), hkey, hhere⟩

theorem KeepsProduct.trans {a b c : Json} (h : KeepsProduct a b) (h' : KeepsProduct b c) :
    KeepsProduct a c where
  baseUnit := h'.baseUnit.trans h.baseUnit
  tracking := h'.tracking.trans h.tracking
  replaces := h'.replaces.trans h.replaces
  published p hp := by
    obtain ⟨q, hq, hkey, hconversion⟩ := h.published p hp
    obtain ⟨r, hr, hkey', hconversion'⟩ := h'.published q hq
    exact ⟨r, hr, hkey'.trans hkey, hconversion'.trans hconversion⟩

/-- A product from its first revision on: what stays as it was, and that every packaging version
published in a revision has the same conversion wherever a later one has it. -/
structure ProductHistory (revisions : List Json) : Prop where
  keeps : revisions.Pairwise KeepsProduct
  unchanged : revisions.Pairwise fun a b => ∀ p ∈ packagings a, ∀ q ∈ packagings b,
    packagingKey q = packagingKey p → conversion q = conversion p

theorem productHistory {revisions : List Json}
    (valid : ∀ b ∈ revisions, validateProduct b = [])
    (linked : revisions.IsChain fun a b => checkProductContinuity a b = .ok []) :
    ProductHistory revisions := by
  have : Trans KeepsProduct KeepsProduct KeepsProduct := ⟨KeepsProduct.trans⟩
  have hkeeps : revisions.Pairwise KeepsProduct :=
    List.isChain_iff_pairwise.mp (linked.imp fun _ _ h => keepsProduct_of_continuity h)
  refine ⟨hkeeps, ?_⟩
  apply hkeeps.imp_of_mem
  intro a b _ hb hab p hp q hq hkey
  -- the packaging that was kept is the only one with this key
  obtain ⟨q', hq', hkey', hconversion⟩ := hab.published p hp
  have hsame : q = q' :=
    List.inj_on_of_nodup_map (packagings_nodup (valid b hb)) hq hq' (hkey.trans hkey'.symm)
  rw [hsame]
  exact hconversion

end DirectTrade.Profiles
