import DirectTrade.Store.Tables

/-!
Who may read a record, decided twice: by a check on the record, and by a condition that the
database applies before it counts or cuts off. The two agree on every record whose namespace is
that of its type.
-/

namespace DirectTrade.Store

/-- A text that is there and not empty. -/
def named (text : Option String) : Option String := text.filter (· ≠ "")

/-- `write` implies `read`. -/
def scopeCovers (scope : Scope) (type access : String) : Bool :=
  (scope.access == "write" || scope.access == access) &&
    match named scope.type with
    | some t => t == type
    | none =>
      match named scope.nameSpace with
      | some n => n == "*" || n == namespaceOf type
      | none => false

def isGrantLive (grant : GrantRow) (now : ℤ) : Bool :=
  grant.status == .active && grant.expiresAt.all (now < ·)

def grantCovers (grant : GrantRow) (type access : String) (now : ℤ) : Bool :=
  isGrantLive grant now && grant.scopes.any (scopeCovers · type access)

/-- Whether one of the grants is a live one from the company that covers the access. -/
def hasGrant (grants : List GrantRow) (companyId type access : String) (now : ℤ) : Bool :=
  grants.any fun g => g.grantorCompanyId == companyId && grantCovers g type access now

/-- What the check reads of a record, and the column that only the condition reads. -/
structure VisibilityInput where
  visibility : Visibility
  subjectCompanyId : String
  counterpartyIds : List String
  type : String
  nameSpace : String
  body : Json
  deriving DecidableEq

def RecordRow.visibilityInput (r : RecordRow) : VisibilityInput :=
  ⟨r.visibility, r.subjectCompanyId, r.counterpartyIds, r.type, r.nameSpace, r.body⟩

/-- The routing fields of an event with the body of its record. -/
def EventRow.visibilityInput (e : EventRow) (body : Json) : VisibilityInput :=
  ⟨e.visibility, e.subjectCompanyId, e.counterpartyIds, e.type, e.nameSpace, body⟩

/-- Public records are for anyone; counterparties see those meant for them; a module sees what a
party has granted it to read, and the grants that name it. -/
def canRead (row : VisibilityInput) (principal : Option Principal) (grants : List GrantRow)
    (now : ℤ) : Bool :=
  if row.visibility = .publicly then true
  else
    match principal with
    | none => false
    | some p =>
      match p.kind with
      | .company =>
        row.subjectCompanyId == p.id ||
          (row.visibility == .counterparties && row.counterpartyIds.contains p.id)
      | .module =>
        if row.type = "core.grant" ∧ row.body.member? "module_id" = some (.str p.id) then true
        else if row.visibility = .privately then false
        else
          let grantors := row.subjectCompanyId ::
            if row.visibility = .counterparties then row.counterpartyIds else []
          grantors.any fun c => hasGrant grants c row.type "read" now

/-- A value bound to a placeholder. -/
inductive Param where
  | text (text : String)
  | number (n : ℕ)
  deriving DecidableEq

/-- Conditions on a row; a number is that of a placeholder, from one on. -/
inductive Clause where
  | always
  | never
  | visibilityIs (v : Visibility)
  | visibilityIsNot (v : Visibility)
  | typeIsText (type : String)
  | subjectIs (p : ℕ)
  | counterparty (p : ℕ)
  | typeIs (p : ℕ)
  | nameSpaceIs (p : ℕ)
  | bodyModuleIs (p : ℕ)
  | and (a b : Clause)
  | or (a b : Clause)
  deriving DecidableEq

def Clause.any (clauses : List Clause) : Clause := clauses.foldr .or .never

/-- The text bound to a placeholder. -/
def bound (params : List Param) (p : ℕ) : Option String :=
  match params[p - 1]? with
  | some (.text s) => some s
  | _ => none

/-- The text in which the database gives a JSON value that is neither null nor a string. -/
class Rendering where
  rendered : Json → String

section
variable [Rendering]

/-- The text of a member of a JSON value, as the database extracts it. -/
def extracted (body : Json) (name : String) : Option String :=
  match body.member? name with
  | none | some .null => none
  | some (.str s) => some s
  | some value => some (Rendering.rendered value)

def Clause.holds (row : VisibilityInput) (params : List Param) : Clause → Bool
  | always => true
  | never => false
  | visibilityIs v => row.visibility == v
  | visibilityIsNot v => row.visibility != v
  | typeIsText t => row.type == t
  | subjectIs p => bound params p == some row.subjectCompanyId
  | counterparty p => (bound params p).any row.counterpartyIds.contains
  | typeIs p => bound params p == some row.type
  | nameSpaceIs p => bound params p == some row.nameSpace
  | bodyModuleIs p => (bound params p).any fun s => extracted row.body "module_id" == some s
  | and a b => a.holds row params && b.holds row params
  | or a b => a.holds row params || b.holds row params

end

/-- The condition of one scope that gives a reading access, after the parameters bound before. -/
def scopeClause (start : ℕ) (params : List Param) (s : Scope) : List Param × Clause :=
  match named s.type with
  | some t => (params ++ [.text t], .typeIs (start + params.length))
  | none =>
    match named s.nameSpace with
    | some n =>
      if n = "*" then (params, .always)
      else (params ++ [.text n], .nameSpaceIs (start + params.length))
    | none => (params, .never)

def scopeClauses (start : ℕ) : List Param → List Scope → List Param × List Clause
  | params, [] => (params, [])
  | params, s :: rest =>
    let first := scopeClause start params s
    let others := scopeClauses start first.1 rest
    (others.1, first.2 :: others.2)

def Scope.readable (s : Scope) : Bool := s.access == "read" || s.access == "write"

/-- The conditions of the grants that are live and give a reading access. -/
def grantClauses (start : ℕ) (now : ℤ) : List Param → List GrantRow → List Param × List Clause
  | params, [] => (params, [])
  | params, g :: rest =>
    if !isGrantLive g now then grantClauses start now params rest
    else
      let scopes := scopeClauses start params (g.scopes.filter Scope.readable)
      if scopes.2.isEmpty then grantClauses start now params rest
      else
        let company := start + scopes.1.length
        let others := grantClauses start now (scopes.1 ++ [.text g.grantorCompanyId]) rest
        (others.1, .and (.visibilityIsNot .privately) (.and (.any scopes.2) (.or
          (.subjectIs company)
          (.and (.visibilityIs .counterparties) (.counterparty company)))) :: others.2)

/-- The condition with its parameters, the first of which has the number `start`. -/
def readPrefilter (principal : Option Principal) (grants : List GrantRow) (start : ℕ) (now : ℤ) :
    Clause × List Param :=
  match principal with
  | none => (.visibilityIs .publicly, [])
  | some p =>
    match p.kind with
    | .company =>
      (.or (.visibilityIs .publicly) (.or (.subjectIs start)
        (.and (.visibilityIs .counterparties) (.counterparty start))), [.text p.id])
    | .module =>
      let granted := grantClauses start now [.text p.id] grants
      (.any (.visibilityIs .publicly ::
        .and (.typeIsText "core.grant") (.bodyModuleIs start) :: granted.2), granted.1)

theorem bound_middle (before more : List Param) (s : String) :
    bound (before ++ .text s :: more) (before.length + 1) = some s := by
  unfold bound
  rw [Nat.add_sub_cancel, List.getElem?_append_right (Nat.le_refl _), Nat.sub_self,
    List.getElem?_cons_zero]

theorem scopeCovers_read (s : Scope) (type : String) :
    scopeCovers s type "read" = (s.readable && scopeCovers s type "read") := by
  unfold scopeCovers Scope.readable
  rw [Bool.or_comm (s.access == "read"), ← Bool.and_assoc, Bool.and_self]

theorem any_readable (scopes : List Scope) (type : String) :
    (scopes.filter Scope.readable).any (scopeCovers · type "read") =
      scopes.any (scopeCovers · type "read") := by
  rw [List.any_filter]
  congr 1
  funext s
  exact (scopeCovers_read s type).symm

/-- What a grant selects for the module that holds it. -/
def grantSelects (row : VisibilityInput) (now : ℤ) (g : GrantRow) : Bool :=
  isGrantLive g now && (row.visibility != .privately &&
    (g.scopes.any (scopeCovers · row.type "read") && (row.subjectCompanyId == g.grantorCompanyId ||
      (row.visibility == .counterparties && row.counterpartyIds.contains g.grantorCompanyId))))

/-- A module reads what a grant to it selects. -/
theorem canRead_module (row : VisibilityInput) (p : Principal) (hp : p.kind = .module)
    (grants : List GrantRow) (now : ℤ) : canRead row (some p) grants now =
      (row.visibility == .publicly || (row.type == "core.grant" &&
        row.body.member? "module_id" == some (.str p.id) ||
        grants.any (grantSelects row now))) := by
  unfold canRead
  by_cases hpublic : row.visibility = .publicly
  · simp [hpublic]
  simp only [if_neg hpublic, hp, beq_eq_false_iff_ne.mpr hpublic, Bool.false_or]
  by_cases hnamed : row.type = "core.grant" ∧ row.body.member? "module_id" = some (.str p.id)
  · simp [hnamed]
  rw [if_neg hnamed]
  have hunnamed : (row.type == "core.grant" &&
      row.body.member? "module_id" == some (.str p.id)) = false := by
    rw [Bool.eq_false_iff]
    intro h
    rw [Bool.and_eq_true, beq_iff_eq, beq_iff_eq] at h
    exact hnamed h
  rw [hunnamed, Bool.false_or]
  by_cases hprivate : row.visibility = .privately
  · simp [hprivate, grantSelects]
  rw [if_neg hprivate, Bool.eq_iff_iff, List.any_eq_true, List.any_eq_true]
  constructor
  · rintro ⟨c, hc, hgrant⟩
    obtain ⟨g, hg, hcovers⟩ := List.any_eq_true.mp hgrant
    rw [Bool.and_eq_true, beq_iff_eq] at hcovers
    obtain ⟨rfl, hcovers⟩ := hcovers
    refine ⟨g, hg, ?_⟩
    have hparty : row.subjectCompanyId = g.grantorCompanyId ∨
        (row.visibility = .counterparties ∧ g.grantorCompanyId ∈ row.counterpartyIds) := by
      cases List.mem_cons.mp hc with
      | inl h => exact .inl h.symm
      | inr h =>
        by_cases hcounter : row.visibility = .counterparties
        · rw [if_pos hcounter] at h
          exact .inr ⟨hcounter, h⟩
        · rw [if_neg hcounter] at h
          exact nomatch h
    unfold grantCovers at hcovers
    rw [Bool.and_eq_true] at hcovers
    simp [grantSelects, hprivate, hcovers.1, hcovers.2, hparty]
  · rintro ⟨g, hg, hselects⟩
    simp only [grantSelects, Bool.and_eq_true, Bool.or_eq_true, beq_iff_eq,
      List.contains_iff_mem] at hselects
    obtain ⟨hlive, -, hscopes, hparty⟩ := hselects
    refine ⟨g.grantorCompanyId, ?_, ?_⟩
    · cases hparty with
      | inl h => exact List.mem_cons.mpr (.inl h.symm)
      | inr h =>
        rw [if_pos h.1]
        exact List.mem_cons_of_mem _ h.2
    · apply List.any_eq_true.mpr
      refine ⟨g, hg, ?_⟩
      unfold grantCovers
      rw [hlive, hscopes, beq_self_eq_true]
      rfl

theorem scopeClauses_isEmpty (start : ℕ) (params : List Param) (scopes : List Scope) :
    (scopeClauses start params scopes).2.isEmpty = scopes.isEmpty := by
  cases scopes with
  | nil => rfl
  | cons s rest => rfl

section
variable [Rendering]

theorem Clause.holds_any (clauses : List Clause) (row : VisibilityInput) (params : List Param) :
    (Clause.any clauses).holds row params = clauses.any (·.holds row params) := by
  induction clauses with
  | nil => rfl
  | cons c rest ih =>
    rw [List.any_cons, ← ih]
    rfl

/-- A placeholder of the condition stands for the parameter bound with it, whatever is bound
after it. -/
theorem scopeClause_holds {row : VisibilityInput} (hns : row.nameSpace = namespaceOf row.type)
    (before params : List Param) {s : Scope} (hs : s.readable = true) :
    ∃ tail, (scopeClause (before.length + 1) params s).1 = params ++ tail ∧
      ∀ more, (scopeClause (before.length + 1) params s).2.holds row
        (before ++ (params ++ tail) ++ more) = scopeCovers s row.type "read" := by
  have hlength : before.length + 1 + params.length = (before ++ params).length + 1 := by
    rw [List.length_append]
    omega
  have hbound : ∀ t more, bound (before ++ (params ++ [.text t]) ++ more)
      (before.length + 1 + params.length) = some t := by
    intro t more
    have hsplit : before ++ (params ++ [.text t]) ++ more =
        (before ++ params) ++ .text t :: more := by simp
    rw [hsplit, hlength]
    exact bound_middle ..
  have haccess : (s.access == "write" || s.access == "read") = true := by
    rw [Bool.or_comm]
    exact hs
  unfold scopeCovers scopeClause
  rw [haccess, Bool.true_and]
  cases ht : named s.type with
  | some t =>
    refine ⟨[.text t], rfl, ?_⟩
    intro more
    show (bound _ _ == some row.type) = _
    rw [hbound, Option.some_beq_some]
  | none =>
    cases hn : named s.nameSpace with
    | none => exact ⟨[], (List.append_nil _).symm, fun _ => rfl⟩
    | some n =>
      by_cases hstar : n = "*"
      · refine ⟨[], by simp [hstar], ?_⟩
        intro more
        simp [hstar, Clause.holds]
      · refine ⟨[.text n], by simp [hstar], ?_⟩
        intro more
        simp only [if_neg hstar]
        show (bound _ _ == some row.nameSpace) = _
        rw [hbound, Option.some_beq_some, hns, beq_eq_false_iff_ne.mpr hstar, Bool.false_or]

theorem scopeClauses_holds {row : VisibilityInput} (hns : row.nameSpace = namespaceOf row.type)
    (before : List Param) {scopes : List Scope} (hscopes : ∀ s ∈ scopes, s.readable = true)
    (params : List Param) :
    ∃ tail, (scopeClauses (before.length + 1) params scopes).1 = params ++ tail ∧
      ∀ more, (scopeClauses (before.length + 1) params scopes).2.any
        (·.holds row (before ++ (params ++ tail) ++ more)) =
          scopes.any (scopeCovers · row.type "read") := by
  induction scopes generalizing params with
  | nil => exact ⟨[], (List.append_nil _).symm, fun _ => rfl⟩
  | cons s rest ih =>
    obtain ⟨first, hfirst, hholds⟩ :=
      scopeClause_holds hns before params (hscopes s (List.mem_cons_self ..))
    obtain ⟨later, hlater, hrest⟩ := ih (fun s hs => hscopes s (List.mem_cons_of_mem _ hs))
      (params ++ first)
    refine ⟨first ++ later, ?_, ?_⟩
    · rw [scopeClauses, hfirst, hlater, List.append_assoc]
    · intro more
      rw [scopeClauses, hfirst, List.any_cons, List.any_cons, ← hrest more,
        ← hholds (later ++ more)]
      simp only [List.append_assoc]

theorem grantClauses_holds {row : VisibilityInput} (hns : row.nameSpace = namespaceOf row.type)
    (before : List Param) (now : ℤ) (grants : List GrantRow) (params : List Param) :
    ∃ tail, (grantClauses (before.length + 1) now params grants).1 = params ++ tail ∧
      ∀ more, (grantClauses (before.length + 1) now params grants).2.any
        (·.holds row (before ++ (params ++ tail) ++ more)) = grants.any (grantSelects row now) := by
  induction grants generalizing params with
  | nil => exact ⟨[], (List.append_nil _).symm, fun _ => rfl⟩
  | cons g rest ih =>
    rw [grantClauses]
    simp only [List.any_cons]
    by_cases hlive : isGrantLive g now = true
    swap
    · -- a grant that is not live binds nothing
      have hdead : grantSelects row now g = false := by
        unfold grantSelects
        rw [Bool.eq_false_iff.mpr hlive, Bool.false_and]
      simp only [Bool.eq_false_iff.mpr hlive, Bool.not_false, if_true, hdead, Bool.false_or]
      exact ih params
    simp only [hlive, Bool.not_true, Bool.false_eq_true, if_false, scopeClauses_isEmpty]
    by_cases hempty : (g.scopes.filter Scope.readable).isEmpty = true
    · have hnone : grantSelects row now g = false := by
        unfold grantSelects
        rw [← any_readable, List.isEmpty_iff.mp hempty]
        simp
      simp only [hempty, if_true, hnone, Bool.false_or]
      exact ih params
    simp only [hempty, Bool.false_eq_true, if_false, List.any_cons]
    obtain ⟨inner, hinner, hholds⟩ := scopeClauses_holds hns before
      (fun s hs => (List.mem_filter.mp hs).2 : ∀ s ∈ g.scopes.filter Scope.readable, _) params
    rw [hinner]
    obtain ⟨later, hlater, hrest⟩ := ih (params ++ inner ++ [.text g.grantorCompanyId])
    refine ⟨inner ++ .text g.grantorCompanyId :: later, ?_, ?_⟩
    · rw [hlater]
      simp
    · intro more
      have hparams : before ++ (params ++ (inner ++ .text g.grantorCompanyId :: later)) ++ more =
          before ++ (params ++ inner ++ [.text g.grantorCompanyId] ++ later) ++ more := by simp
      rw [hparams, hrest more]
      congr 1
      have hcompany : bound (before ++ (params ++ inner ++ [.text g.grantorCompanyId] ++ later) ++
          more) (before.length + 1 + (params ++ inner).length) = some g.grantorCompanyId := by
        have hsplit : before ++ (params ++ inner ++ [.text g.grantorCompanyId] ++ later) ++ more =
            (before ++ (params ++ inner)) ++ .text g.grantorCompanyId :: (later ++ more) := by simp
        have hlength : before.length + 1 + (params ++ inner).length =
            (before ++ (params ++ inner)).length + 1 := by
          simp only [List.length_append]
          omega
        rw [hsplit, hlength]
        exact bound_middle ..
      have hscopes := hholds (.text g.grantorCompanyId :: (later ++ more))
      have hscopesParams : before ++ (params ++ inner) ++ .text g.grantorCompanyId ::
          (later ++ more) =
          before ++ (params ++ inner ++ [.text g.grantorCompanyId] ++ later) ++ more := by simp
      rw [hscopesParams, any_readable] at hscopes
      simp only [Clause.holds, Clause.holds_any, hscopes, hcompany]
      unfold grantSelects
      rw [hlive, Bool.true_and, Option.some_beq_some, Option.any_some, BEq.comm]

/-- Where a record's namespace is that of its type, and a grant names its module by a string if at
all, the condition selects it for a caller if and only if the check allows it. -/
theorem readPrefilter_holds {row : VisibilityInput} (hns : row.nameSpace = namespaceOf row.type)
    (hmodule : row.type = "core.grant" →
      ∀ value, row.body.member? "module_id" = some value → ∃ s, value = .str s)
    (principal : Option Principal) (grants : List GrantRow) (now : ℤ)
    (before more : List Param) :
    (readPrefilter principal grants (before.length + 1) now).1.holds row
      (before ++ (readPrefilter principal grants (before.length + 1) now).2 ++ more) =
        canRead row principal grants now := by
  cases principal with
  | none =>
    show (row.visibility == .publicly) = _
    unfold canRead
    by_cases hpublic : row.visibility = .publicly
    · simp [hpublic]
    · simp [hpublic]
  | some p =>
    have hself : ∀ tail, bound (before ++ (.text p.id :: tail) ++ more) (before.length + 1) =
        some p.id := by
      intro tail
      rw [List.append_assoc, List.cons_append]
      exact bound_middle ..
    cases hkind : p.kind with
    | company =>
      unfold readPrefilter canRead
      simp only [hkind, Clause.holds, hself, Option.some_beq_some, Option.any_some]
      rw [BEq.comm (a := p.id)]
      by_cases hpublic : row.visibility = .publicly
      · simp [hpublic]
      · simp [hpublic]
    | module =>
      rw [canRead_module row p hkind]
      unfold readPrefilter
      obtain ⟨tail, htail, hholds⟩ := grantClauses_holds hns before now grants [.text p.id]
      rw [List.singleton_append] at htail
      simp only [List.singleton_append] at hholds
      simp only [hkind, Clause.holds_any, List.any_cons, htail, hholds]
      congr 2
      simp only [Clause.holds, hself, Option.any_some]
      by_cases hgrant : row.type = "core.grant"
      · congr 1
        -- the database's text of a string is that string
        unfold extracted
        cases hbody : row.body.member? "module_id" with
        | none => rfl
        | some value =>
          obtain ⟨s, rfl⟩ := hmodule hgrant value hbody
          simp
      · rw [beq_eq_false_iff_ne.mpr hgrant, Bool.false_and, Bool.false_and]

end

end DirectTrade.Store
