import Mathlib.Data.List.Basic
import Mathlib.Data.List.Nodup
import Mathlib.Data.List.Pairwise

/-!
Pages of a list that is ordered by a key. Each page begins after the last key of the one before
it, so that going on until there is no next page meets every element once, even where what is
shown changes from page to page.
-/

namespace DirectTrade.Library.Paging

variable {α : Type} (key : α → ℕ)

/-- Whether a key comes after a cursor, if there is one. -/
def After (cursor : Option ℕ) (k : ℕ) : Prop := ∀ c, cursor = some c → c < k

instance (cursor : Option ℕ) (k : ℕ) : Decidable (After cursor k) :=
  match cursor with
  | none => isTrue nofun
  | some c => decidable_of_iff (c < k)
      ⟨fun h _ heq => Option.some.inj heq ▸ h, fun h => h c rfl⟩

theorem after_some {c k : ℕ} : After (some c) k ↔ c < k :=
  ⟨fun h => h c rfl, fun h _ heq => Option.some.inj heq ▸ h⟩

/-- What is shown after the cursor. -/
def remaining (l : List α) (shown : α → Bool) (cursor : Option ℕ) : List α :=
  l.filter fun a => decide (After cursor (key a)) && shown a

def page (limit : ℕ) (l : List α) (shown : α → Bool) (cursor : Option ℕ) : List α :=
  (remaining key l shown cursor).take limit

/-- The cursor of the next page, where more remains than one page. -/
def next (limit : ℕ) (l : List α) (shown : α → Bool) (cursor : Option ℕ) : Option ℕ :=
  if limit < (remaining key l shown cursor).length then
    (page key limit l shown cursor).getLast?.map key
  else none

/-- Page after page, each round showing what it shows. -/
def crawl (limit : ℕ) (l : List α) (shown : ℕ → α → Bool) : ℕ → ℕ → Option ℕ → List α
  | 0, _, _ => []
  | fuel + 1, round, cursor =>
    page key limit l (shown round) cursor ++
      match next key limit l (shown round) cursor with
      | none => []
      | some c => crawl limit l shown fuel (round + 1) (some c)

variable {key} {limit : ℕ} {l : List α} {shown : α → Bool} {cursor : Option ℕ}

theorem mem_remaining {a : α} : a ∈ remaining key l shown cursor ↔
    a ∈ l ∧ After cursor (key a) ∧ shown a = true := by
  unfold remaining
  rw [List.mem_filter, Bool.and_eq_true, decide_eq_true_eq]

theorem mem_of_mem_page {a : α} (h : a ∈ page key limit l shown cursor) :
    a ∈ l ∧ After cursor (key a) ∧ shown a = true := mem_remaining.mp (List.mem_of_mem_take h)

@[simp] theorem page_nil : page key limit [] shown cursor = [] := List.take_nil

@[simp] theorem next_nil : next key limit [] shown cursor = none := if_neg (Nat.not_lt_zero limit)

/-- A page cut out of what was read one element further. -/
theorem take_read : ((remaining key l shown cursor).take (limit + 1)).take limit =
    page key limit l shown cursor := by
  rw [List.take_take, Nat.min_eq_left (Nat.le_succ limit)]
  rfl

/-- The element read further tells whether more remains. -/
theorem next_of_read : (if limit < ((remaining key l shown cursor).take (limit + 1)).length then
    (page key limit l shown cursor).getLast?.map key else none) =
      next key limit l shown cursor := by
  unfold next
  congr 1
  rw [List.length_take, eq_iff_iff]
  omega

/-- Without a next page, nothing remains. -/
theorem mem_page_of_next_none (h : next key limit l shown cursor = none) (hlimit : 0 < limit)
    {a : α} (ha : a ∈ remaining key l shown cursor) : a ∈ page key limit l shown cursor := by
  unfold next at h
  by_cases hmore : limit < (remaining key l shown cursor).length
  · rw [if_pos hmore, Option.map_eq_none_iff, List.getLast?_eq_none_iff] at h
    have hlength := congrArg List.length h
    rw [page, List.length_take, List.length_nil] at hlength
    omega
  · unfold page
    rw [List.take_of_length_le (by omega)]
    exact ha

/-- The next cursor parts what was shown from what remains. -/
theorem next_spec (hl : l.Pairwise fun a b => key a < key b) {c : ℕ}
    (h : next key limit l shown cursor = some c) :
    (∃ a ∈ page key limit l shown cursor, key a = c) ∧
      (∀ a ∈ page key limit l shown cursor, key a ≤ c) ∧
      ∀ a ∈ remaining key l shown cursor, key a ≤ c → a ∈ page key limit l shown cursor := by
  unfold next at h
  by_cases hmore : limit < (remaining key l shown cursor).length
  swap
  · rw [if_neg hmore] at h
    exact nomatch h
  rw [if_pos hmore, Option.map_eq_some_iff] at h
  obtain ⟨z, hz, rfl⟩ := h
  obtain ⟨front, hfront⟩ := List.getLast?_eq_some_iff.mp hz
  have hsorted : (remaining key l shown cursor).Pairwise fun a b => key a < key b :=
    hl.sublist List.filter_sublist
  have hsplit : remaining key l shown cursor =
      page key limit l shown cursor ++ (remaining key l shown cursor).drop limit :=
    (List.take_append_drop ..).symm
  rw [hsplit, List.pairwise_append, hfront, List.pairwise_append] at hsorted
  obtain ⟨⟨-, -, hlast⟩, -, hrest⟩ := hsorted
  refine ⟨⟨z, List.mem_of_getLast? hz, rfl⟩, ?_, ?_⟩
  · intro a ha
    rw [hfront, List.mem_append, List.mem_singleton] at ha
    rcases ha with ha | rfl
    · exact Nat.le_of_lt (hlast a ha z (List.mem_singleton.mpr rfl))
    · exact Nat.le_refl _
  · intro a ha hle
    rw [hsplit, List.mem_append] at ha
    rcases ha with ha | ha
    · exact ha
    · have hlt := hrest z (List.mem_append_right _ (List.mem_singleton.mpr rfl)) a ha
      omega

/-- What remains is on the page, or the page ends before it. -/
theorem mem_page_or_before (hl : l.Pairwise fun a b => key a < key b) (hlimit : 0 < limit) {a : α}
    (ha : a ∈ remaining key l shown cursor) : a ∈ page key limit l shown cursor ∨
      ∃ z, (page key limit l shown cursor).getLast? = some z ∧ After cursor (key z) ∧
        key z < key a := by
  have hsorted : (remaining key l shown cursor).Pairwise fun a b => key a < key b :=
    hl.sublist List.filter_sublist
  have hsplit : remaining key l shown cursor =
      page key limit l shown cursor ++ (remaining key l shown cursor).drop limit :=
    (List.take_append_drop ..).symm
  rw [hsplit, List.pairwise_append] at hsorted
  obtain ⟨-, -, hbefore⟩ := hsorted
  rw [hsplit, List.mem_append] at ha
  rcases ha with ha | ha
  · exact .inl ha
  · right
    have hlength : limit < (remaining key l shown cursor).length := by
      have hpos := List.length_pos_of_mem ha
      rw [List.length_drop] at hpos
      omega
    cases hlast : (page key limit l shown cursor).getLast? with
    | none =>
      have hempty := congrArg List.length (List.getLast?_eq_none_iff.mp hlast)
      rw [page, List.length_take, List.length_nil] at hempty
      omega
    | some z =>
      have hz := List.mem_of_getLast? hlast
      exact ⟨z, rfl, (mem_of_mem_page hz).2.1, hbefore z hz a ha⟩

/-- The pages meet elements in order, each once, and only such as were shown. -/
theorem crawl_sorted (hl : l.Pairwise fun a b => key a < key b) (shown : ℕ → α → Bool)
    (fuel round : ℕ) (cursor : Option ℕ) :
    (crawl key limit l shown fuel round cursor).Pairwise (fun a b => key a < key b) ∧
      ∀ a ∈ crawl key limit l shown fuel round cursor,
        a ∈ l ∧ After cursor (key a) ∧ ∃ k, shown k a = true := by
  induction fuel generalizing round cursor with
  | zero => exact ⟨List.Pairwise.nil, fun a ha => nomatch ha⟩
  | succ fuel ih =>
    have hpage : (page key limit l (shown round) cursor).Pairwise fun a b => key a < key b :=
      hl.sublist ((List.take_sublist ..).trans List.filter_sublist)
    rw [crawl]
    cases hnext : next key limit l (shown round) cursor with
    | none =>
      rw [List.append_nil]
      refine ⟨hpage, ?_⟩
      intro a ha
      obtain ⟨hmem, hafter, hshown⟩ := mem_of_mem_page ha
      exact ⟨hmem, hafter, round, hshown⟩
    | some c =>
      obtain ⟨⟨z, hz, hzc⟩, hle, -⟩ := next_spec hl hnext
      obtain ⟨hsorted, hmem⟩ := ih (round + 1) (some c)
      refine ⟨List.pairwise_append.mpr ⟨hpage, hsorted, ?_⟩, ?_⟩
      · intro a ha b hb
        have hcb := after_some.mp (hmem b hb).2.1
        have hac := hle a ha
        omega
      · intro a ha
        rcases List.mem_append.mp ha with ha | ha
        · obtain ⟨hmem, hafter, hshown⟩ := mem_of_mem_page ha
          exact ⟨hmem, hafter, round, hshown⟩
        · obtain ⟨hmem, hafter, hshown⟩ := hmem a ha
          refine ⟨hmem, fun c' hc' => ?_, hshown⟩
          have hzafter := (mem_of_mem_page hz).2.1 c' hc'
          have hca := after_some.mp hafter
          omega

/-- What every round shows is met before the rounds are used up. -/
theorem mem_crawl (hl : l.Pairwise fun a b => key a < key b) (hlimit : 0 < limit)
    {shown : ℕ → α → Bool} {a : α} (ha : a ∈ l) (hshown : ∀ k, shown k a = true)
    {fuel round : ℕ} {cursor : Option ℕ} (hafter : After cursor (key a))
    (hfuel : (l.filter fun b => decide (After cursor (key b))).length ≤ fuel) :
    a ∈ crawl key limit l shown fuel round cursor := by
  have hremaining : a ∈ remaining key l (shown round) cursor :=
    mem_remaining.mpr ⟨ha, hafter, hshown round⟩
  induction fuel generalizing round cursor with
  | zero =>
    have hmem : a ∈ l.filter fun b => decide (After cursor (key b)) :=
      List.mem_filter.mpr ⟨ha, decide_eq_true hafter⟩
    rw [List.length_eq_zero_iff.mp (Nat.le_zero.mp hfuel)] at hmem
    exact nomatch hmem
  | succ fuel ih =>
    rw [crawl, List.mem_append]
    cases hnext : next key limit l (shown round) cursor with
    | none => exact .inl (mem_page_of_next_none hnext hlimit hremaining)
    | some c =>
      obtain ⟨⟨z, hz, hzc⟩, -, hpage⟩ := next_spec hl hnext
      by_cases hac : key a ≤ c
      · exact .inl (hpage a hremaining hac)
      · have hafter' : After (some c) (key a) := after_some.mpr (by omega)
        refine .inr (ih hafter' ?_ (mem_remaining.mpr ⟨ha, hafter', hshown _⟩))
        -- the element at the cursor does not come after it
        obtain ⟨hzl, hzafter, -⟩ := mem_of_mem_page hz
        have hfewer : (l.filter fun b => decide (After (some c) (key b))).length <
            (l.filter fun b => decide (After cursor (key b))).length := by
          have hsplit : (l.filter fun b => decide (After (some c) (key b))) =
              (l.filter fun b => decide (After cursor (key b))).filter
                fun b => decide (After (some c) (key b)) := by
            rw [List.filter_filter]
            apply List.filter_congr
            intro b _
            by_cases hb : After (some c) (key b)
            · have hb' : After cursor (key b) := by
                intro c' hc'
                have hzc' := hzafter c' hc'
                have hcb := after_some.mp hb
                omega
              simp [hb, hb']
            · simp [hb]
          rw [hsplit]
          apply List.length_filter_lt_length_iff_exists.mpr
          refine ⟨z, List.mem_filter.mpr ⟨hzl, decide_eq_true hzafter⟩, ?_⟩
          rw [decide_eq_true_eq, after_some]
          omega
        omega

section
variable {κ : Type} [DecidableEq κ] {name : α → κ}

/-- Where each element has its own name, the element of a name is found at its place. -/
theorem findIdx_name (hnodup : (l.map name).Nodup) {n : ℕ} {a : α} (ha : l[n]? = some a) :
    l.findIdx (fun b => name b = name a) = n := by
  obtain ⟨hn, hget⟩ := List.getElem?_eq_some_iff.mp ha
  apply (List.findIdx_eq hn).mpr
  constructor
  · rw [hget]
    exact decide_eq_true rfl
  · intro m hm
    apply decide_eq_false
    intro hsame
    rw [← hget] at hsame
    have hm' : m < (l.map name).length := by
      rw [List.length_map]
      omega
    have hn' : n < (l.map name).length := by
      rw [List.length_map]
      exact hn
    have hname : (l.map name)[m] = (l.map name)[n] := by
      rw [List.getElem_map, List.getElem_map]
      exact hsame
    have heq := (List.Nodup.getElem_inj_iff hnodup).mp hname
    omega

/-- The last element of a page that is full. -/
theorem getLast_page {start : ℕ} (hlimit : 0 < limit) (hmore : start + limit < l.length) :
    ((l.drop start).take limit).getLast? = l[start + limit - 1]? := by
  rw [List.getLast?_eq_getElem?, List.length_take, List.length_drop, List.getElem?_take,
    Nat.min_eq_left (by omega), if_pos (by omega), List.getElem?_drop]
  congr 1
  omega

end

end DirectTrade.Library.Paging
