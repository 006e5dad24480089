import Mathlib.Data.List.Basic
import Mathlib.Tactic.Basic

/-!
Texts as the language holds them: sequences of UTF-16 code units, surrogates included whether
or not they form pairs. A loop over a text visits its characters, where a high surrogate
followed by a low one is a single character.
-/

namespace DirectTrade.Encoding

/-- The code units of a text. -/
abbrev Text := List ℕ

/-- A text of characters of one unit each. -/
def units (s : String) : Text := s.toList.map Char.toNat

def isDigit (u : ℕ) : Bool := 48 ≤ u && u ≤ 57

theorem isDigit_iff {u : ℕ} : isDigit u = true ↔ 48 ≤ u ∧ u ≤ 57 := by
  simp [isDigit]

def isHighSurrogate (u : ℕ) : Bool := 0xD800 ≤ u && u ≤ 0xDBFF

def isLowSurrogate (u : ℕ) : Bool := 0xDC00 ≤ u && u ≤ 0xDFFF

/-- The characters that a loop over a text visits. -/
def characters : Text → List ℕ
  | [] => []
  | [u] => [u]
  | u :: v :: rest =>
    if isHighSurrogate u && isLowSurrogate v then
      (0x10000 + (u - 0xD800) * 0x400 + (v - 0xDC00)) :: characters rest
    else u :: characters (v :: rest)

/-- Below the surrogates, the characters of a text are its units. -/
theorem characters_eq {t : Text} (h : ∀ u ∈ t, u < 0xD800) : characters t = t := by
  induction t using characters.induct with
  | case1 => rfl
  | case2 u => rfl
  | case3 u v rest hpair ih =>
    have hu := h u (List.mem_cons_self ..)
    simp only [isHighSurrogate, Bool.and_eq_true, decide_eq_true_eq] at hpair
    omega
  | case4 u v rest hpair ih =>
    rw [characters, if_neg hpair, ih fun x hx => h x (List.mem_cons_of_mem _ hx)]

/-- A text all of whose characters are below the surrogates has no others. -/
theorem units_of_characters {t : Text} (h : ∀ c ∈ characters t, c < 0xD800) :
    ∀ u ∈ t, u < 0xD800 := by
  induction t using characters.induct with
  | case1 => exact fun u hu => nomatch hu
  | case2 u => exact h
  | case3 u v rest hpair ih =>
    rw [characters, if_pos hpair] at h
    have hchar := h _ (List.mem_cons_self ..)
    omega
  | case4 u v rest hpair ih =>
    rw [characters, if_neg hpair] at h
    intro x hx
    rcases List.mem_cons.mp hx with rfl | hx
    · exact h _ (List.mem_cons_self ..)
    · exact ih (fun c hc => h c (List.mem_cons_of_mem _ hc)) x hx

end DirectTrade.Encoding
