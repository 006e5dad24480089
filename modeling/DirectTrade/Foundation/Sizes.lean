import DirectTrade.Foundation.Datatypes
import Mathlib.Data.List.GetD

/-!
What values measure under the limits of a copy: nodes, depth, canonical bytes, and whether
every part is plain.
-/

namespace DirectTrade

namespace Json

theorem foldMembers_eq_map {α : Type} (leaf : Json → α) (array : List α → α)
    (object : List (String × α) → α) (members : List (String × Json)) :
    foldMembers leaf array object members =
      members.map fun m => (m.1, fold leaf array object m.2) := by
  induction members with
  | nil => rfl
  | cons m rest ih => rw [foldMembers, ih, List.map_cons]

@[simp] theorem nodes_null : Json.null.nodes = 1 := rfl

@[simp] theorem nodes_bool (b : Bool) : (Json.bool b).nodes = 1 := rfl

@[simp] theorem nodes_num (n : ℤ) : (Json.num n).nodes = 1 := rfl

@[simp] theorem nodes_str (s : String) : (Json.str s).nodes = 1 := rfl

@[simp] theorem nodes_obj (members : List (String × Json)) :
    (Json.obj members).nodes = 1 + (members.map fun m => m.2.nodes).sum := by
  rw [nodes, fold, foldMembers_eq_map, List.map_map]
  rfl

@[simp] theorem depth_null : Json.null.depth = 0 := rfl

@[simp] theorem depth_bool (b : Bool) : (Json.bool b).depth = 0 := rfl

@[simp] theorem depth_num (n : ℤ) : (Json.num n).depth = 0 := rfl

@[simp] theorem depth_str (s : String) : (Json.str s).depth = 0 := rfl

@[simp] theorem depth_arr (items : List Json) :
    (Json.arr items).depth = (items.map fun j => j.depth + 1).foldr max 0 := by
  rw [depth, fold, foldItems_eq_map, List.map_map]
  rfl

@[simp] theorem depth_obj (members : List (String × Json)) :
    (Json.obj members).depth = (members.map fun m => m.2.depth + 1).foldr max 0 := by
  rw [depth, fold, foldMembers_eq_map, List.map_map]
  rfl

@[simp] theorem bytes_null : Json.null.bytes = 4 := rfl

@[simp] theorem bytes_bool (b : Bool) : (Json.bool b).bytes = if b then 4 else 5 := by
  cases b <;> rfl

@[simp] theorem bytes_num (n : ℤ) :
    (Json.num n).bytes = (if n < 0 then 1 else 0) + (Nat.toDigits 10 n.natAbs).length := rfl

@[simp] theorem bytes_str (s : String) : (Json.str s).bytes = textBytes s := rfl

@[simp] theorem bytes_arr (items : List Json) :
    (Json.arr items).bytes = 2 + (items.map bytes).sum + (items.length - 1) := by
  rw [bytes, fold, foldItems_eq_map, List.length_map]

@[simp] theorem bytes_obj (members : List (String × Json)) :
    (Json.obj members).bytes =
      2 + (members.map fun m => textBytes m.1 + 1 + m.2.bytes).sum + (members.length - 1) := by
  rw [bytes, fold, foldMembers_eq_map, List.map_map, List.length_map]
  rfl

@[simp] theorem plain_null : Json.null.plain = true := rfl

@[simp] theorem plain_bool (b : Bool) : (Json.bool b).plain = true := rfl

@[simp] theorem plain_num (n : ℤ) : (Json.num n).plain = decide (n.natAbs ≤ 9007199254740991) := rfl

@[simp] theorem plain_str (s : String) :
    (Json.str s).plain = decide (Foundation.textLength s ≤ 4096) := rfl

@[simp] theorem plain_arr (items : List Json) :
    (Json.arr items).plain = (decide (items.length ≤ 4096) && items.all plain) := by
  rw [plain, fold, foldItems_eq_map, List.length_map, List.all_map]
  rfl

@[simp] theorem plain_obj (members : List (String × Json)) :
    (Json.obj members).plain = (decide (members.length ≤ 32) && members.all fun m =>
      m.2.plain && !(["__proto__", "constructor", "prototype"].contains m.1)) := by
  rw [plain, fold, foldMembers_eq_map, List.length_map, List.all_map]
  rfl

end Json

namespace Foundation

open Json

theorem length_hexText (width n : ℕ) : (hexText width n).length = width := by
  induction width generalizing n with
  | zero => rfl
  | succ width ih => rw [hexText, List.length_append, ih, List.length_singleton]

theorem hexDigit_mem (n : ℕ) : hexDigit n ∈ "0123456789abcdef".toList := by
  by_cases h : n < "0123456789abcdef".toList.length
  · rw [hexDigit, List.getD_eq_getElem _ _ h]
    exact List.getElem_mem h
  · rw [hexDigit, List.getD_eq_default _ _ (by omega)]
    decide

theorem mem_hexText {width n : ℕ} {c : Char} (h : c ∈ hexText width n) :
    c ∈ "0123456789abcdef".toList := by
  induction width generalizing n with
  | zero => exact nomatch h
  | succ width ih =>
    rw [hexText] at h
    rcases List.mem_append.mp h with h | h
    · exact ih h
    · exact List.mem_singleton.mp h ▸ hexDigit_mem _

/-- Characters of one byte and one UTF-16 unit. -/
def Light (c : Char) : Prop := charBytes c = 1 ∧ c.toNat ≤ 65535

theorem light_of_hex {c : Char} (h : c ∈ '-' :: "0123456789abcdef".toList) : Light c := by
  have hall : ('-' :: "0123456789abcdef".toList).all fun c =>
      charBytes c = 1 ∧ c.toNat ≤ 65535 := by
    decide
  have hc := List.all_eq_true.mp hall c h
  simpa only [Light, decide_eq_true_eq] using hc

theorem sizes_of_light {l : List Char} (h : ∀ c ∈ l, Light c) :
    textBytes (String.ofList l) = 2 + l.length ∧ textLength (String.ofList l) = l.length := by
  have hsum : ∀ l : List Char, (∀ c ∈ l, Light c) → (l.map charBytes).sum = l.length ∧
      (l.map fun c => if c.toNat > 65535 then 2 else 1).sum = l.length := by
    intro l
    induction l with
    | nil => exact fun _ => ⟨rfl, rfl⟩
    | cons c rest ih =>
      intro h
      obtain ⟨hbytes, hlength⟩ := ih fun d hd => h d (List.mem_cons_of_mem _ hd)
      obtain ⟨hone, hunit⟩ := h c (List.mem_cons_self ..)
      refine ⟨?_, ?_⟩
      · rw [List.map_cons, List.sum_cons, hbytes, hone, List.length_cons, Nat.add_comm]
      · rw [List.map_cons, List.sum_cons, hlength, if_neg (by omega), List.length_cons,
          Nat.add_comm]
  rw [textBytes, textLength, String.toList_ofList, (hsum l h).1, (hsum l h).2]
  exact ⟨rfl, rfl⟩

theorem sizes_digest (d : Digest) : textBytes (String.ofList (hexText 64 d)) = 66 ∧
    textLength (String.ofList (hexText 64 d)) = 64 := by
  have h := sizes_of_light fun c (hc : c ∈ hexText 64 d) =>
    light_of_hex (List.mem_cons_of_mem _ (mem_hexText hc))
  rw [length_hexText] at h
  exact h

theorem sizes_grouped {digits : List Char} (hlength : digits.length = 32)
    (h : ∀ c ∈ digits, Light c) :
    textBytes (String.ofList (digits.take 8 ++ '-' :: (digits.drop 8).take 4 ++ '-' ::
      (digits.drop 12).take 4 ++ '-' :: (digits.drop 16).take 4 ++ '-' :: digits.drop 20)) = 38 ∧
    textLength (String.ofList (digits.take 8 ++ '-' :: (digits.drop 8).take 4 ++ '-' ::
      (digits.drop 12).take 4 ++ '-' :: (digits.drop 16).take 4 ++
      '-' :: digits.drop 20)) = 36 := by
  have hdash : Light '-' := light_of_hex (List.mem_cons_self ..)
  have hsizes := sizes_of_light (l := digits.take 8 ++ '-' :: (digits.drop 8).take 4 ++ '-' ::
      (digits.drop 12).take 4 ++ '-' :: (digits.drop 16).take 4 ++ '-' :: digits.drop 20) ?_
  · rw [hsizes.1, hsizes.2]
    simp [hlength]
  · intro c hc
    simp only [List.mem_append, List.mem_cons] at hc
    rcases hc with (((hc | rfl | hc) | rfl | hc) | rfl | hc) | rfl | hc
    · exact h c (List.mem_of_mem_take hc)
    · exact hdash
    · exact h c (List.mem_of_mem_drop (List.mem_of_mem_take hc))
    · exact hdash
    · exact h c (List.mem_of_mem_drop (List.mem_of_mem_take hc))
    · exact hdash
    · exact h c (List.mem_of_mem_drop (List.mem_of_mem_take hc))
    · exact hdash
    · exact h c (List.mem_of_mem_drop hc)

theorem sizes_uuid (id : Uuid) : textBytes (uuidText id) = 38 ∧ textLength (uuidText id) = 36 :=
  sizes_grouped (length_hexText 32 id) fun _ hc =>
    light_of_hex (List.mem_cons_of_mem _ (mem_hexText hc))

@[simp] theorem nodes_uuidJson (id : Uuid) : (uuidJson id).nodes = 1 := rfl

@[simp] theorem depth_uuidJson (id : Uuid) : (uuidJson id).depth = 0 := rfl

@[simp] theorem bytes_uuidJson (id : Uuid) : (uuidJson id).bytes = 38 := (sizes_uuid id).1

@[simp] theorem plain_uuidJson (id : Uuid) : (uuidJson id).plain = true := by
  rw [uuidJson, plain_str, (sizes_uuid id).2]
  rfl

@[simp] theorem nodes_digestJson (d : Digest) : (digestJson d).nodes = 1 := rfl

@[simp] theorem depth_digestJson (d : Digest) : (digestJson d).depth = 0 := rfl

@[simp] theorem bytes_digestJson (d : Digest) : (digestJson d).bytes = 66 := (sizes_digest d).1

@[simp] theorem plain_digestJson (d : Digest) : (digestJson d).plain = true := by
  rw [digestJson, plain_str, (sizes_digest d).2]
  rfl

end Foundation
end DirectTrade
