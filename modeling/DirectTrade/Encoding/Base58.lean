import DirectTrade.Encoding.Text
import DirectTrade.Library.Outcome
import DirectTrade.Library.Positional
import Mathlib.Data.List.GetD

/-!
Base58 texts of byte strings and the key identifiers made of them. Both directions rewrite
one numeral in another base, leading zeros included, so each undoes the other.
-/

namespace DirectTrade.Encoding

open Library Outcome Positional

abbrev Byte := Fin 256

instance nonzeroByte : NeZero 256 := ⟨by decide⟩

/-- What a text is refused for. -/
inductive DecodeError where
  | invalidCharacter (c : ℕ)
  | missingScheme (what : String)
  | wrongLength (what : String) (length expected : ℕ)
  deriving DecidableEq

def alphabet : Text := units "123456789ABCDEFGHJKLMNPQRSTUVWXYZabcdefghijkmnopqrstuvwxyz"

/-- The character of the alphabet at a place. -/
def symbol (d : ℕ) : ℕ := alphabet.getD d 0

def readBytes (bytes : List Byte) : ℕ := bytes.foldl (fun n b => (n <<< 8) ||| b.val) 0

def writeSymbols (n : ℕ) (out : Text) : Text :=
  if 0 < n then writeSymbols (n / 58) (symbol (n % 58) :: out) else out
  termination_by n
  decreasing_by omega

/-- Leading zero bytes become leading ones. -/
def padSymbols : List Byte → Text → Text
  | [], out => out
  | b :: rest, out => if b ≠ 0 then out else padSymbols rest (49 :: out)

def base58Encode (bytes : List Byte) : Text :=
  if bytes.length = 0 then [] else padSymbols bytes (writeSymbols (readBytes bytes) [])

def readSymbol (n : ℕ) (c : ℕ) : Except DecodeError ℕ := do
  let v ← require (.invalidCharacter c) (alphabet.idxOf? c)
  pure (n * 58 + v)

def writeBytes (n : ℕ) (bytes : List Byte) : List Byte :=
  if 0 < n then writeBytes (n >>> 8) (Fin.ofNat 256 (n &&& 0xff) :: bytes) else bytes
  termination_by n
  decreasing_by
    rw [Nat.shiftRight_eq_div_pow]
    omega

def padBytes : List ℕ → List Byte → List Byte
  | [], bytes => bytes
  | c :: rest, bytes => if c ≠ 49 then bytes else padBytes rest (0 :: bytes)

def base58Decode (s : Text) : Except DecodeError (List Byte) :=
  if s.length = 0 then .ok []
  else do
    let n ← (characters s).foldlM readSymbol 0
    pure (padBytes (characters s) (writeBytes n []))

theorem alphabet_length : alphabet.length = 58 := by decide

theorem alphabet_nodup : alphabet.Nodup := by decide

theorem alphabet_small : ∀ c ∈ alphabet, c < 0xD800 := by decide

theorem symbol_mem {d : ℕ} (h : d < 58) : symbol d ∈ alphabet := by
  have hd : d < alphabet.length := by rwa [alphabet_length]
  rw [symbol, List.getD_eq_getElem _ _ hd]
  exact List.getElem_mem hd

/-- The place of a character of the alphabet. -/
def place (c : ℕ) : ℕ := alphabet.idxOf c

theorem place_lt {c : ℕ} (h : c ∈ alphabet) : place c < 58 := by
  have hlt := List.idxOf_lt_length_of_mem h
  rwa [alphabet_length] at hlt

theorem symbol_place {c : ℕ} (h : c ∈ alphabet) : symbol (place c) = c := by
  have hlt := List.idxOf_lt_length_of_mem h
  rw [symbol, place, List.getD_eq_getElem _ _ hlt]
  exact List.getElem_idxOf hlt

theorem place_symbol {d : ℕ} (h : d < 58) : place (symbol d) = d := by
  have hd : d < alphabet.length := by rwa [alphabet_length]
  rw [symbol, place, List.getD_eq_getElem _ _ hd]
  exact alphabet_nodup.idxOf_getElem d hd

theorem idxOf?_eq_place {c : ℕ} (h : c ∈ alphabet) : alphabet.idxOf? c = some (place c) := by
  refine List.idxOf?_eq_some_iff.mpr ⟨List.idxOf_lt_length_of_mem h, List.getElem_idxOf _, ?_⟩
  intro j hj heq
  have hfirst := List.not_of_lt_findIdx hj
  rw [heq] at hfirst
  simp at hfirst

theorem readSymbol_eq_ok {n m c : ℕ} :
    readSymbol n c = .ok m ↔ c ∈ alphabet ∧ n * 58 + place c = m := by
  simp only [readSymbol, bind_eq_ok, require_eq_ok, pure_eq_ok]
  constructor
  · rintro ⟨v, hv, hm⟩
    have hmem : c ∈ alphabet := by
      rw [← List.isSome_idxOf?, hv]
      rfl
    obtain rfl : place c = v := Option.some.inj ((idxOf?_eq_place hmem).symm.trans hv)
    exact ⟨hmem, hm⟩
  · rintro ⟨hmem, hm⟩
    exact ⟨place c, idxOf?_eq_place hmem, hm⟩

theorem readBytes_eq (bytes : List Byte) : readBytes bytes = value 256 (bytes.map Fin.val) := by
  have hstep : ∀ n, bytes.foldl (fun n b => (n <<< 8) ||| b.val) n =
      (bytes.map Fin.val).foldl (fun n d => n * 256 + d) n := by
    induction bytes with
    | nil => exact fun _ => rfl
    | cons b rest ih =>
      intro n
      have hb : (n <<< 8) ||| b.val = n * 256 + b.val := by
        rw [← Nat.shiftLeft_add_eq_or_of_lt b.isLt, Nat.shiftLeft_eq]
      rw [List.foldl_cons, hb, ih, List.map_cons, List.foldl_cons]
  exact hstep 0

theorem writeSymbols_eq (n : ℕ) (out : Text) :
    writeSymbols n out = (numeral 58 n).map symbol ++ out := by
  induction n, out using writeSymbols.induct with
  | case1 n out hpos ih =>
    have hnumeral : numeral 58 n = numeral 58 (n / 58) ++ [n % 58] := by
      rw [numeral, Nat.digits_def' (by decide) hpos, List.reverse_cons]
      rfl
    rw [writeSymbols, if_pos hpos, ih, hnumeral, List.map_append, List.append_assoc]
    rfl
  | case2 n out hpos =>
    have hzero : n = 0 := by omega
    subst hzero
    rw [writeSymbols, if_neg hpos]
    rfl

theorem padSymbols_eq (bytes : List Byte) (out : Text) :
    padSymbols bytes out = List.replicate (zeros (bytes.map Fin.val)) 49 ++ out := by
  induction bytes generalizing out with
  | nil => rfl
  | cons b rest ih =>
    by_cases hb : b = 0
    · subst hb
      have hzeros : zeros ((0 :: rest : List Byte).map Fin.val) =
          zeros (rest.map Fin.val) + 1 := by simp [zeros]
      rw [padSymbols, if_neg (by simp), ih, hzeros, List.replicate_succ', List.append_assoc]
      rfl
    · have hval : b.val ≠ 0 := fun h => hb (Fin.ext h)
      have hzeros : zeros ((b :: rest).map Fin.val) = 0 := by simp [zeros, hval]
      rw [padSymbols, if_pos hb, hzeros]
      rfl

/-- Encoding rewrites the bytes in base 58. -/
theorem base58Encode_eq (bytes : List Byte) :
    base58Encode bytes = (recode 256 58 (bytes.map Fin.val)).map symbol := by
  have hone : symbol 0 = 49 := by decide
  unfold base58Encode
  split
  next hempty =>
    rw [List.length_eq_zero_iff.mp hempty]
    rfl
  next =>
    rw [padSymbols_eq, writeSymbols_eq, readBytes_eq, recode, List.map_append,
      List.map_replicate, hone, List.append_nil]

theorem foldlM_readSymbol {text : Text} (h : ∀ c ∈ text, c ∈ alphabet) (n : ℕ) :
    text.foldlM readSymbol n = .ok ((text.map place).foldl (fun n d => n * 58 + d) n) := by
  induction text generalizing n with
  | nil => rfl
  | cons c rest ih =>
    have hc : readSymbol n c = .ok (n * 58 + place c) :=
      readSymbol_eq_ok.mpr ⟨h c (List.mem_cons_self ..), rfl⟩
    rw [List.foldlM_cons, hc, ok_bind, ih fun x hx => h x (List.mem_cons_of_mem _ hx)]
    rfl

theorem writeBytes_eq (n : ℕ) (bytes : List Byte) :
    writeBytes n bytes = (numeral 256 n).map (Fin.ofNat 256) ++ bytes := by
  induction n, bytes using writeBytes.induct with
  | case1 n bytes hpos ih =>
    have hlow : n &&& 0xff = n % 256 := Nat.and_two_pow_sub_one_eq_mod n 8
    have hhigh : n >>> 8 = n / 256 := Nat.shiftRight_eq_div_pow n 8
    have hnumeral : numeral 256 n = numeral 256 (n / 256) ++ [n % 256] := by
      rw [numeral, Nat.digits_def' (by decide) hpos, List.reverse_cons]
      rfl
    rw [writeBytes, if_pos hpos, ih, hnumeral, hlow, hhigh, List.map_append, List.append_assoc]
    rfl
  | case2 n bytes hpos =>
    have hzero : n = 0 := by omega
    subst hzero
    rw [writeBytes, if_neg hpos]
    rfl

theorem padBytes_eq {text : Text} (h : ∀ c ∈ text, c ∈ alphabet) (bytes : List Byte) :
    padBytes text bytes = List.replicate (zeros (text.map place)) 0 ++ bytes := by
  induction text generalizing bytes with
  | nil => rfl
  | cons c rest ih =>
    have hone : place 49 = 0 := by decide
    by_cases hc : c = 49
    · subst hc
      have hzeros : zeros ((49 :: rest).map place) = zeros (rest.map place) + 1 := by
        simp [zeros, hone]
      rw [padBytes, if_neg (by simp), ih fun x hx => h x (List.mem_cons_of_mem _ hx), hzeros,
        List.replicate_succ', List.append_assoc]
      rfl
    · have hplace : place c ≠ 0 := by
        intro hzero
        apply hc
        rw [← symbol_place (h c (List.mem_cons_self ..)), hzero]
        decide
      have hzeros : zeros ((c :: rest).map place) = 0 := by simp [zeros, hplace]
      rw [padBytes, if_pos hc, hzeros]
      rfl

/-- Decoding rewrites a text over the alphabet in base 256. -/
theorem base58Decode_eq {text : Text} (h : ∀ c ∈ text, c ∈ alphabet) :
    base58Decode text = .ok ((recode 58 256 (text.map place)).map (Fin.ofNat 256)) := by
  have hchars : characters text = text := characters_eq fun u hu => alphabet_small u (h u hu)
  unfold base58Decode
  split
  next hempty =>
    rw [List.length_eq_zero_iff.mp hempty]
    rfl
  next =>
    rw [hchars, foldlM_readSymbol h, ok_bind, padBytes_eq h, writeBytes_eq, recode,
      List.map_append, List.map_replicate, List.append_nil]
    rfl

/-- Only texts over the alphabet are decoded. -/
theorem mem_alphabet_of_decode {text : Text} {bytes : List Byte}
    (h : base58Decode text = .ok bytes) : ∀ c ∈ text, c ∈ alphabet := by
  unfold base58Decode at h
  split at h
  next hempty =>
    rw [List.length_eq_zero_iff.mp hempty]
    exact fun c hc => nomatch hc
  next =>
    simp only [bind_eq_ok] at h
    obtain ⟨n, hfold, -⟩ := h
    have hchars : ∀ c ∈ characters text, c ∈ alphabet := by
      intro c hc
      obtain ⟨m, k, hstep⟩ := foldlM_each hfold c hc
      exact (readSymbol_eq_ok.mp hstep).1
    have hsmall := units_of_characters fun c hc => alphabet_small c (hchars c hc)
    rwa [characters_eq hsmall] at hchars

theorem decode_encode (bytes : List Byte) : base58Decode (base58Encode bytes) = .ok bytes := by
  have hdigits : ∀ d ∈ recode 256 58 (bytes.map Fin.val), d < 58 :=
    fun d hd => recode_lt (by decide) hd
  have hsymbols : ∀ c ∈ base58Encode bytes, c ∈ alphabet := by
    rw [base58Encode_eq]
    intro c hc
    obtain ⟨d, hd, rfl⟩ := List.mem_map.mp hc
    exact symbol_mem (hdigits d hd)
  have hplaces : (base58Encode bytes).map place = recode 256 58 (bytes.map Fin.val) := by
    rw [base58Encode_eq, List.map_map]
    exact (List.map_congr_left fun d hd => place_symbol (hdigits d hd)).trans (List.map_id _)
  have hvals : ∀ d ∈ bytes.map Fin.val, d < 256 := by
    intro d hd
    obtain ⟨b, -, rfl⟩ := List.mem_map.mp hd
    exact b.isLt
  rw [base58Decode_eq hsymbols, hplaces, recode_recode 58 (by decide) hvals, List.map_map]
  have hbytes : bytes.map (Fin.ofNat 256 ∘ Fin.val) = bytes := by
    exact (List.map_congr_left fun b _ => Fin.ofNat_val_eq_self b).trans (List.map_id _)
  rw [hbytes]

theorem encode_decode {text : Text} {bytes : List Byte} (h : base58Decode text = .ok bytes) :
    base58Encode bytes = text := by
  have hmem := mem_alphabet_of_decode h
  rw [base58Decode_eq hmem] at h
  have hbytes := Except.ok.inj h
  have hvals : bytes.map Fin.val = recode 58 256 (text.map place) := by
    rw [← hbytes, List.map_map]
    refine (List.map_congr_left fun d hd => ?_).trans (List.map_id _)
    exact Nat.mod_eq_of_lt (recode_lt (by decide) hd)
  have hplaces : ∀ d ∈ text.map place, d < 58 := by
    intro d hd
    obtain ⟨c, hc, rfl⟩ := List.mem_map.mp hd
    exact place_lt (hmem c hc)
  rw [base58Encode_eq, hvals, recode_recode 256 (by decide) hplaces, List.map_map]
  exact (List.map_congr_left fun c hc => symbol_place (hmem c hc)).trans (List.map_id _)

def scheme : Text := units "ed25519:"

def stripPrefix (s : Text) (what : String) : Except DecodeError Text := do
  demand (.missingScheme what) (scheme.isPrefixOf s = true)
  pure (s.drop scheme.length)

def encodeKeyId (publicKey : List Byte) : Except DecodeError Text := do
  demand (.wrongLength "public key" publicKey.length 32) (publicKey.length = 32)
  pure (scheme ++ base58Encode publicKey)

def decodeKeyId (keyId : Text) : Except DecodeError (List Byte) := do
  let bytes ← base58Decode (← stripPrefix keyId "key id")
  demand (.wrongLength "key id" bytes.length 32) (bytes.length = 32)
  pure bytes

/-- A key identifier is accepted as the encoding of its 32 bytes and of nothing else. -/
theorem decodeKeyId_eq_ok {keyId : Text} {bytes : List Byte} :
    decodeKeyId keyId = .ok bytes ↔ encodeKeyId bytes = .ok keyId := by
  simp only [decodeKeyId, encodeKeyId, stripPrefix, bind_eq_ok, demand_eq_ok, pure_eq_ok]
  constructor
  · rintro ⟨body, ⟨_, hscheme, hbody⟩, decoded, hdecoded, _, hlength, hbytes⟩
    subst hbytes hbody
    obtain ⟨rest, hrest⟩ := List.isPrefixOf_iff_prefix.mp hscheme
    refine ⟨(), hlength, ?_⟩
    rw [encode_decode hdecoded, ← hrest, List.drop_left]
  · rintro ⟨_, hlength, hkeyId⟩
    subst hkeyId
    refine ⟨base58Encode bytes, ⟨(), ?_, List.drop_left⟩, bytes, decode_encode bytes, (), hlength,
      rfl⟩
    exact List.isPrefixOf_iff_prefix.mpr (List.prefix_append _ _)

/-- Base58 is a bijection between byte strings and texts over its alphabet, every other text is
refused, and key identifiers are equal exactly when their keys are. -/
theorem base58_bijective :
    (∀ bytes, base58Decode (base58Encode bytes) = .ok bytes) ∧
    (∀ text : Text, (∀ c ∈ text, c ∈ alphabet) →
      ∃ bytes, base58Decode text = .ok bytes ∧ base58Encode bytes = text) ∧
    (∀ text : Text, ¬ (∀ c ∈ text, c ∈ alphabet) → ∃ e, base58Decode text = .error e) ∧
    ∀ k k' a b, decodeKeyId k = .ok a → decodeKeyId k' = .ok b →
      a.length = 32 ∧ b.length = 32 ∧ (k = k' ↔ a = b) := by
  refine ⟨decode_encode, ?_, ?_, ?_⟩
  · intro text h
    have hdecoded := base58Decode_eq h
    exact ⟨_, hdecoded, encode_decode hdecoded⟩
  · intro text h
    cases hdecoded : base58Decode text with
    | error e => exact ⟨e, rfl⟩
    | ok bytes => exact absurd (mem_alphabet_of_decode hdecoded) h
  · intro k k' a b ha hb
    have hk := decodeKeyId_eq_ok.mp ha
    have hk' := decodeKeyId_eq_ok.mp hb
    have hlength : ∀ x y, encodeKeyId x = .ok y → x.length = 32 := by
      intro x y h
      simp only [encodeKeyId, bind_eq_ok, demand_eq_ok] at h
      obtain ⟨_, hlength, -⟩ := h
      exact hlength
    refine ⟨hlength a k hk, hlength b k' hk', ?_, ?_⟩
    · intro h
      subst h
      exact Except.ok.inj (ha.symm.trans hb)
    · intro h
      subst h
      exact Except.ok.inj (hk.symm.trans hk')

example : base58Encode [0, 0, 1, 2] = units "115T" := by decide +kernel

end DirectTrade.Encoding
