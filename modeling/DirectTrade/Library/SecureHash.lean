import DirectTrade.Library.Octets

/-!
SHA-256 as FIPS 180-4 defines it: a message of any number of bits is padded to blocks of 512
bits, and each block is expanded to sixty-four words and compressed into the hash value.
-/

namespace DirectTrade.Library.SecureHash

open Octets

abbrev Word := BitVec 32

def ch (x y z : Word) : Word := (x &&& y) ^^^ (~~~x &&& z)

def maj (x y z : Word) : Word := (x &&& y) ^^^ (x &&& z) ^^^ (y &&& z)

def bigSigma0 (x : Word) : Word := x.rotateRight 2 ^^^ x.rotateRight 13 ^^^ x.rotateRight 22

def bigSigma1 (x : Word) : Word := x.rotateRight 6 ^^^ x.rotateRight 11 ^^^ x.rotateRight 25

def smallSigma0 (x : Word) : Word := x.rotateRight 7 ^^^ x.rotateRight 18 ^^^ x >>> 3

def smallSigma1 (x : Word) : Word := x.rotateRight 17 ^^^ x.rotateRight 19 ^^^ x >>> 10

/-- The first thirty-two bits of the fractional parts of the cube roots of the first sixty-four
primes. -/
def constants : List Word :=
  [0x428a2f98, 0x71374491, 0xb5c0fbcf, 0xe9b5dba5, 0x3956c25b, 0x59f111f1, 0x923f82a4, 0xab1c5ed5,
    0xd807aa98, 0x12835b01, 0x243185be, 0x550c7dc3, 0x72be5d74, 0x80deb1fe, 0x9bdc06a7, 0xc19bf174,
    0xe49b69c1, 0xefbe4786, 0x0fc19dc6, 0x240ca1cc, 0x2de92c6f, 0x4a7484aa, 0x5cb0a9dc, 0x76f988da,
    0x983e5152, 0xa831c66d, 0xb00327c8, 0xbf597fc7, 0xc6e00bf3, 0xd5a79147, 0x06ca6351, 0x14292967,
    0x27b70a85, 0x2e1b2138, 0x4d2c6dfc, 0x53380d13, 0x650a7354, 0x766a0abb, 0x81c2c92e, 0x92722c85,
    0xa2bfe8a1, 0xa81a664b, 0xc24b8b70, 0xc76c51a3, 0xd192e819, 0xd6990624, 0xf40e3585, 0x106aa070,
    0x19a4c116, 0x1e376c08, 0x2748774c, 0x34b0bcb5, 0x391c0cb3, 0x4ed8aa4a, 0x5b9cca4f, 0x682e6ff3,
    0x748f82ee, 0x78a5636f, 0x84c87814, 0x8cc70208, 0x90befffa, 0xa4506ceb, 0xbef9a3f7, 0xc67178f2]

/-- The eight words of a hash value, and of the working variables. -/
structure Words where
  a : Word
  b : Word
  c : Word
  d : Word
  e : Word
  f : Word
  g : Word
  h : Word
  deriving DecidableEq

def Words.toList (v : Words) : List Word := [v.a, v.b, v.c, v.d, v.e, v.f, v.g, v.h]

/-- The first thirty-two bits of the fractional parts of the square roots of the first eight
primes. -/
def initial : Words :=
  ⟨0x6a09e667, 0xbb67ae85, 0x3c6ef372, 0xa54ff53a, 0x510e527f, 0x9b05688c, 0x1f83d9ab, 0x5be0cd19⟩

/-- The number of zero bits that the padding of a message of `l` bits holds. -/
def zeros (l : ℕ) : ℕ := (959 - l % 512) % 512

theorem zeros_solves (l : ℕ) : (l + 1 + zeros l) % 512 = 448 := by
  unfold zeros
  omega

/-- It is the least solution. -/
theorem zeros_least {l k : ℕ} (h : (l + 1 + k) % 512 = 448) : zeros l ≤ k := by
  unfold zeros
  omega

def pad (message : List Bool) : List Bool :=
  message ++ true :: (List.replicate (zeros message.length) false ++ bits 64 message.length)

theorem length_pad (message : List Bool) :
    (pad message).length = message.length + 1 + zeros message.length + 64 := by
  rw [pad, List.length_append, List.length_cons, List.length_append, List.length_replicate,
    length_bits]
  omega

/-- A padded message consists of whole blocks. -/
theorem pad_blocks (message : List Bool) : 512 ∣ (pad message).length := by
  have hzeros := zeros_solves message.length
  rw [length_pad]
  omega

/-- The word `j` of the block `i`. -/
def blockWord (message : List Bool) (i j : ℕ) : Word :=
  BitVec.ofNat 32 (value ((message.drop (512 * i + 32 * j)).take 32))

/-- The message schedule of a block. -/
def schedule (block : ℕ → Word) (t : ℕ) : Word :=
  if t < 16 then block t
  else smallSigma1 (schedule block (t - 2)) + schedule block (t - 7) +
    smallSigma0 (schedule block (t - 15)) + schedule block (t - 16)

def round (k w : Word) (v : Words) : Words :=
  let t1 := v.h + bigSigma1 v.e + ch v.e v.f v.g + k + w
  let t2 := bigSigma0 v.a + maj v.a v.b v.c
  ⟨t1 + t2, v.a, v.b, v.c, v.d + t1, v.e, v.f, v.g⟩

def Words.add (v w : Words) : Words :=
  ⟨v.a + w.a, v.b + w.b, v.c + w.c, v.d + w.d, v.e + w.e, v.f + w.f, v.g + w.g, v.h + w.h⟩

/-- The rounds of a block on the working variables. -/
def rounds (block : ℕ → Word) (v : Words) : Words :=
  (List.range 64).foldl (fun v t => round (constants.getD t 0) (schedule block t) v) v

def compress (h : Words) (block : ℕ → Word) : Words := (rounds block h).add h

def hash (message : List Bool) : Words :=
  (List.range ((pad message).length / 512)).foldl
    (fun h i => compress h (blockWord (pad message) i)) initial

/-- The message digest. -/
def digest (message : List Bool) : List Bool :=
  (hash message).toList.flatMap fun w => bits 32 w.toNat

theorem schedule_of_lt {block : ℕ → Word} {t : ℕ} (h : t < 16) : schedule block t = block t := by
  rw [schedule, if_pos h]

theorem schedule_of_ge {block : ℕ → Word} {t : ℕ} (h : 16 ≤ t) :
    schedule block t = smallSigma1 (schedule block (t - 2)) + schedule block (t - 7) +
      smallSigma0 (schedule block (t - 15)) + schedule block (t - 16) := by
  rw [schedule, if_neg (by omega)]

end DirectTrade.Library.SecureHash
