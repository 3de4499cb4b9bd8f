import SealedGroup.Bytes

/-!
# SHA-256

The hash function of FIPS 180-4 with 256-bit digests. A message is padded to
whole blocks of 64 bytes; each block is expanded to 64 words, and 64 rounds
mix them into eight words of chaining value.

Everything is a fold: over the blocks of the message, over the word
positions of a schedule, over the rounds of a block.
-/

namespace SealedGroup

namespace Sha256

/-- The bytes of a block. -/
def blockSize : Nat := 64

/-- The bytes of a digest. -/
def digestSize : Nat := 32

/-- The word turned right by `k` places, `0 < k < 32`. -/
def rotr (x : UInt32) (k : UInt32) : UInt32 :=
  (x >>> k) ||| (x <<< (32 - k))

/-- The first thirty-two bits of the fractional parts of the cube roots of
the first sixty-four primes. -/
def roundConstants : List UInt32 :=
  [0x428a2f98, 0x71374491, 0xb5c0fbcf, 0xe9b5dba5, 0x3956c25b, 0x59f111f1, 0x923f82a4, 0xab1c5ed5,
   0xd807aa98, 0x12835b01, 0x243185be, 0x550c7dc3, 0x72be5d74, 0x80deb1fe, 0x9bdc06a7, 0xc19bf174,
   0xe49b69c1, 0xefbe4786, 0x0fc19dc6, 0x240ca1cc, 0x2de92c6f, 0x4a7484aa, 0x5cb0a9dc, 0x76f988da,
   0x983e5152, 0xa831c66d, 0xb00327c8, 0xbf597fc7, 0xc6e00bf3, 0xd5a79147, 0x06ca6351, 0x14292967,
   0x27b70a85, 0x2e1b2138, 0x4d2c6dfc, 0x53380d13, 0x650a7354, 0x766a0abb, 0x81c2c92e, 0x92722c85,
   0xa2bfe8a1, 0xa81a664b, 0xc24b8b70, 0xc76c51a3, 0xd192e819, 0xd6990624, 0xf40e3585, 0x106aa070,
   0x19a4c116, 0x1e376c08, 0x2748774c, 0x34b0bcb5, 0x391c0cb3, 0x4ed8aa4a, 0x5b9cca4f, 0x682e6ff3,
   0x748f82ee, 0x78a5636f, 0x84c87814, 0x8cc70208, 0x90befffa, 0xa4506ceb, 0xbef9a3f7, 0xc67178f2]

/-- The chaining value: eight words. -/
structure Chain where
  a : UInt32
  b : UInt32
  c : UInt32
  d : UInt32
  e : UInt32
  f : UInt32
  g : UInt32
  h : UInt32
  deriving DecidableEq, Repr

namespace Chain

/-- The first thirty-two bits of the fractional parts of the square roots of
the first eight primes. -/
def start : Chain :=
  ⟨0x6a09e667, 0xbb67ae85, 0x3c6ef372, 0xa54ff53a, 0x510e527f, 0x9b05688c, 0x1f83d9ab, 0x5be0cd19⟩

/-- One round, with the sum of its constant and its schedule word. -/
def round (s : Chain) (input : UInt32) : Chain :=
  let choice := (s.e &&& s.f) ^^^ (~~~s.e &&& s.g)
  let t₁ := s.h + (rotr s.e 6 ^^^ rotr s.e 11 ^^^ rotr s.e 25) + choice + input
  let majority := (s.a &&& s.b) ^^^ (s.a &&& s.c) ^^^ (s.b &&& s.c)
  let t₂ := (rotr s.a 2 ^^^ rotr s.a 13 ^^^ rotr s.a 22) + majority
  ⟨t₁ + t₂, s.a, s.b, s.c, s.d + t₁, s.e, s.f, s.g⟩

/-- The wordwise sum of two chaining values. -/
def add (s t : Chain) : Chain :=
  ⟨s.a + t.a, s.b + t.b, s.c + t.c, s.d + t.d, s.e + t.e, s.f + t.f, s.g + t.g, s.h + t.h⟩

/-- The words of a chaining value, in order. -/
def words (s : Chain) : List UInt32 :=
  [s.a, s.b, s.c, s.d, s.e, s.f, s.g, s.h]

end Chain

/-- Word `i` of a block, read big-endian. -/
def blockWord (block : Bytes) (i : Nat) : UInt32 :=
  UInt32.ofNat (Bytes.toNat ((block.drop (4 * i)).take 4))

/-- The schedule with one more word, made from the sixteen before it. -/
def extend (w : Array UInt32) (t : Nat) : Array UInt32 :=
  let near := w.getD (t - 2) 0
  let far := w.getD (t - 15) 0
  let σ₁ := rotr near 17 ^^^ rotr near 19 ^^^ (near >>> 10)
  let σ₀ := rotr far 7 ^^^ rotr far 18 ^^^ (far >>> 3)
  w.push (σ₁ + w.getD (t - 7) 0 + σ₀ + w.getD (t - 16) 0)

/-- The sixty-four words a block is expanded to. -/
def schedule (block : Bytes) : Array UInt32 :=
  (List.range' 16 48).foldl extend ((List.range 16).map (blockWord block)).toArray

/-- The chaining value after one block. -/
def compress (s : Chain) (block : Bytes) : Chain :=
  s.add ((List.zipWith (· + ·) roundConstants (schedule block).toList).foldl Chain.round s)

/-- The message with its padding: a one bit, zeros, and its length in bits. -/
def pad (message : Bytes) : Bytes :=
  message ++ [0x80] ++ Bytes.padding blockSize (message.length + 9) ++
    Bytes.ofNat 8 (8 * message.length)

/-- **The digest of a message.** -/
def hash (message : Bytes) : Bytes :=
  ((Bytes.chunks blockSize (pad message)).foldl compress Chain.start).words.flatMap
    fun w => Bytes.ofNat 4 w.toNat

end Sha256

end SealedGroup
