import SealedGroup.Bytes

/-!
# AES-256

The block cipher of FIPS 197 with 32-byte keys, in the encrypting direction
only: counter mode needs no other. A block is sixteen bytes, column by
column. The substitution box is computed from its definition – inversion in
the field of 256 elements and an affine map – and tabulated once.
-/

namespace SealedGroup

namespace Aes

/-- A block: four columns of four bytes. -/
abbrev Block := Vector UInt8 16

/-- The product with `x` in the field of 256 elements. -/
def double (a : UInt8) : UInt8 :=
  (a <<< 1) ^^^ (if a &&& 0x80 = 0 then 0 else 0x1b)

/-- The product in the field of 256 elements. -/
def multiply (a b : UInt8) : UInt8 :=
  ((List.range 8).foldl
    (fun (acc : UInt8 × UInt8) i =>
      (if b.toNat.testBit i then acc.1 ^^^ acc.2 else acc.1, double acc.2))
    (0, a)).1

/-- The inverse in the field of 256 elements: the power 254, and zero for
zero. -/
def inverse (a : UInt8) : UInt8 :=
  let a₂ := multiply a a
  let a₄ := multiply a₂ a₂
  let a₈ := multiply a₄ a₄
  let a₁₆ := multiply a₈ a₈
  let a₃₂ := multiply a₁₆ a₁₆
  let a₆₄ := multiply a₃₂ a₃₂
  let a₁₂₈ := multiply a₆₄ a₆₄
  multiply a₂ (multiply a₄ (multiply a₈ (multiply a₁₆ (multiply a₃₂ (multiply a₆₄ a₁₂₈)))))

/-- The byte turned left by `k` places, `0 < k < 8`. -/
def rotl (a k : UInt8) : UInt8 :=
  (a <<< k) ||| (a >>> (8 - k))

/-- The affine map that follows inversion in the substitution box. -/
def affine (a : UInt8) : UInt8 :=
  a ^^^ rotl a 1 ^^^ rotl a 2 ^^^ rotl a 3 ^^^ rotl a 4 ^^^ 0x63

/-- The substitution box. -/
def sbox : Vector UInt8 256 :=
  Vector.ofFn fun i => affine (inverse (UInt8.ofNat i.val))

/-- The byte that stands for `a` in the substitution box. -/
def substitute (a : UInt8) : UInt8 :=
  sbox.get ⟨a.toNat, a.toNat_lt⟩

/-- Byte `i` of a byte string, zero past its end. -/
def byteAt (bs : Bytes) (i : Nat) : UInt8 :=
  bs.getD i 0

/-- The block a byte string begins with, filled up with zeros. -/
def Block.ofBytes (bs : Bytes) : Block :=
  Vector.ofFn fun i => byteAt bs i.val

/-- The bytewise exclusive or of two blocks. -/
def Block.xor (a b : Block) : Block :=
  Vector.zipWith (· ^^^ ·) a b

/-- The rounds after the first key addition. -/
def rounds : Nat := 14

/-- The next word of the key schedule, for position `i`: the word eight back
plus the word before, which is turned and substituted at every eighth
position and substituted half-way between. -/
def scheduleWord (i : Nat) (back before : Bytes) : Bytes :=
  let mixed :=
    if i % 8 = 0 then
      let turned := (before.drop 1 ++ before.take 1).map substitute
      Bytes.xor turned [UInt8.ofNat (1 <<< (i / 8 - 1)), 0, 0, 0]
    else if i % 8 = 4 then before.map substitute
    else before
  Bytes.xor back mixed

/-- The round keys of a 32-byte key, one block for each key addition. -/
def roundKeys (key : Bytes) : List Block :=
  let words := (List.range' 8 (4 * (rounds + 1) - 8)).foldl
    (fun (w : Array Bytes) i => w.push (scheduleWord i (w.getD (i - 8) []) (w.getD (i - 1) [])))
    (Bytes.chunks 4 key).toArray
  (Bytes.chunks 16 words.toList.flatten).map Block.ofBytes

/-- Row `r` of the block turned left by `r` columns. -/
def shiftRows (s : Block) : Block :=
  Vector.ofFn fun i => s.get ⟨4 * ((i.val / 4 + i.val % 4) % 4) + i.val % 4, by omega⟩

/-- Each column multiplied by the fixed circulant matrix `2, 3, 1, 1`. -/
def mixColumns (s : Block) : Block :=
  Vector.ofFn fun i =>
    let at_ (k : Nat) : UInt8 := s.get ⟨4 * (i.val / 4) + (i.val + k) % 4, by omega⟩
    double (at_ 0) ^^^ double (at_ 1) ^^^ at_ 1 ^^^ at_ 2 ^^^ at_ 3

/-- The rounds under the remaining keys; the last one mixes no columns. -/
def runRounds : List Block → Block → Block
  | [], s => s
  | [last], s => (shiftRows (s.map substitute)).xor last
  | key :: rest, s => runRounds rest ((mixColumns (shiftRows (s.map substitute))).xor key)

/-- **The block enciphered** under the given round keys. -/
def encipher (keys : List Block) (s : Block) : Block :=
  match keys with
  | [] => s
  | whitening :: rest => runRounds rest (s.xor whitening)

end Aes

end SealedGroup
