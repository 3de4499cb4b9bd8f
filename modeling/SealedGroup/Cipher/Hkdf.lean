import SealedGroup.Cipher.Sha256

/-!
# Key derivation

The extract-and-expand construction over HMAC-SHA-256. `Hkdf.derive` turns
input keying material into a key of at most `255 * 32` bytes; a salt that is
not given is the empty one, which HMAC pads to zeros.
-/

namespace SealedGroup

/-- The keyed hash of a message. A key longer than a block is hashed first. -/
def hmac (key message : Bytes) : Bytes :=
  let short := if key.length ≤ Sha256.blockSize then key else Sha256.hash key
  let block := short ++ List.replicate (Sha256.blockSize - short.length) 0
  Sha256.hash (block.map (· ^^^ 0x5c) ++ Sha256.hash (block.map (· ^^^ 0x36) ++ message))

namespace Hkdf

/-- The uniform key inside the keying material. -/
def extract (salt material : Bytes) : Bytes :=
  hmac salt material

/-- The first `count` blocks of output, numbered from `index`; each block is
keyed by the extracted key and covers the block before it. -/
def blocks (key info : Bytes) : (count index : Nat) → (before : Bytes) → Bytes
  | 0, _, _ => []
  | count + 1, index, before =>
    let block := hmac key (before ++ info ++ [UInt8.ofNat index])
    block ++ blocks key info count (index + 1) block

/-- **The key of `length` bytes** derived from keying material. -/
def derive (salt material info : Bytes) (length : Nat) : Bytes :=
  let count := (length + Sha256.digestSize - 1) / Sha256.digestSize
  (blocks (extract salt material) info count 1 []).take length

end Hkdf

end SealedGroup
