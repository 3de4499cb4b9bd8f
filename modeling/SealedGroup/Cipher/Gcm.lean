import SealedGroup.Cipher.Aes

/-!
# Authenticated encryption

AES-256 in Galois counter mode with sixteen-byte nonces, sixteen-byte tags
and no associated data. A nonce of this length is hashed to the first
counter block; the counter after it starts the key stream, and the tag
covers the ciphertext and its length.

`Gcm.decrypt_encrypt` says that an encrypted text opens under the key and nonce it
was encrypted with.
-/

namespace SealedGroup

namespace Gcm

/-- The bytes of a tag. -/
def tagSize : Nat := 16

/-- The bytes of a nonce. -/
def nonceSize : Nat := 16

/-- A block as a polynomial over two elements; the first bit of the block is
the constant term and the most significant bit here. -/
abbrev Poly := BitVec 128

/-- The polynomial of a block. -/
def Poly.ofBytes (bs : Bytes) : Poly :=
  BitVec.ofNat 128 (Bytes.toNat bs)

/-- The product of two polynomials modulo `x^128 + x^7 + x^2 + x + 1`. -/
def multiply (x y : Poly) : Poly :=
  ((List.range 128).foldl
    (fun (acc : Poly × Poly) i =>
      (if x.getMsbD i then acc.1 ^^^ acc.2 else acc.1,
        (acc.2 >>> 1) ^^^ (if acc.2.getLsbD 0 then BitVec.ofNat 128 (0xe1 <<< 120) else 0)))
    (0, y)).1

/-- The universal hash of whole blocks under the hash key `h`. -/
def ghash (h : Poly) (bs : Bytes) : Poly :=
  (Bytes.chunks 16 bs).foldl (fun acc block => multiply (acc ^^^ Poly.ofBytes block) h) 0

/-- A byte string filled up with zeros to whole blocks. -/
def padded (bs : Bytes) : Bytes :=
  bs ++ Bytes.padding 16 bs.length

/-- The block cipher under fixed round keys, on byte strings. -/
def block (keys : List Aes.Block) (bs : Bytes) : Bytes :=
  (Aes.encipher keys (Aes.Block.ofBytes bs)).toList

/-- The hash key: the zero block enciphered. -/
def hashKey (keys : List Aes.Block) : Poly :=
  Poly.ofBytes (block keys (List.replicate 16 0))

/-- The first counter block of a nonce that is not twelve bytes long. -/
def firstCounter (h : Poly) (nonce : Bytes) : Bytes :=
  Bytes.ofNat 16 (ghash h (padded nonce ++ Bytes.ofNat 16 (8 * nonce.length))).toNat

/-- The counter block `k` steps on: the last four bytes count, and wrap. -/
def counterAfter (counter : Bytes) (k : Nat) : Bytes :=
  counter.take 12 ++ Bytes.ofNat 4 (Bytes.toNat (counter.drop 12) + k)

/-- As many bytes of key stream as there are in `length`. -/
def keyStream (keys : List Aes.Block) (counter : Bytes) (length : Nat) : Bytes :=
  ((List.range ((length + 15) / 16)).flatMap
    fun i => block keys (counterAfter counter (i + 1))).take length

/-- The tag of a ciphertext. -/
def tag (keys : List Aes.Block) (h : Poly) (counter ciphertext : Bytes) : Bytes :=
  Bytes.xor
    (Bytes.ofNat 16
      (ghash h (padded ciphertext ++ Bytes.ofNat 16 (8 * ciphertext.length))).toNat)
    (block keys counter)

/-- The tag and the ciphertext of a text. -/
def encrypt (key nonce text : Bytes) : Bytes × Bytes :=
  let keys := Aes.roundKeys key
  let h := hashKey keys
  let counter := firstCounter h nonce
  let ciphertext := Bytes.xor text (keyStream keys counter text.length)
  (tag keys h counter ciphertext, ciphertext)

/-- **The text of a ciphertext**, if the tag is its tag. -/
def decrypt (key nonce expected ciphertext : Bytes) : Option Bytes :=
  let keys := Aes.roundKeys key
  let h := hashKey keys
  let counter := firstCounter h nonce
  if tag keys h counter ciphertext = expected then
    some (Bytes.xor ciphertext (keyStream keys counter ciphertext.length))
  else none

@[simp] theorem length_block (keys : List Aes.Block) (bs : Bytes) :
    (block keys bs).length = 16 := by
  simp [block]

@[simp] theorem length_keyStream (keys : List Aes.Block) (counter : Bytes) (length : Nat) :
    (keyStream keys counter length).length = length := by
  have hsum : ∀ n, ((List.range n).flatMap
      fun i => block keys (counterAfter counter (i + 1))).length = 16 * n := by
    intro n
    induction n with
    | zero => rfl
    | succ n ih => simp [List.range_succ, List.flatMap_append, ih]; omega
  rw [keyStream, List.length_take, hsum]
  omega

/-- Adding the same mask twice changes nothing. -/
theorem xor_xor_cancel (text mask : Bytes) (h : mask.length = text.length) :
    Bytes.xor (Bytes.xor text mask) mask = text := by
  induction text generalizing mask with
  | nil => rfl
  | cons a text ih =>
    match mask with
    | [] => simp at h
    | m :: mask =>
      have htail := ih mask (by simpa using h)
      simp only [Bytes.xor, List.zipWith_cons_cons] at htail ⊢
      rw [htail, UInt8.xor_assoc, UInt8.xor_self, UInt8.xor_zero]

theorem length_xor (text mask : Bytes) (h : mask.length = text.length) :
    (Bytes.xor text mask).length = text.length := by
  simp [Bytes.xor, h]

/-- **An encrypted text opens** under its key and nonce. -/
theorem decrypt_encrypt (key nonce text : Bytes) :
    decrypt key nonce (encrypt key nonce text).1 (encrypt key nonce text).2 = some text := by
  have hlen := length_keyStream (Aes.roundKeys key)
    (firstCounter (hashKey (Aes.roundKeys key)) nonce) text.length
  simp only [decrypt, encrypt, if_true]
  rw [length_xor _ _ hlen, xor_xor_cancel _ _ hlen]

end Gcm

end SealedGroup
