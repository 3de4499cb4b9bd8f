import SealedGroup.Proofs.Curve.Agreement
import SealedGroup.Proofs.Curve.Spelling
import SealedGroup.Proofs.KeyPair.Wrapping

/-!
# Opening what was sealed

A box that was sealed to the public key of a secret opens with that secret, since sender and
recipient agree on the key of the cipher. So whoever a wrapper was made for gets the pair out of
it (`Wrapper.unwrap_of_seals`).

The proof follows the box from its beginning to its end. It starts with a public key, the one of
the coins it was sealed with, in its uncompressed spelling, which reads back; then come a nonce
and a tag of fixed lengths, and the rest is the ciphertext. Once these are read off
(`SealedBox.decrypt_of_parts`), what is left is that both sides have put the same point into the
derivation of the cipher's key. That is `Scalar.scale_comm`, and it is the one place where the
group of the curve comes in. The tag that is recomputed is then the tag that was written, and
the text comes out as it went in, because a stream that is added twice cancels.

Of the wrapper itself there is nothing more to show than that the text is a frame, which reads
back as the pair. That a box does *not* open with any other secret is not claimed. It is a
matter of what the cipher withstands, and not of what the program does.
-/

namespace SealedGroup

namespace SealedBox

/-- A tag has the length of tags. -/
theorem length_tag (key nonce text : Bytes) :
    (Gcm.encrypt key nonce text).1.length = Gcm.tagSize := by
  unfold Gcm.encrypt Gcm.tag
  rw [Gcm.length_xor _ _ (by rw [Gcm.length_block, Bytes.length_ofNat]), Bytes.length_ofNat]
  rfl

theorem length_uncompressed (q : PublicKey) : q.uncompressed.length = keySize := by
  unfold PublicKey.uncompressed
  rw [List.length_cons, List.length_append, PublicKey.length_coordinateBytes,
    PublicKey.length_coordinateBytes]
  rfl

/-- Once its parts are read off, a box is a matter of the cipher. -/
theorem decrypt_of_parts {secretBytes box nonce tag ciphertext : Bytes} {secret : Scalar}
    {sender : PublicKey} (hsecret : Scalar.ofBytes secretBytes = .ok secret)
    (hlong : ¬box.length < keySize)
    (hsender : PublicKey.ofUncompressed? (box.take keySize) = some sender)
    (hlong' : ¬(box.drop keySize).length < Gcm.nonceSize + Gcm.tagSize)
    (hnonce : (box.drop keySize).take Gcm.nonceSize = nonce)
    (htag : ((box.drop keySize).drop Gcm.nonceSize).take Gcm.tagSize = tag)
    (hciphertext : (box.drop keySize).drop (Gcm.nonceSize + Gcm.tagSize) = ciphertext)
    {text : Bytes}
    (hopen : Gcm.decrypt (cipherKey sender (secret.scale sender)) nonce tag ciphertext =
      some text) :
    decrypt secretBytes box = .ok text := by
  unfold decrypt
  simp only [hsecret, if_neg hlong, hsender, if_neg hlong', hnonce, htag, hciphertext, hopen]

/-- **A box opens with the secret** to whose public key it was sealed. -/
theorem decrypt_encrypt (secret : Scalar) (coins : Coins) (text : Bytes) :
    decrypt secret.toBytes (encrypt secret.publicKey coins text) = .ok text := by
  have hagreed := Scalar.scale_comm coins.ephemeral secret
  have hkey := length_uncompressed coins.ephemeral.publicKey
  -- the sender scales our key by the ephemeral secret, and we scale its key by ours
  unfold encrypt
  dsimp only
  rw [hagreed]
  generalize coins.ephemeral.publicKey = sender at hkey ⊢
  have hopen := Gcm.decrypt_encrypt (cipherKey sender (secret.scale sender)) coins.nonce text
  have htag := length_tag (cipherKey sender (secret.scale sender)) coins.nonce text
  generalize Gcm.encrypt (cipherKey sender (secret.scale sender)) coins.nonce text = parts
    at hopen htag ⊢
  have hnonce := coins.length_nonce
  have hrest : (sender.uncompressed ++ (coins.nonce ++ (parts.1 ++ parts.2))).drop keySize =
      coins.nonce ++ (parts.1 ++ parts.2) := List.drop_left' hkey
  refine decrypt_of_parts (Scalar.ofBytes_toBytes secret) ?_ ?_ ?_ ?_ ?_ ?_ hopen
  · rw [List.length_append, hkey]
    omega
  · rw [List.take_left' hkey, PublicKey.ofUncompressed?_uncompressed]
  · rw [hrest, List.length_append, List.length_append, hnonce, htag]
    omega
  · rw [hrest, List.take_left' hnonce]
  · rw [hrest, List.drop_left' hnonce, List.take_left' htag]
  · rw [hrest, ← List.append_assoc]
    refine List.drop_left' ?_
    rw [List.length_append, hnonce, htag]

end SealedBox

namespace Wrapper

/-- Once the box of a wrapper is open, its frame is left to read. -/
theorem unwrap_of_decrypt {wrapper : Wrapper} {secret frame : Bytes}
    (h : SealedBox.decrypt secret wrapper.ciphertext = .ok frame) :
    wrapper.unwrap secret = Frame.decode frame := by
  unfold unwrap
  simp only [h]

/-- **A wrapper gives the pair to its recipient**, whoever holds the secret that
belongs to the recipient's identifier. -/
theorem unwrap_of_seals {pair : KeyPair} {recipient : Identifier} {wrapper : Wrapper}
    (h : Seals pair recipient wrapper) {secret : Scalar}
    (hsecret : recipient = Identifier.ofPublicKey secret.publicKey) :
    wrapper.unwrap secret.toBytes = .ok pair := by
  obtain ⟨key, coins, hkey, hwrapper⟩ := h.exists_key
  rw [hsecret, Identifier.publicKey_ofPublicKey] at hkey
  have hbox : SealedBox.decrypt secret.toBytes wrapper.ciphertext =
      .ok (Frame.encode pair) := by
    rw [hwrapper, ← Except.ok.inj hkey]
    exact SealedBox.decrypt_encrypt secret coins (Frame.encode pair)
  exact (unwrap_of_decrypt hbox).trans (Frame.decode_encode pair)

end Wrapper

end SealedGroup
