import SealedGroup.KeyPair.Basic

/-!
# Frames

The byte string that carries a key pair inside a sealed box: a version byte,
the 33 bytes of the compressed public key and the 32 bytes of the secret.
The length is checked before the version, and the version before the parts.

`Frame.decode_eq_ok_iff` says that each pair has exactly one frame and that
nothing else is read as one.
-/

namespace SealedGroup

namespace Frame

/-- The version byte that leads every frame. -/
def version : UInt8 := 1

/-- The bytes of a frame. -/
def size : Nat := 1 + PublicKey.compressedSize + Scalar.size

/-- The frame of a key pair. -/
def encode (pair : KeyPair) : Bytes :=
  version :: (pair.publicBytes ++ pair.secretBytes)

/-- **The key pair in a frame.** -/
def decode (frame : Bytes) : Except KeyPairError KeyPair :=
  if frame.length ≠ size then .error (.invalidFrame (.length size frame.length))
  else if frame.headD 0 ≠ version then .error (.invalidFrame (.version (frame.headD 0)))
  else
    KeyPair.ofParts (frame.tail.take PublicKey.compressedSize)
      (frame.tail.drop PublicKey.compressedSize)

@[simp] theorem length_encode (pair : KeyPair) : (encode pair).length = size := by
  simp only [encode, KeyPair.publicBytes, KeyPair.secretBytes, size, List.length_cons,
    List.length_append, PublicKey.length_compressed, Scalar.length_toBytes]
  omega

theorem decode_encode (pair : KeyPair) : decode (encode pair) = .ok pair := by
  have hpub : pair.publicBytes.length = PublicKey.compressedSize :=
    PublicKey.length_compressed _
  have htake : (encode pair).tail.take PublicKey.compressedSize = pair.publicBytes := by
    rw [encode, List.tail_cons, ← hpub, List.take_left]
  have hdrop : (encode pair).tail.drop PublicKey.compressedSize = pair.secretBytes := by
    rw [encode, List.tail_cons, ← hpub, List.drop_left]
  rw [decode, if_neg (fun h => h (length_encode pair)), if_neg (fun h => h rfl), htake, hdrop,
    KeyPair.ofParts_bytes]

theorem eq_encode_of_decode {frame : Bytes} {pair : KeyPair} (h : decode frame = .ok pair) :
    frame = encode pair := by
  unfold decode at h
  split at h
  · cases h
  · next hlen =>
    split at h
    · cases h
    · next hversion =>
      simp only [ne_eq, Decidable.not_not] at hlen hversion
      obtain ⟨hpub, hsec⟩ := KeyPair.bytes_of_ofParts h
      cases frame with
      | nil => exact absurd hlen (by decide)
      | cons byte parts =>
        rw [encode, hpub, hsec, List.take_append_drop]
        exact congrArg (· :: parts) hversion

/-- **Each pair has one frame**, and nothing else is read as one. -/
theorem decode_eq_ok_iff {frame : Bytes} {pair : KeyPair} :
    decode frame = .ok pair ↔ frame = encode pair :=
  ⟨eq_encode_of_decode, fun h => h ▸ decode_encode pair⟩

end Frame

end SealedGroup
