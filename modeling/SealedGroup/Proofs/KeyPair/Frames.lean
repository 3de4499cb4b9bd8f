import SealedGroup.KeyPair.Frame
import SealedGroup.Proofs.KeyPair.Parts

/-!
# One frame for each key pair

Inside a wrapper a pair travels as a frame, a byte string of fixed length. A frame spells a
number in its last 32 bytes and a key in the 33 bytes before them, and it holds a pair if the
key is that multiple of the base point, in the group of the curve. In front of both stands a
version.

`Frame.Reads` says what a byte string is read as, in the order in which its parts are looked at:
the length, the version, the number and the key. There is one constructor for each thing that
can be found, and each of them says what all the earlier looks have found, so that no byte
string has two readings. So a pair is spelled by one frame and no other byte string is read as
one, and a pair is known by its secret (`Frame.each_pair_has_one_frame`).

The key in a frame is redundant, and it is this redundancy that makes a frame hard to mistake:
of the byte strings with a given number one is a frame, and a key that does not belong to its
number is an error of its own. It is compared with the multiple that the number has in the group
of the curve, by way of `KeyPair.ofParts_eq_iff`, and not just with what the program computes
for it.
-/

namespace SealedGroup

namespace Frame

/-- The bytes of a frame that spell the public key. -/
def publicPart (frame : Bytes) : Bytes := (frame.drop 1).take 33

/-- The number that the last bytes of a frame spell. -/
def number (frame : Bytes) : ℕ := Bytes.toNat (frame.drop 34)

/-- **What a byte string is read as**, by its length, its version byte, the number that it spells
and the multiple of the base point by that number. -/
inductive Reads (frame : Bytes) : Except KeyPairError KeyPair → Prop where
  | length (hlength : frame.length ≠ 66) :
      Reads frame (.error (.invalidFrame (.length 66 frame.length)))
  | version {byte : UInt8} (hlength : frame.length = 66) (hhead : frame.head? = some byte)
      (hversion : byte ≠ 1) : Reads frame (.error (.invalidFrame (.version byte)))
  | range (hlength : frame.length = 66) (hhead : frame.head? = some 1)
      (hrange : ¬(0 < number frame ∧ number frame < groupOrder)) :
      Reads frame (.error (.invalidKey (.secret .range)))
  | mismatch {q : PublicKey} (hlength : frame.length = 66) (hhead : frame.head? = some 1)
      (hpos : 0 < number frame) (hlt : number frame < groupOrder)
      (hpoint : q.point = number frame • PublicKey.generator.point)
      (hpublic : publicPart frame ≠ q.compressed) : Reads frame (.error (.invalidKey .mismatch))
  | pair {pair : KeyPair} (hlength : frame.length = 66) (hhead : frame.head? = some 1)
      (hsecret : pair.secret.val = number frame)
      (hpublic : publicPart frame = pair.publicKey.compressed) : Reads frame (.ok pair)

section

variable {frame : Bytes}

/-- A byte string of another length is not looked at. -/
theorem decode_of_length (hlength : frame.length ≠ 66) :
    decode frame = .error (.invalidFrame (.length 66 frame.length)) :=
  if_pos hlength

/-- The version byte of a frame comes before its parts. -/
theorem decode_of_head {byte : UInt8} (hlength : frame.length = 66)
    (hhead : frame.head? = some byte) :
    decode frame = if byte ≠ 1 then .error (.invalidFrame (.version byte))
      else KeyPair.ofParts (publicPart frame) (frame.drop 34) := by
  cases frame with
  | nil => cases hhead
  | cons first parts =>
    cases hhead
    have hsize : (byte :: parts).length = size := hlength
    unfold decode
    rw [if_neg (not_not_intro hsize)]
    rfl

/-- The last bytes are as long as a secret. -/
theorem length_drop (hlength : frame.length = 66) : (frame.drop 34).length = Scalar.size := by
  rw [List.length_drop, hlength]
  rfl

/-- **Every byte string is read** in one of these ways. -/
theorem reads_decode (frame : Bytes) : Reads frame (decode frame) := by
  by_cases hlength : frame.length = 66
  · obtain ⟨byte, hhead⟩ : ∃ byte, frame.head? = some byte :=
      Option.isSome_iff_exists.mp (List.isSome_head?.mpr fun hnil => by simp [hnil] at hlength)
    by_cases hversion : byte = 1
    · subst hversion
      rw [decode_of_head hlength hhead, if_neg (not_not_intro rfl)]
      have hmakes := KeyPair.makes_ofParts (publicPart frame) (frame.drop 34)
      generalize KeyPair.ofParts (publicPart frame) (frame.drop 34) = result at hmakes ⊢
      cases hmakes with
      | length hwrong => exact absurd (length_drop hlength) hwrong
      | range _ hrange => exact .range hlength hhead hrange
      | mismatch _ hpos hlt hpoint hpublic =>
        exact .mismatch hlength hhead hpos hlt hpoint hpublic
      | pair _ hsecret hpublic => exact .pair hlength hhead hsecret hpublic
    · rw [decode_of_head hlength hhead, if_pos hversion]
      exact .version hlength hhead hversion
  · rw [decode_of_length hlength]
    exact .length hlength

/-- A byte string of the right length and version is read as its parts are. -/
theorem decode_of_makes {result : Except KeyPairError KeyPair} (hlength : frame.length = 66)
    (hhead : frame.head? = some 1)
    (hmakes : KeyPair.Makes (publicPart frame) (frame.drop 34) result) :
    decode frame = result := by
  rw [decode_of_head hlength hhead, if_neg (not_not_intro rfl), KeyPair.ofParts_eq_iff.mpr hmakes]

/-- **A byte string is read in one way** only. -/
theorem decode_eq_iff {result : Except KeyPairError KeyPair} :
    decode frame = result ↔ Reads frame result := by
  refine ⟨fun h => h ▸ reads_decode frame, fun h => ?_⟩
  cases h with
  | length hlength => exact decode_of_length hlength
  | version hlength hhead hversion => rw [decode_of_head hlength hhead, if_pos hversion]
  | range hlength hhead hrange =>
    exact decode_of_makes hlength hhead (.range (length_drop hlength) hrange)
  | mismatch hlength hhead hpos hlt hpoint hpublic =>
    exact decode_of_makes hlength hhead (.mismatch (length_drop hlength) hpos hlt hpoint hpublic)
  | pair hlength hhead hsecret hpublic =>
    exact decode_of_makes hlength hhead (.pair (length_drop hlength) hsecret hpublic)

/-- **Which byte strings hold a pair.** -/
theorem exists_decode_iff :
    (∃ pair, decode frame = .ok pair) ↔
      frame.length = 66 ∧ frame.head? = some 1 ∧
        0 < number frame ∧ number frame < groupOrder ∧
        ∃ q : PublicKey, q.point = number frame • PublicKey.generator.point ∧
          publicPart frame = q.compressed := by
  constructor
  · rintro ⟨pair, h⟩
    cases decode_eq_iff.mp h with
    | pair hlength hhead hsecret hpublic =>
      exact ⟨hlength, hhead, hsecret ▸ pair.secret.pos, hsecret ▸ pair.secret.lt,
        pair.publicKey, hsecret ▸ pair.point_publicKey, hpublic⟩
  · rintro ⟨hlength, hhead, hparts⟩
    obtain ⟨pair, hpair⟩ := KeyPair.exists_ofParts_iff.mpr ⟨length_drop hlength, hparts⟩
    exact ⟨pair, decode_of_makes hlength hhead (KeyPair.ofParts_eq_iff.mp hpair)⟩

end

/-- **Each pair has one frame.** Reading takes back what was written. A byte string holds a pair
exactly if it is 66 bytes long, starts with the version, spells a number in range in its last 32
bytes and the multiple of the base point by that number before them, and then it is the frame of
that pair. Any other is an invalid frame if its length or its version is wrong, the length
being looked at first, and holds an invalid key otherwise, the secret being looked at before
the match. So the halves of a pair that was read match, and a pair is known by its secret. -/
theorem each_pair_has_one_frame :
    (∀ pair, decode (encode pair) = .ok pair) ∧
    (∀ frame, (∃ pair, decode frame = .ok pair) ↔
      frame.length = 66 ∧ frame.head? = some 1 ∧
        0 < number frame ∧ number frame < groupOrder ∧
        ∃ q : PublicKey, q.point = number frame • PublicKey.generator.point ∧
          publicPart frame = q.compressed) ∧
    (∀ frame pair, decode frame = .ok pair → encode pair = frame ∧
      pair.publicKey.point = pair.secret.val • PublicKey.generator.point) ∧
    (∀ frame result, decode frame = result ↔ Reads frame result) ∧
    ∀ p q : KeyPair, (p = q ↔ p.secret = q.secret) ∧
      (p = q ↔ p.publicBytes = q.publicBytes ∧ p.secretBytes = q.secretBytes) := by
  refine ⟨decode_encode, fun _ => exists_decode_iff, ?_, fun _ _ => decode_eq_iff,
    fun _ _ => ⟨KeyPair.eq_iff_secret, KeyPair.eq_iff_bytes⟩⟩
  exact fun frame pair h => ⟨(eq_encode_of_decode h).symm, pair.point_publicKey⟩

end Frame

end SealedGroup
