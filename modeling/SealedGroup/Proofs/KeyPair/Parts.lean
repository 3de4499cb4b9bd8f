import SealedGroup.KeyPair.Basic
import SealedGroup.Proofs.Curve.Agreement

/-!
# The parts of a key pair

A pair is made of two byte strings: the secret part spells a number, and the public part spells
the multiple of the base point by that number, in the group of the curve. `KeyPair.Makes` says
what two byte strings make, in the order in which they are looked at: the length of the secret
part, its number, and then the public part.

Whatever spells a pair is cut into its parts first, be it a frame, two texts or the two byte
strings of an invitation, and so `KeyPair.ofParts_eq_iff` is where all of them get the pair, or
the error, from. It is an equivalence for every result, errors included. One direction says that
any two byte strings make something, the other that they make one thing only.

The definition of a pair carries its own condition: a pair is a secret together with a key, and
the key is the one that the program computes for the secret. What is added here is that the
program computes the right one. By `Scalar.point_publicKey` the key is the multiple of the base
point in Mathlib's group of the curve (`KeyPair.point_publicKey`), so that neither
`KeyPair.Makes` nor anything that is stated with it refers to a computation. A pair is
determined by its secret, and by its two byte strings (`KeyPair.eq_iff_bytes`).
-/

namespace SealedGroup

namespace Scalar

variable {bs : Bytes}

/-- A byte string of another length is no secret. -/
theorem ofBytes_of_length (hlength : bs.length ≠ size) : ofBytes bs = .error .length :=
  if_pos hlength

/-- A byte string of the right length spells the secret whose number it spells. -/
theorem ofBytes_of_toNat {s : Scalar} (hlength : bs.length = size)
    (hval : s.val = Bytes.toNat bs) : ofBytes bs = .ok s := by
  have hrange : 0 < Bytes.toNat bs ∧ Bytes.toNat bs < groupOrder := hval ▸ ⟨s.pos, s.lt⟩
  unfold ofBytes
  rw [if_neg (not_not_intro hlength), dif_pos hrange]
  exact congrArg Except.ok (ext hval.symm)

/-- A number out of range is no secret. -/
theorem ofBytes_of_range (hlength : bs.length = size)
    (hrange : ¬(0 < Bytes.toNat bs ∧ Bytes.toNat bs < groupOrder)) :
    ofBytes bs = .error .range := by
  unfold ofBytes
  rw [if_neg (not_not_intro hlength), dif_neg hrange]

end Scalar

namespace KeyPair

/-- **The halves of a pair match**: the public key is the multiple of the base point by the
secret. -/
theorem point_publicKey (pair : KeyPair) :
    pair.publicKey.point = pair.secret.val • PublicKey.generator.point :=
  Scalar.eq_publicKey_iff.mp pair.matched

/-- A pair is known by its secret. -/
theorem eq_iff_secret {p q : KeyPair} : p = q ↔ p.secret = q.secret :=
  ⟨congrArg secret, ext⟩

/-- A pair is known by its bytes. -/
theorem eq_iff_bytes {p q : KeyPair} :
    p = q ↔ p.publicBytes = q.publicBytes ∧ p.secretBytes = q.secretBytes := by
  refine ⟨fun h => h ▸ ⟨rfl, rfl⟩, fun ⟨_, hsecret⟩ => ext ?_⟩
  have hread := Scalar.ofBytes_toBytes p.secret
  rw [show p.secret.toBytes = q.secret.toBytes from hsecret, Scalar.ofBytes_toBytes] at hread
  exact (Except.ok.inj hread).symm

/-- **What two parts make**, by the length of the secret part, the number that it spells and the
multiple of the base point by that number. -/
inductive Makes (publicPart secretPart : Bytes) : Except KeyPairError KeyPair → Prop where
  | length (hlength : secretPart.length ≠ 32) :
      Makes publicPart secretPart (.error (.invalidKey (.secret .length)))
  | range (hlength : secretPart.length = 32)
      (hrange : ¬(0 < Bytes.toNat secretPart ∧ Bytes.toNat secretPart < groupOrder)) :
      Makes publicPart secretPart (.error (.invalidKey (.secret .range)))
  | mismatch {q : PublicKey} (hlength : secretPart.length = 32)
      (hpos : 0 < Bytes.toNat secretPart) (hlt : Bytes.toNat secretPart < groupOrder)
      (hpoint : q.point = Bytes.toNat secretPart • PublicKey.generator.point)
      (hpublic : publicPart ≠ q.compressed) :
      Makes publicPart secretPart (.error (.invalidKey .mismatch))
  | pair {pair : KeyPair} (hlength : secretPart.length = 32)
      (hsecret : pair.secret.val = Bytes.toNat secretPart)
      (hpublic : publicPart = pair.publicKey.compressed) : Makes publicPart secretPart (.ok pair)

variable {publicPart secretPart : Bytes}

/-- **A secret that is read** leaves the public part to be compared. -/
theorem ofParts_of_secret {s : Scalar} (hlength : secretPart.length = 32)
    (hval : s.val = Bytes.toNat secretPart) : ofParts publicPart secretPart =
      if s.publicKey.compressed = publicPart then .ok (ofSecret s)
      else .error (.invalidKey .mismatch) :=
  ofParts_of_ofBytes (Scalar.ofBytes_of_toNat hlength hval) publicPart

/-- A secret part that is no secret is not compared with anything. -/
theorem ofParts_of_invalid {cause : Scalar.Invalid}
    (h : Scalar.ofBytes secretPart = .error cause) :
    ofParts publicPart secretPart = .error (.invalidKey (.secret cause)) := by
  unfold ofParts
  rw [h]

/-- **Any two byte strings** make something. -/
theorem makes_ofParts (publicPart secretPart : Bytes) :
    Makes publicPart secretPart (ofParts publicPart secretPart) := by
  by_cases hlength : secretPart.length = 32
  · by_cases hrange : 0 < Bytes.toNat secretPart ∧ Bytes.toNat secretPart < groupOrder
    · have hval : (⟨_, hrange.1, hrange.2⟩ : Scalar).val = Bytes.toNat secretPart := rfl
      generalize (⟨_, hrange.1, hrange.2⟩ : Scalar) = s at hval
      rw [ofParts_of_secret hlength hval]
      split
      · next hpublic => exact .pair hlength hval hpublic.symm
      · next hpublic =>
        exact .mismatch hlength hrange.1 hrange.2 (hval ▸ s.point_publicKey) (Ne.symm hpublic)
    · rw [ofParts_of_invalid (Scalar.ofBytes_of_range hlength hrange)]
      exact .range hlength hrange
  · rw [ofParts_of_invalid (Scalar.ofBytes_of_length hlength)]
    exact .length hlength

/-- **They make one thing** only. -/
theorem ofParts_eq_iff {result : Except KeyPairError KeyPair} :
    ofParts publicPart secretPart = result ↔ Makes publicPart secretPart result := by
  refine ⟨fun h => h ▸ makes_ofParts publicPart secretPart, fun h => ?_⟩
  cases h with
  | length hlength => exact ofParts_of_invalid (Scalar.ofBytes_of_length hlength)
  | range hlength hrange => exact ofParts_of_invalid (Scalar.ofBytes_of_range hlength hrange)
  | @mismatch q hlength hpos hlt hpoint hpublic =>
    -- the key that is compared is the one with the point in question
    have hkey : q = (⟨Bytes.toNat secretPart, hpos, hlt⟩ : Scalar).publicKey :=
      Scalar.eq_publicKey_iff.mpr hpoint
    rw [ofParts_of_secret (s := ⟨Bytes.toNat secretPart, hpos, hlt⟩) hlength rfl, ← hkey,
      if_neg (Ne.symm hpublic)]
  | @pair pair hlength hsecret hpublic =>
    rw [ofParts_of_secret hlength hsecret, ← pair.matched, if_pos hpublic.symm, ofSecret_secret]

/-- **Which byte strings make a pair.** -/
theorem exists_ofParts_iff :
    (∃ pair, ofParts publicPart secretPart = .ok pair) ↔
      secretPart.length = 32 ∧ 0 < Bytes.toNat secretPart ∧
        Bytes.toNat secretPart < groupOrder ∧
        ∃ q : PublicKey, q.point = Bytes.toNat secretPart • PublicKey.generator.point ∧
          publicPart = q.compressed := by
  constructor
  · rintro ⟨pair, h⟩
    cases ofParts_eq_iff.mp h with
    | pair hlength hsecret hpublic =>
      exact ⟨hlength, hsecret ▸ pair.secret.pos, hsecret ▸ pair.secret.lt, pair.publicKey,
        hsecret ▸ pair.point_publicKey, hpublic⟩
  · rintro ⟨hlength, hpos, hlt, q, hpoint, hpublic⟩
    have hkey := Scalar.eq_publicKey_iff (s := ⟨_, hpos, hlt⟩).mpr hpoint
    exact ⟨.ofSecret ⟨_, hpos, hlt⟩,
      ofParts_eq_iff.mpr (.pair hlength rfl (hpublic.trans (congrArg _ hkey)))⟩

end KeyPair

end SealedGroup
