import Mathlib.GroupTheory.OrderOfElement
import SealedGroup.Proofs.Curve.Points

/-!
# Key agreement

A box is sealed to a public key with a secret of the sender, and opened with the secret behind
the public key and the sender's own public key. Both sides compute a multiple of a point, and
all that encryption needs of the curve is that these are the same: `s (t G) = t (s G)`.

As an identity of the group this is one line. What it takes to have it of the *program* is that
neither side ever falls off the curve. `Scalar.scale` gives a key back and has no way to fail,
although a multiple of a point may be zero, and zero is no key; so one has to know that this
case does not arise. It does not, because the base point has a prime order and a secret is a
number below it. The order is prime by `prime_groupOrder`, the base point has it because the
multiple by that number is computed to be zero (`addOrderOf_generator`), and then a multiple of
the base point is zero for multiples of the order alone, among which there is no secret and no
product of two.

The public key of a secret is therefore its multiple of the base point
(`Scalar.point_publicKey`), scaling it by another secret is the multiple by both
(`Scalar.point_scale_publicKey`), and two parties that scale each other's public keys by their
own secrets get the same key (`Scalar.scale_comm`). Nothing is said here of how hard it is for a
third party to get it.
-/

namespace SealedGroup

instance : Fact groupOrder.Prime := ⟨prime_groupOrder⟩

theorem groupOrder_lt_two_pow : groupOrder < 2 ^ 256 := by decide

namespace PublicKey

/-- The multiple of the base point by the group order is zero. -/
theorem groupOrder_nsmul_generator : groupOrder • generator.point = 0 :=
  nsmul_eq_zero generator groupOrder_lt_two_pow (by decide +kernel)

/-- **The base point has the order of the group.** -/
theorem addOrderOf_generator : addOrderOf generator.point = groupOrder :=
  addOrderOf_eq_prime groupOrder_nsmul_generator generator.point_ne_zero

/-- A multiple of the base point is zero only for multiples of the order. -/
theorem nsmul_generator_eq_zero {n : ℕ} : n • generator.point = 0 ↔ groupOrder ∣ n := by
  rw [← addOrderOf_dvd_iff_nsmul_eq_zero, addOrderOf_generator]

end PublicKey

namespace Scalar

theorem val_lt_two_pow (s : Scalar) : s.val < 2 ^ 256 :=
  s.lt.trans groupOrder_lt_two_pow

/-- The order does not divide a secret. -/
theorem not_dvd_val (s : Scalar) : ¬groupOrder ∣ s.val :=
  fun h => absurd (Nat.le_of_dvd s.pos h) (Nat.not_le.mpr s.lt)

/-- Scaling a key multiplies its point, if that does not give zero. -/
theorem point_scale (s : Scalar) {q : PublicKey} (h : s.val • q.point ≠ 0) :
    (s.scale q).point = s.val • q.point := by
  unfold scale
  rcases q.multiple?_cases s.val_lt_two_pow with ⟨hzero, _⟩ | ⟨r, hpoint, hsome⟩
  · exact absurd hzero h
  · rw [hsome, Option.getD_some, hpoint]

/-- **The public key of a secret** is its multiple of the base point. -/
theorem point_publicKey (s : Scalar) : s.publicKey.point = s.val • PublicKey.generator.point :=
  s.point_scale fun hzero => s.not_dvd_val (PublicKey.nsmul_generator_eq_zero.mp hzero)

/-- The key of that multiple is the public key. -/
theorem eq_publicKey_iff {s : Scalar} {q : PublicKey} :
    q = s.publicKey ↔ q.point = s.val • PublicKey.generator.point := by
  rw [← PublicKey.point_inj, s.point_publicKey]

/-- Scaling a public key gives the multiple by both secrets. -/
theorem point_scale_publicKey (s t : Scalar) :
    (s.scale t.publicKey).point = (s.val * t.val) • PublicKey.generator.point := by
  have hpoint : s.val • t.publicKey.point = (s.val * t.val) • PublicKey.generator.point := by
    rw [t.point_publicKey, mul_nsmul']
  rw [← hpoint]
  refine s.point_scale fun hzero => ?_
  rw [hpoint, PublicKey.nsmul_generator_eq_zero, prime_groupOrder.dvd_mul] at hzero
  exact hzero.elim s.not_dvd_val t.not_dvd_val

/-- **Both parties get the same key.** -/
theorem scale_comm (s t : Scalar) : s.scale t.publicKey = t.scale s.publicKey := by
  rw [← PublicKey.point_inj, point_scale_publicKey, point_scale_publicKey, Nat.mul_comm]

end Scalar

end SealedGroup
