import Mathlib.Algebra.Field.ZMod
import Mathlib.FieldTheory.Finite.Basic
import SealedGroup.Proofs.Curve.Primes

/-!
# Coordinates as elements of a field

The program computes with coordinates as residues: they are numbers below a modulus, and sums,
differences and products are those of `Fin`. That the modulus is a prime, and hence that there
are inverses and that a polynomial has no more roots than its degree, is nothing that a residue
knows of. `Coordinate.toField` takes residues to the field of that many elements, where Mathlib
has all of this.

The map is the identity in all but type. It takes each operation of the program to the operation
of the field (`Coordinate.toField_add` and so on), those included that the program makes up by
itself: `Coordinate.power` squares and multiplies its way through the 256 bits of an exponent,
and gives the power; `Coordinate.inverse` is a power as well, and gives the inverse by Fermat's
little theorem. And it tells different coordinates apart (`Coordinate.toField_inj`), so that an
equation that is shown of the field holds of the residues, and can be carried back to the
program.

Square roots are powers too, since the modulus is three modulo four. Of what `Coordinate.sqrt?`
does one half is needed, that of a square it finds a root, which is the one that was squared or
its opposite (`Coordinate.sqrt?_mul_self`). That what it finds *is* a root needs no lemma: it
tests the candidate before it gives it away.
-/

namespace SealedGroup

instance : Fact fieldOrder.Prime := ⟨prime_fieldOrder⟩

namespace Coordinate

/-- **A coordinate as an element of the field.** -/
def toField (a : Coordinate) : ZMod fieldOrder :=
  (a.val : ZMod fieldOrder)

variable (a b : Coordinate)

@[simp] theorem toField_add : toField (a + b) = toField a + toField b := by
  unfold toField
  rw [Fin.val_add, ZMod.natCast_mod, Nat.cast_add]

@[simp] theorem toField_mul : toField (a * b) = toField a * toField b := by
  unfold toField
  rw [Fin.val_mul, ZMod.natCast_mod, Nat.cast_mul]

@[simp] theorem toField_sub : toField (a - b) = toField a - toField b := by
  unfold toField
  rw [Fin.sub_def]
  have hle : b.val ≤ fieldOrder := b.isLt.le
  show (((fieldOrder - b.val + a.val) % fieldOrder : ℕ) : ZMod fieldOrder) = _
  rw [ZMod.natCast_mod, Nat.cast_add, Nat.cast_sub hle, ZMod.natCast_self]
  ring

@[simp] theorem toField_neg : toField (-a) = -toField a := by
  have hle : a.val ≤ fieldOrder := a.isLt.le
  show (((fieldOrder - a.val) % fieldOrder : ℕ) : ZMod fieldOrder) = _
  rw [ZMod.natCast_mod, Nat.cast_sub hle, ZMod.natCast_self, zero_sub]
  rfl

/-- A numeral denotes the same number in the field. -/
@[simp] theorem toField_ofNat (n : ℕ) [n.AtLeastTwo] :
    toField ofNat(n) = (ofNat(n) : ZMod fieldOrder) :=
  ZMod.natCast_mod n fieldOrder

@[simp] theorem toField_zero : toField 0 = 0 := Nat.cast_zero

@[simp] theorem toField_one : toField 1 = 1 := Nat.cast_one

variable {a b}

/-- **Different coordinates are different elements.** -/
theorem toField_inj : toField a = toField b ↔ a = b := by
  unfold toField
  rw [ZMod.natCast_eq_natCast_iff', Nat.mod_eq_of_lt a.isLt, Nat.mod_eq_of_lt b.isLt]
  exact Fin.ext_iff.symm

theorem toField_eq_zero : toField a = 0 ↔ a = 0 := by
  rw [← toField_zero, toField_inj]

theorem toField_ne_zero : toField a ≠ 0 ↔ a ≠ 0 :=
  not_congr toField_eq_zero

/-- **Powers are powers**, for exponents below `2 ^ 256`. -/
theorem toField_power (a : Coordinate) {exponent : ℕ} (h : exponent < 2 ^ 256) :
    toField (power a exponent) = toField a ^ exponent := by
  have hstep : ∀ (acc : Coordinate) (k : ℕ) (bit : Bool), toField acc = toField a ^ k →
      toField (if bit then acc * acc * a else acc * acc) = toField a ^ (2 * k + bit.toNat) := by
    intro acc k bit hacc
    cases bit
    · simp [hacc, ← pow_add, two_mul]
    · simp [hacc, ← pow_add, two_mul, pow_succ]
  exact foldl_bits (R := fun (acc : Coordinate) k => toField acc = toField a ^ k) hstep
    (by simp) h

/-- **Inverses are inverses**, by Fermat's little theorem. -/
theorem toField_inverse (a : Coordinate) : toField a.inverse = (toField a)⁻¹ := by
  unfold inverse
  rw [toField_power a (by decide)]
  by_cases hzero : toField a = 0
  · rw [hzero, inv_zero]
    exact zero_pow (by decide)
  · refine eq_inv_of_mul_eq_one_left ?_
    rw [← pow_succ]
    exact ZMod.pow_card_sub_one_eq_one hzero

/-- **A square has a root that is found**, up to its sign. -/
theorem sqrt?_mul_self (y : Coordinate) :
    ∃ root, sqrt? (y * y) = some root ∧ (root = y ∨ root = -y) := by
  have hsquare : toField (power (y * y) ((fieldOrder + 1) / 4)) *
      toField (power (y * y) ((fieldOrder + 1) / 4)) = toField y * toField y := by
    rw [toField_power _ (by decide), toField_mul]
    calc (toField y * toField y) ^ ((fieldOrder + 1) / 4) *
          (toField y * toField y) ^ ((fieldOrder + 1) / 4)
        = toField y ^ (4 * ((fieldOrder + 1) / 4)) := by ring
      _ = toField y ^ (fieldOrder + 1) := by
          rw [show 4 * ((fieldOrder + 1) / 4) = fieldOrder + 1 by decide]
      _ = toField y * toField y := by rw [pow_succ, ZMod.pow_card]
  refine ⟨power (y * y) ((fieldOrder + 1) / 4), ?_, ?_⟩
  · unfold sqrt?
    refine if_pos ?_
    rw [← toField_inj, toField_mul, hsquare, toField_mul]
  · rw [← toField_inj, ← toField_inj (b := -y), toField_neg]
    exact mul_self_eq_mul_self_iff.mp hsquare

end Coordinate

end SealedGroup
