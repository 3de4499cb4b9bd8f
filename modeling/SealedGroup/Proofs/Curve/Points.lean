import Mathlib.AlgebraicGeometry.EllipticCurve.Affine.Point
import SealedGroup.Proofs.Curve.Coordinates

/-!
# Multiples of a point, in the group of the curve

The points of `y ^ 2 = x ^ 3 + 7` form a group, by Mathlib's theory of Weierstrass curves, and
public keys are its points other than zero. The program has no group. It has Jacobian
coordinates, in which a point has as many names as there are units in the field, two formulas
for doubling and for adding, and a loop over the bits of a number.

`Jacobian.Denotes` says which point Jacobian coordinates stand for. It is a relation and not a
function from coordinates to points, since not all triples are on the curve, and since zero has
a case of its own: the third coordinate vanishes exactly there
(`Jacobian.Denotes.z_eq_zero_iff`). Doubling doubles and adding adds in *all* cases, the ones
included in which the formulas have to be replaced: adding a point to itself, to its opposite
and to zero. These are the cases that a sample of random points never meets, and in which a
wrong formula gives a triple that is on no curve. A point of order two is doubled to zero, as it
should be; that the curve has no such point is not needed for that.

So `PublicKey.multiple?` gives the multiple of a key in the group, unless that is zero, and then
it gives nothing (`PublicKey.multiple?_cases`). The loop is not looked at again: it is one more
run of repeated squaring, and `foldl_bits` says what these do. Different keys are different
points (`PublicKey.point_inj`), so that an equation of the group is one between keys.
-/

namespace SealedGroup

open WeierstrassCurve.Affine (Point)
open Coordinate (toField)

/-! ## The curve -/

/-- **The curve** `y ^ 2 = x ^ 3 + 7`. -/
def curve : WeierstrassCurve.Affine (ZMod fieldOrder) where
  a₁ := 0
  a₂ := 0
  a₃ := 0
  a₄ := 0
  a₆ := 7

namespace curve

/-- A number that is not a multiple of the field order is not zero. -/
theorem natCast_ne_zero {n : ℕ} (h : ¬fieldOrder ∣ n) : (n : ZMod fieldOrder) ≠ 0 :=
  fun hzero => h ((ZMod.natCast_eq_zero_iff n fieldOrder).mp hzero)

theorem two_ne_zero : (2 : ZMod fieldOrder) ≠ 0 :=
  natCast_ne_zero (n := 2) (by decide)

/-- The curve has no singular point. -/
theorem discriminant_ne_zero : curve.Δ ≠ 0 := by
  have hvalue : curve.Δ = -((21168 : ℕ) : ZMod fieldOrder) := by
    simp only [WeierstrassCurve.Δ, WeierstrassCurve.b₂, WeierstrassCurve.b₄, WeierstrassCurve.b₆,
      WeierstrassCurve.b₈, curve]
    push_cast
    ring
  rw [hvalue]
  exact neg_ne_zero.mpr (natCast_ne_zero (by decide))

theorem nonsingular_iff {x y : ZMod fieldOrder} :
    curve.Nonsingular x y ↔ y * y = x * x * x + 7 := by
  rw [← curve.equation_iff_nonsingular_of_Δ_ne_zero discriminant_ne_zero, curve.equation_iff]
  show y ^ 2 + 0 * x * y + 0 * y = x ^ 3 + 0 * x ^ 2 + 0 * x + 7 ↔ _
  constructor <;> intro h <;> linear_combination h

theorem negY_eq (x y : ZMod fieldOrder) : curve.negY x y = -y := by
  show -y - 0 * x - 0 = -y
  ring

variable {x y x' y' : ZMod fieldOrder}

/-- Opposite points add up to zero. -/
theorem add_opposite {h : curve.Nonsingular x y} {h' : curve.Nonsingular x (-y)} :
    Point.some x (-y) h' + Point.some x y h = 0 :=
  Point.add_of_Y_eq rfl (negY_eq x y).symm

/-- **The double of a point**, by the slope of the tangent. -/
theorem add_self {h : curve.Nonsingular x y} (hy : y ≠ 0) {slope : ZMod fieldOrder}
    (hslope : slope * (2 * y) = 3 * x ^ 2) :
    ∃ h', Point.some x y h + Point.some x y h =
      Point.some (slope ^ 2 - 2 * x) (slope * (x - (slope ^ 2 - 2 * x)) - y) h' := by
  have htwo : 2 * y ≠ 0 := mul_ne_zero two_ne_zero hy
  have hne : y ≠ curve.negY x y := by
    rw [negY_eq]
    intro heq
    exact htwo (by linear_combination heq)
  have hvalue : curve.slope x x y y = slope := by
    rw [curve.slope_of_Y_ne rfl hne, negY_eq]
    show (3 * x ^ 2 + 2 * 0 * x + 0 - 0 * y) / (y - -y) = slope
    rw [div_eq_iff (by rwa [sub_neg_eq_add, ← two_mul])]
    linear_combination -hslope
  have hx : curve.addX x x slope = slope ^ 2 - 2 * x := by
    show slope ^ 2 + 0 * slope - 0 - x - x = _
    ring
  have hy' : curve.addY x x y slope = slope * (x - (slope ^ 2 - 2 * x)) - y := by
    rw [WeierstrassCurve.Affine.addY, negY_eq, WeierstrassCurve.Affine.negAddY, hx]
    ring
  have hsum := WeierstrassCurve.Affine.nonsingular_add h h fun hxy => hne hxy.2
  rw [hvalue, hx, hy'] at hsum
  refine ⟨hsum, ?_⟩
  rw [Point.add_self_of_Y_ne hne]
  simp only [hvalue, hx, hy']

/-- **The sum of two points**, by the slope of the chord. -/
theorem add_of_ne {h : curve.Nonsingular x y} {k : curve.Nonsingular x' y'} (hne : x ≠ x')
    {slope : ZMod fieldOrder} (hslope : slope * (x - x') = y - y') :
    ∃ h', Point.some x y h + Point.some x' y' k =
      Point.some (slope ^ 2 - x - x') (slope * (x - (slope ^ 2 - x - x')) - y) h' := by
  have hvalue : curve.slope x x' y y' = slope := by
    rw [curve.slope_of_X_ne hne, div_eq_iff (sub_ne_zero.mpr hne), hslope]
  have hx : curve.addX x x' slope = slope ^ 2 - x - x' := by
    show slope ^ 2 + 0 * slope - 0 - x - x' = _
    ring
  have hy' : curve.addY x x' y slope = slope * (x - (slope ^ 2 - x - x')) - y := by
    rw [WeierstrassCurve.Affine.addY, negY_eq, WeierstrassCurve.Affine.negAddY, hx]
    ring
  have hsum := WeierstrassCurve.Affine.nonsingular_add h k fun hxy => hne hxy.1
  rw [hvalue, hx, hy'] at hsum
  refine ⟨hsum, ?_⟩
  rw [Point.add_of_X_ne hne]
  simp only [hvalue, hx, hy']

end curve

/-! ## Jacobian coordinates -/

namespace Jacobian

/-- **The coordinates stand for the point.** -/
def Denotes (p : Jacobian) : curve.Point → Prop
  | .zero => p.z = 0
  | .some x y _ => p.z ≠ 0 ∧ toField p.x = x * toField p.z ^ 2 ∧
      toField p.y = y * toField p.z ^ 3

theorem denotes_infinity : infinity.Denotes 0 := rfl

theorem denotes_ofAffine {x y : Coordinate}
    (h : curve.Nonsingular (toField x) (toField y)) :
    (ofAffine x y).Denotes (Point.some (toField x) (toField y) h) := by
  refine ⟨show (1 : Coordinate) ≠ 0 by decide, ?_, ?_⟩ <;> simp [ofAffine]

variable {p : Jacobian} {P : curve.Point}

/-- The third coordinate tells infinity from all other points. -/
theorem Denotes.z_eq_zero_iff (h : p.Denotes P) : p.z = 0 ↔ P = 0 := by
  cases P with
  | zero => exact ⟨fun _ => rfl, fun _ => h⟩
  | some x y hns => exact ⟨fun hz => absurd hz h.1, fun hP => absurd hP (Point.some_ne_zero hns)⟩

/-- **Doubling doubles.** -/
theorem Denotes.double (h : p.Denotes P) : p.double.Denotes (P + P) := by
  cases P with
  | zero =>
    show 2 * p.y * p.z = 0
    rw [show p.z = 0 from h]
    exact Fin.mul_zero _
  | some x y hns =>
    obtain ⟨hz, hx, hy⟩ := h
    by_cases hzero : y = 0
    · -- a point of order two, of which this curve has none
      have hsum : Point.some x y hns + Point.some x y hns = 0 := by
        refine Point.add_self_of_Y_eq ?_
        rw [curve.negY_eq, hzero, neg_zero]
      rw [hsum]
      show 2 * p.y * p.z = 0
      rw [← Coordinate.toField_eq_zero, Coordinate.toField_mul, Coordinate.toField_mul, hy, hzero]
      ring
    · have htwo : 2 * y ≠ 0 := mul_ne_zero curve.two_ne_zero hzero
      obtain ⟨slope, hslope⟩ : ∃ slope : ZMod fieldOrder, slope * (2 * y) = 3 * x ^ 2 :=
        ⟨3 * x ^ 2 / (2 * y), div_mul_cancel₀ _ htwo⟩
      obtain ⟨hns', hsum⟩ := curve.add_self (h := hns) hzero hslope
      have hz' : toField p.z ≠ 0 := Coordinate.toField_ne_zero.mpr hz
      rw [hsum]
      refine ⟨?_, ?_, ?_⟩
      · show 2 * p.y * p.z ≠ 0
        rw [ne_eq, ← Coordinate.toField_eq_zero, Coordinate.toField_mul, Coordinate.toField_mul,
          Coordinate.toField_ofNat, hy]
        exact mul_ne_zero (mul_ne_zero curve.two_ne_zero (mul_ne_zero hzero (pow_ne_zero 3 hz')))
          hz'
      · simp only [Jacobian.double, Coordinate.toField_sub, Coordinate.toField_mul,
          Coordinate.toField_ofNat, hx, hy]
        linear_combination (-(slope * (2 * y) + 3 * x ^ 2) * toField p.z ^ 8) * hslope
      · simp only [Jacobian.double, Coordinate.toField_sub, Coordinate.toField_mul,
          Coordinate.toField_ofNat, hx, hy]
        linear_combination (toField p.z ^ 12 * (-12 * x * y ^ 2 + (slope * (2 * y)) ^ 2 +
          3 * x ^ 2 * (slope * (2 * y)) + 9 * x ^ 4)) * hslope

/-- **Adding adds.** -/
theorem Denotes.addAffine (h : p.Denotes P) {x y : Coordinate}
    (hns : curve.Nonsingular (toField x) (toField y)) :
    (p.addAffine x y).Denotes (P + Point.some (toField x) (toField y) hns) := by
  unfold Jacobian.addAffine
  by_cases hz : p.z = 0
  · rw [if_pos hz, h.z_eq_zero_iff.mp hz, zero_add]
    exact denotes_ofAffine hns
  rw [if_neg hz]
  cases P with
  | zero => exact absurd h hz
  | some a b hns' =>
    have hdenotes := h
    obtain ⟨_, hx, hy⟩ := h
    have hz' : toField p.z ≠ 0 := Coordinate.toField_ne_zero.mpr hz
    -- the differences of the coordinates, up to a power of the third one
    have hrun : toField (x * (p.z * p.z) - p.x) = (toField x - a) * toField p.z ^ 2 := by
      simp only [Coordinate.toField_sub, Coordinate.toField_mul, hx]
      ring
    have hrise : toField (y * (p.z * p.z) * p.z - p.y) = (toField y - b) * toField p.z ^ 3 := by
      simp only [Coordinate.toField_sub, Coordinate.toField_mul, hy]
      ring
    have hrun_iff : x * (p.z * p.z) - p.x = 0 ↔ toField x = a := by
      rw [← Coordinate.toField_eq_zero, hrun, mul_eq_zero_iff_right (pow_ne_zero 2 hz'),
        sub_eq_zero]
    have hrise_iff : y * (p.z * p.z) * p.z - p.y = 0 ↔ toField y = b := by
      rw [← Coordinate.toField_eq_zero, hrise, mul_eq_zero_iff_right (pow_ne_zero 3 hz'),
        sub_eq_zero]
    dsimp only
    by_cases hsame : toField x = a
    · rw [if_pos (hrun_iff.mpr hsame)]
      subst hsame
      by_cases hsame' : toField y = b
      · -- the same point twice
        rw [if_pos (hrise_iff.mpr hsame')]
        subst hsame'
        exact hdenotes.double
      · -- opposite points: the curve has no third one with this first coordinate
        rw [if_neg fun hzero => hsame' (hrise_iff.mp hzero)]
        have hopposite : b = -toField y := by
          have hsquares : b * b = toField y * toField y := by
            rw [curve.nonsingular_iff.mp hns, curve.nonsingular_iff.mp hns']
          exact (mul_self_eq_mul_self_iff.mp hsquares).resolve_left fun heq => hsame' heq.symm
        subst hopposite
        rw [curve.add_opposite]
        exact denotes_infinity
    · rw [if_neg fun hzero => hsame (hrun_iff.mp hzero)]
      have hne : a - toField x ≠ 0 := sub_ne_zero.mpr fun heq => hsame heq.symm
      obtain ⟨slope, hslope⟩ : ∃ slope, slope * (a - toField x) = b - toField y :=
        ⟨(b - toField y) / (a - toField x), div_mul_cancel₀ _ hne⟩
      obtain ⟨hns'', hsum⟩ := curve.add_of_ne (h := hns') (k := hns)
        (fun heq => hsame heq.symm) hslope
      rw [hsum]
      refine ⟨?_, ?_, ?_⟩
      · rw [ne_eq, ← Coordinate.toField_eq_zero, Coordinate.toField_mul, hrun]
        exact mul_ne_zero hz' (mul_ne_zero (sub_ne_zero.mpr hsame) (pow_ne_zero 2 hz'))
      · simp only [Coordinate.toField_sub, Coordinate.toField_mul, Coordinate.toField_ofNat, hx, hy]
        linear_combination (toField p.z ^ 6 * ((toField y - b) + slope * (toField x - a))) * hslope
      · simp only [Coordinate.toField_sub, Coordinate.toField_mul, Coordinate.toField_ofNat, hx, hy]
        linear_combination (toField p.z ^ 9 * ((toField x - a) ^ 2 * (2 * a + toField x) -
          ((toField y - b) ^ 2 + (toField y - b) * (slope * (toField x - a)) +
            (slope * (toField x - a)) ^ 2))) * hslope

end Jacobian

namespace PublicKey

/-- **A public key as a point.** -/
def point (q : PublicKey) : curve.Point :=
  .some (toField q.x) (toField q.y) (by
    rw [curve.nonsingular_iff, ← Coordinate.toField_mul, q.onCurve]
    simp only [Coordinate.toField_add, Coordinate.toField_mul, Coordinate.toField_ofNat])

theorem point_ne_zero (q : PublicKey) : q.point ≠ 0 :=
  Point.some_ne_zero _

theorem point_inj {q r : PublicKey} : q.point = r.point ↔ q = r := by
  unfold point
  rw [Point.some.injEq, Coordinate.toField_inj, Coordinate.toField_inj]
  exact ⟨fun h => ext h.1 h.2, fun h => h ▸ ⟨rfl, rfl⟩⟩

/-- **Multiples are multiples**, for numbers below `2 ^ 256`. -/
theorem denotes_multiple (q : PublicKey) {n : ℕ} (h : n < 2 ^ 256) :
    (Jacobian.multiple n q.x q.y).Denotes (n • q.point) := by
  -- after some of the bits, the accumulator is the multiple by the number that they spell
  have hstep : ∀ (acc : Jacobian) (k : ℕ) (bit : Bool), acc.Denotes (k • q.point) →
      (if bit then acc.double.addAffine q.x q.y else acc.double).Denotes
        ((2 * k + bit.toNat) • q.point) := by
    intro acc k bit hacc
    have hdouble := hacc.double
    rw [← two_nsmul, ← mul_nsmul'] at hdouble
    cases bit
    · exact hdouble
    · rw [Bool.toNat_true, succ_nsmul]
      exact hdouble.addAffine _
  refine foldl_bits (R := fun (acc : Jacobian) k => acc.Denotes (k • q.point)) hstep ?_ h
  rw [zero_nsmul]
  exact Jacobian.denotes_infinity

/-- A multiple is zero if the coordinates computed for it are those of
infinity. -/
theorem nsmul_eq_zero (q : PublicKey) {n : ℕ} (h : n < 2 ^ 256)
    (hz : (Jacobian.multiple n q.x q.y).z = 0) : n • q.point = 0 :=
  (q.denotes_multiple h).z_eq_zero_iff.mp hz

/-- **The key of a point**: coordinates give none for infinity, and otherwise
the key whose point they stand for. -/
theorem ofAffine?_toAffine? {p : Jacobian} {P : curve.Point} (h : p.Denotes P) :
    (P = 0 ∧ p.toAffine?.bind (fun (x, y) => ofAffine? x y) = none) ∨
      ∃ q : PublicKey, q.point = P ∧ p.toAffine?.bind (fun (x, y) => ofAffine? x y) = some q := by
  unfold Jacobian.toAffine?
  by_cases hz : p.z = 0
  · refine .inl ⟨h.z_eq_zero_iff.mp hz, ?_⟩
    rw [if_pos hz]
    rfl
  · rw [if_neg hz]
    cases P with
    | zero => exact absurd h hz
    | some a b hns =>
      obtain ⟨_, hx, hy⟩ := h
      have hz' : toField p.z ≠ 0 := Coordinate.toField_ne_zero.mpr hz
      have hx' : toField (p.x * (p.z.inverse * p.z.inverse)) = a := by
        simp only [Coordinate.toField_mul, Coordinate.toField_inverse, hx]
        field_simp
      have hy' : toField (p.y * (p.z.inverse * p.z.inverse * p.z.inverse)) = b := by
        simp only [Coordinate.toField_mul, Coordinate.toField_inverse, hy]
        field_simp
      subst hx' hy'
      have hcurve : OnCurve (p.x * (p.z.inverse * p.z.inverse))
          (p.y * (p.z.inverse * p.z.inverse * p.z.inverse)) := by
        rw [OnCurve, ← Coordinate.toField_inj, Coordinate.toField_add, Coordinate.toField_ofNat]
        simpa only [Coordinate.toField_mul] using curve.nonsingular_iff.mp hns
      refine .inr ⟨⟨p.x * (p.z.inverse * p.z.inverse),
        p.y * (p.z.inverse * p.z.inverse * p.z.inverse), hcurve⟩, ?_, ?_⟩
      · unfold point
        rfl
      · rw [Option.bind_some]
        exact dif_pos hcurve

/-- **The multiple of a key** is the one of the group, and there is none exactly
if that is zero. -/
theorem multiple?_cases (q : PublicKey) {n : ℕ} (h : n < 2 ^ 256) :
    (n • q.point = 0 ∧ q.multiple? n = none) ∨
      ∃ r : PublicKey, r.point = n • q.point ∧ q.multiple? n = some r := by
  have hdenotes := q.denotes_multiple h
  unfold multiple?
  exact ofAffine?_toAffine? hdenotes

end PublicKey

end SealedGroup
