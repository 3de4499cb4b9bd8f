import SealedGroup.Curve.Field

/-!
# Multiples of a point

The curve is `y ^ 2 = x ^ 3 + 7`. Multiples are computed in Jacobian
coordinates, where `(x, y, z)` stands for the affine point
`(x / z ^ 2, y / z ^ 3)` and `z = 0` for the point at infinity: doubling and
adding an affine point then need no division, and one inversion at the end
returns to affine coordinates.
-/

namespace SealedGroup

/-- A point in Jacobian coordinates. -/
structure Jacobian where
  x : Coordinate
  y : Coordinate
  z : Coordinate
  deriving DecidableEq

namespace Jacobian

/-- The point at infinity. -/
def infinity : Jacobian := ⟨1, 1, 0⟩

/-- An affine point. -/
def ofAffine (x y : Coordinate) : Jacobian := ⟨x, y, 1⟩

/-- The double of a point, by the tangent. No point of the curve has `y = 0`,
and infinity doubles to infinity. -/
def double (p : Jacobian) : Jacobian :=
  let yy := p.y * p.y
  let s := 4 * p.x * yy
  let slope := 3 * p.x * p.x
  let x := slope * slope - 2 * s
  ⟨x, slope * (s - x) - 8 * yy * yy, 2 * p.y * p.z⟩

/-- The sum with the affine point `(x, y)`: by the chord where the first
coordinates differ, by the tangent where the points agree, and infinity where
they are opposite. -/
def addAffine (p : Jacobian) (x y : Coordinate) : Jacobian :=
  if p.z = 0 then ofAffine x y
  else
    let zz := p.z * p.z
    let run := x * zz - p.x
    let rise := y * zz * p.z - p.y
    if run = 0 then
      if rise = 0 then double p else infinity
    else
      let square := run * run
      let cube := square * run
      let s := p.x * square
      let x' := rise * rise - cube - 2 * s
      ⟨x', rise * (s - x') - p.y * cube, p.z * run⟩

/-- The multiple of the affine point `(x, y)` by a number below `2 ^ 256`: one
doubling for each bit, and one addition for each bit that is set. -/
def multiple (n : Nat) (x y : Coordinate) : Jacobian :=
  (bits n).foldl (fun acc bit => if bit then acc.double.addAffine x y else acc.double) infinity

/-- The affine coordinates of a point other than infinity. -/
def toAffine? (p : Jacobian) : Option (Coordinate × Coordinate) :=
  if p.z = 0 then none
  else
    let w := p.z.inverse
    some (p.x * (w * w), p.y * (w * w * w))

end Jacobian

end SealedGroup
