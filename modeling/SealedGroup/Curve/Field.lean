/-!
# The base field

The coordinates of curve points are residues modulo the prime
`2 ^ 256 - 2 ^ 32 - 977`. Sums, differences and products are those of `Fin`;
this module adds powers, inverses and square roots, all by repeated
squaring.
-/

namespace SealedGroup

/-- The number of residues of the base field, a prime. -/
def fieldOrder : Nat :=
  0xFFFFFFFFFFFFFFFFFFFFFFFFFFFFFFFFFFFFFFFFFFFFFFFFFFFFFFFEFFFFFC2F

/-- There are residues at all, so that numerals denote some. -/
instance : @NeZero Nat Zero.ofOfNat0 fieldOrder := ⟨by decide⟩

/-- An element of the base field. -/
abbrev Coordinate := Fin fieldOrder

/-- The 256 low bits of a number, most significant first. -/
def bits (n : Nat) : List Bool :=
  (List.range 256).reverse.map n.testBit

namespace Coordinate

/-- The power of a field element, for exponents below `2 ^ 256`. -/
def power (a : Coordinate) (exponent : Nat) : Coordinate :=
  (bits exponent).foldl (fun acc bit => if bit then acc * acc * a else acc * acc) 1

/-- The inverse of a nonzero element, and zero for zero. -/
def inverse (a : Coordinate) : Coordinate :=
  power a (fieldOrder - 2)

/-- A square root, if there is one. The prime is three modulo four, so that a
square has the power `(p + 1) / 4` for a root. -/
def sqrt? (a : Coordinate) : Option Coordinate :=
  let root := power a ((fieldOrder + 1) / 4)
  if root * root = a then some root else none

end Coordinate

end SealedGroup
