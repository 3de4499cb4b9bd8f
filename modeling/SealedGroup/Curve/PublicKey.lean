import SealedGroup.Bytes
import SealedGroup.Curve.Jacobian

/-!
# Curve points as public keys

A public key is a point of the curve other than infinity. It has two
spellings: the compressed one, a tag for the parity of `y` followed by `x`,
and the uncompressed one, the tag `04` followed by `x` and `y`.

A spelling is read only if its coordinates are below the field order and the
point lies on the curve. `PublicKey.compressed_of_ofCompressed?` says that a
compressed spelling that is read is the spelling of the key it gives.
-/

namespace SealedGroup

/-- The point lies on the curve. -/
def OnCurve (x y : Coordinate) : Prop :=
  y * y = x * x * x + 7

instance (x y : Coordinate) : Decidable (OnCurve x y) :=
  inferInstanceAs (Decidable (_ = _))

/-- **A public key**: a point of the curve, in affine coordinates. -/
structure PublicKey where
  x : Coordinate
  y : Coordinate
  onCurve : OnCurve x y
  deriving DecidableEq

namespace PublicKey

/-- The bytes of a coordinate. -/
def coordinateSize : Nat := 32

/-- The bytes of a compressed key. -/
def compressedSize : Nat := 33

/-- The key with the given coordinates, if they are those of a point. -/
def ofAffine? (x y : Coordinate) : Option PublicKey :=
  if h : OnCurve x y then some ⟨x, y, h⟩ else none

/-- The base point of the group. -/
def generator : PublicKey where
  x := ⟨0x79BE667EF9DCBBAC55A06295CE870B07029BFCDB2DCE28D959F2815B16F81798, by decide⟩
  y := ⟨0x483ADA7726A3C4655DA4FBFC0E1108A8FD17B448A68554199C47D08FFB10D4B8, by decide⟩
  onCurve := by decide +kernel

/-- The multiple of a key by a number below `2 ^ 256`, unless it is
infinity. -/
def multiple? (n : Nat) (q : PublicKey) : Option PublicKey :=
  (Jacobian.multiple n q.x q.y).toAffine?.bind fun (x, y) => ofAffine? x y

/-- The bytes of a coordinate, most significant first. -/
def coordinateBytes (a : Coordinate) : Bytes :=
  Bytes.ofNat coordinateSize a.val

/-- The coordinate a spelling denotes, if it is below the field order. -/
def coordinateOfBytes? (bs : Bytes) : Option Coordinate :=
  if h : Bytes.toNat bs < fieldOrder then some ⟨Bytes.toNat bs, h⟩ else none

/-- The tag that tells the parity of `y`: `02` if it is even, `03` if odd. -/
def parityTag (y : Coordinate) : UInt8 :=
  if y.val % 2 = 0 then 0x02 else 0x03

/-- **The compressed spelling**: the parity tag and `x`. -/
def compressed (q : PublicKey) : Bytes :=
  parityTag q.y :: coordinateBytes q.x

/-- The uncompressed spelling: the tag `04`, `x` and `y`. -/
def uncompressed (q : PublicKey) : Bytes :=
  0x04 :: (coordinateBytes q.x ++ coordinateBytes q.y)

/-- The point with the given first coordinate whose second one has the given
parity tag. -/
def ofX? (tag : UInt8) (x : Coordinate) : Option PublicKey :=
  (Coordinate.sqrt? (x * x * x + 7)).bind fun root =>
    let y := if parityTag root = tag then root else -root
    if parityTag y = tag then ofAffine? x y else none

/-- **The key a compressed spelling denotes.** -/
def ofCompressed? : Bytes → Option PublicKey
  | [] => none
  | tag :: xs =>
    if xs.length = coordinateSize then (coordinateOfBytes? xs).bind (ofX? tag) else none

/-- The key an uncompressed spelling denotes. -/
def ofUncompressed? : Bytes → Option PublicKey
  | [] => none
  | tag :: rest =>
    if tag = 0x04 ∧ rest.length = 2 * coordinateSize then
      (coordinateOfBytes? (rest.take coordinateSize)).bind fun x =>
        (coordinateOfBytes? (rest.drop coordinateSize)).bind (ofAffine? x)
    else none

@[simp] theorem length_compressed (q : PublicKey) : q.compressed.length = compressedSize := by
  simp [compressed, coordinateBytes, coordinateSize, compressedSize]

theorem ext {q r : PublicKey} (hx : q.x = r.x) (hy : q.y = r.y) : q = r := by
  cases q; cases r; cases hx; cases hy; rfl

theorem ofAffine?_eq_some {x y : Coordinate} {q : PublicKey} (h : ofAffine? x y = some q) :
    q.x = x ∧ q.y = y := by
  unfold ofAffine? at h
  split at h
  · cases h; exact ⟨rfl, rfl⟩
  · cases h

/-- A coordinate that is read is spelled by what was read. -/
theorem coordinateBytes_of_coordinateOfBytes? {bs : Bytes} {a : Coordinate}
    (hlen : bs.length = coordinateSize) (h : coordinateOfBytes? bs = some a) :
    coordinateBytes a = bs := by
  unfold coordinateOfBytes? at h
  split at h
  · cases h
    rw [coordinateBytes, ← hlen, Bytes.ofNat_toNat]
  · cases h

/-- **Each key has one compressed spelling**: whatever is read as a key is
what that key is written as. -/
theorem compressed_of_ofCompressed? {bs : Bytes} {q : PublicKey}
    (h : ofCompressed? bs = some q) : q.compressed = bs := by
  match bs with
  | [] => cases h
  | tag :: xs =>
    simp only [ofCompressed?] at h
    split at h
    · next hlen =>
      obtain ⟨x, hx, hpoint⟩ := Option.bind_eq_some_iff.mp h
      obtain ⟨root, _, hy⟩ := Option.bind_eq_some_iff.mp hpoint
      simp only [Option.ite_none_right_eq_some] at hy
      obtain ⟨htag, hpoint⟩ := hy
      obtain ⟨hqx, hqy⟩ := ofAffine?_eq_some hpoint
      rw [compressed, hqx, hqy, htag, coordinateBytes_of_coordinateOfBytes? hlen hx]
    · cases h

end PublicKey

end SealedGroup
