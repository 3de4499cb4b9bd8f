import SealedGroup.Curve.PublicKey

/-!
# Secret scalars

A secret is a number strictly between zero and the order of the group, and
its public key is that multiple of the base point. A secret is spelled in 32
bytes, most significant first; `Scalar.ofBytes_toBytes` and
`Scalar.toBytes_of_ofBytes` say that the spelling and its reading are inverse
to each other.
-/

namespace SealedGroup

/-- The number of points of the curve, infinity included: a prime. -/
def groupOrder : Nat :=
  0xFFFFFFFFFFFFFFFFFFFFFFFFFFFFFFFEBAAEDCE6AF48A03BBFD25E8CD0364141

/-- **A secret scalar.** -/
structure Scalar where
  val : Nat
  pos : 0 < val
  lt : val < groupOrder
  deriving DecidableEq

namespace Scalar

/-- The bytes of a secret. -/
def size : Nat := 32

/-- Why a byte string is no secret. -/
inductive Invalid where
  /-- It is not 32 bytes long. -/
  | length
  /-- It is zero, or not below the group order. -/
  | range
  deriving DecidableEq, Repr

/-- The word by which error texts name the cause. -/
def Invalid.word : Invalid → String
  | .length => "InvalidInputLength"
  | .range => "InvalidSecretKey"

/-- The 32 bytes of a secret. -/
def toBytes (s : Scalar) : Bytes :=
  Bytes.ofNat size s.val

/-- **The secret a byte string spells.** Its length is checked first. -/
def ofBytes (bs : Bytes) : Except Invalid Scalar :=
  if bs.length ≠ size then .error .length
  else if h : 0 < Bytes.toNat bs ∧ Bytes.toNat bs < groupOrder then
    .ok ⟨Bytes.toNat bs, h.1, h.2⟩
  else .error .range

/-- A secret made of a number of any size, for numbers drawn at random from a
range much wider than the group order. -/
def ofNat (n : Nat) : Scalar where
  val := n % (groupOrder - 1) + 1
  pos := Nat.succ_pos _
  lt := by
    have := Nat.mod_lt n (show 0 < groupOrder - 1 by decide)
    omega

/-- The multiple of a key by a secret. A secret is nonzero modulo the prime
order of the group, so that the multiple is never infinity and the key itself
never stands in for it. -/
def scale (s : Scalar) (q : PublicKey) : PublicKey :=
  (q.multiple? s.val).getD q

/-- The public key of a secret. -/
def publicKey (s : Scalar) : PublicKey :=
  s.scale PublicKey.generator

@[simp] theorem length_toBytes (s : Scalar) : s.toBytes.length = size := by
  simp [toBytes]

theorem ext {s t : Scalar} (h : s.val = t.val) : s = t := by
  cases s; cases t; cases h; rfl

theorem groupOrder_lt : groupOrder < Bytes.count size := by decide

/-- Reading takes back what was written. -/
theorem ofBytes_toBytes (s : Scalar) : ofBytes s.toBytes = .ok s := by
  have hval : Bytes.toNat s.toBytes = s.val :=
    Bytes.toNat_ofNat_of_lt (Nat.lt_trans s.lt groupOrder_lt)
  have hrange : 0 < Bytes.toNat s.toBytes ∧ Bytes.toNat s.toBytes < groupOrder := by
    rw [hval]; exact ⟨s.pos, s.lt⟩
  simp only [ofBytes, length_toBytes, ne_eq, not_true_eq_false, if_false, dif_pos hrange]
  exact congrArg Except.ok (ext hval)

/-- Whatever is read as a secret is what that secret is written as. -/
theorem toBytes_of_ofBytes {bs : Bytes} {s : Scalar} (h : ofBytes bs = .ok s) :
    s.toBytes = bs := by
  unfold ofBytes at h
  split at h
  · cases h
  · next hlen =>
    split at h
    · cases h
      simp only [ne_eq, Decidable.not_not] at hlen
      rw [toBytes, ← hlen, Bytes.ofNat_toNat]
    · cases h

end Scalar

end SealedGroup
