/-!
# Byte strings

A byte string is a list of octets. Numbers are spelled big-endian, at a
fixed width: `Bytes.ofNat width n` spells the low `width` bytes of `n`, and
`Bytes.toNat` reads a spelling back.

The two are inverse on the numbers that fit: `Bytes.toNat_ofNat` reads back
what was written, and `Bytes.ofNat_toNat` writes back what was read, so a
number below `Bytes.count width` has exactly one spelling of that width.
-/

namespace SealedGroup

/-- A string of octets. -/
abbrev Bytes := List UInt8

namespace Bytes

/-- How many byte strings of a width there are. -/
def count (width : Nat) : Nat :=
  1 <<< (8 * width)

/-- The number a byte string spells, most significant byte first. -/
def toNat : Bytes → Nat
  | [] => 0
  | b :: rest => b.toNat * count rest.length + toNat rest

/-- The low `width` bytes of a number, most significant first. -/
def ofNat : (width n : Nat) → Bytes
  | 0, _ => []
  | width + 1, n => UInt8.ofNat (n / count width) :: ofNat width n

/-- No bytes spell one thing. -/
theorem count_zero : count 0 = 1 := rfl

/-- One more byte makes 256 times as many. -/
theorem count_succ (width : Nat) : count (width + 1) = count width * 256 := by
  rw [count, count, Nat.mul_succ, Nat.shiftLeft_add, Nat.shiftLeft_eq _ 8]

theorem count_pos (width : Nat) : 0 < count width := by
  induction width with
  | zero => rw [count_zero]; decide
  | succ width ih => rw [count_succ]; omega

@[simp] theorem length_ofNat (width n : Nat) : (ofNat width n).length = width := by
  induction width with
  | zero => rfl
  | succ width ih => simp [ofNat, ih]

/-- A spelling stays below the number of spellings of its width. -/
theorem toNat_lt (bs : Bytes) : toNat bs < count bs.length := by
  induction bs with
  | nil => simp [toNat, count_zero]
  | cons b rest ih =>
    have hb : b.toNat + 1 ≤ 256 := b.toNat_lt
    have hmul := Nat.mul_le_mul_right (count rest.length) hb
    simp only [toNat, List.length_cons, count_succ]
    rw [Nat.add_mul, Nat.one_mul] at hmul
    omega

/-- **Reading back**: a spelling denotes the number modulo its width. -/
theorem toNat_ofNat (width n : Nat) : toNat (ofNat width n) = n % count width := by
  induction width with
  | zero => rw [count_zero, Nat.mod_one, ofNat, toNat]
  | succ width ih =>
    simp only [ofNat, toNat, length_ofNat, ih, UInt8.toNat_ofNat']
    rw [count_succ, Nat.mod_mul, Nat.mul_comm, Nat.add_comm]

theorem toNat_ofNat_of_lt {width n : Nat} (h : n < count width) :
    toNat (ofNat width n) = n := by
  rw [toNat_ofNat, Nat.mod_eq_of_lt h]

/-- The digits of a number depend only on its residue. -/
theorem ofNat_add_mul (width n k : Nat) :
    ofNat width (n + k * count width) = ofNat width n := by
  induction width generalizing k with
  | zero => rfl
  | succ width ih =>
    have hcount : k * count (width + 1) = k * 256 * count width := by
      rw [count_succ, Nat.mul_assoc, Nat.mul_comm 256]
    rw [ofNat, ofNat, hcount, ih, Nat.add_mul_div_right _ _ (count_pos width)]
    congr 1
    apply UInt8.toNat_inj.mp
    simp only [UInt8.toNat_ofNat']
    exact Nat.add_mul_mod_self_right ..

/-- **Writing back**: the spelling of what a byte string denotes, at its own
width, is that byte string. -/
theorem ofNat_toNat (bs : Bytes) : ofNat bs.length (toNat bs) = bs := by
  induction bs with
  | nil => rfl
  | cons b rest ih =>
    simp only [List.length_cons, ofNat, toNat]
    rw [Nat.add_comm, ofNat_add_mul, ih, Nat.add_mul_div_right _ _ (count_pos rest.length),
      Nat.div_eq_of_lt (toNat_lt rest), Nat.zero_add]
    simp

/-- The bytewise exclusive or, as long as the shorter argument. -/
def xor (as bs : Bytes) : Bytes :=
  List.zipWith (· ^^^ ·) as bs

/-- Zero bytes up to the next multiple of `size`. -/
def padding (size length : Nat) : Bytes :=
  List.replicate ((size - length % size) % size) 0

/-- The byte string cut into pieces of `size` bytes; the last may be shorter. -/
def chunks (size : Nat) (bs : Bytes) : List Bytes :=
  (List.range ((bs.length + size - 1) / size)).map fun i => (bs.drop (i * size)).take size

end Bytes

end SealedGroup
