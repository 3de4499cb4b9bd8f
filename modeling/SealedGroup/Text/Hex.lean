import SealedGroup.Bytes

/-!
# Hexadecimal text

Two digits spell one byte, the high half first. Writing uses lower case;
reading takes either case. `Hex.read` is the reader over characters, and
`Hex.decode` applies it to the UTF-8 octets of a string, each taken as the
character with that code: the positions it reports are octet positions, and
a character outside ASCII is refused at its first octet.

`Hex.read_digits` says that reading takes back what was written.
-/

namespace SealedGroup

namespace Hex

/-- Why a text is not the spelling of a byte string. -/
inductive Malformed where
  /-- The number of digits is odd. -/
  | oddLength
  /-- A character that is no digit, with its position. -/
  | strayCharacter (char : Char) (position : Nat)
  deriving DecidableEq, Repr

/-- The lower-case digit of a number below sixteen. -/
def digit (n : Nat) : Char :=
  if n < 10 then Char.ofNat (0x30 + n) else Char.ofNat (0x57 + n)

/-- The value of a digit of either case. -/
def digitValue? (c : Char) : Option Nat :=
  if 0x30 ≤ c.toNat ∧ c.toNat ≤ 0x39 then some (c.toNat - 0x30)
  else if 0x61 ≤ c.toNat ∧ c.toNat ≤ 0x66 then some (c.toNat - 0x57)
  else if 0x41 ≤ c.toNat ∧ c.toNat ≤ 0x46 then some (c.toNat - 0x37)
  else none

/-- The digits of a byte string, two to a byte. -/
def digits : Bytes → List Char
  | [] => []
  | b :: rest => digit (b.toNat / 16) :: digit (b.toNat % 16) :: digits rest

/-- The lower-case spelling of a byte string. -/
def encode (bs : Bytes) : String :=
  String.ofList (digits bs)

/-- Reads pairs of digits, the first of which stands at `position`. A last
digit without a partner is dropped: `read` lets none come here. -/
def readPairs (position : Nat) : List Char → Except Malformed Bytes
  | high :: low :: rest =>
    match digitValue? high, digitValue? low with
    | none, _ => .error (.strayCharacter high position)
    | some _, none => .error (.strayCharacter low (position + 1))
    | some h, some l => (readPairs (position + 2) rest).map (UInt8.ofNat (h * 16 + l) :: ·)
  | _ => .ok []

/-- **The byte string a text spells**, or why it spells none. An odd number
of digits is reported before any stray character. -/
def read (cs : List Char) : Except Malformed Bytes :=
  if cs.length % 2 = 1 then .error .oddLength else readPairs 0 cs

/-- The octets of a string, each as the character with that code. -/
def octets (s : String) : List Char :=
  (s.toList.flatMap String.utf8EncodeChar).map Char.ofUInt8

/-- The byte string a string spells, with positions counted in octets. -/
def decode (s : String) : Except Malformed Bytes :=
  read (octets s)

@[simp] theorem length_digits (bs : Bytes) : (digits bs).length = 2 * bs.length := by
  induction bs with
  | nil => rfl
  | cons b rest ih => simp only [digits, List.length_cons, ih]; omega

/-- A digit's value is the number it was written for. -/
theorem digitValue?_digit {n : Nat} (h : n < 16) : digitValue? (digit n) = some n := by
  have key : ∀ m : Fin 16, digitValue? (digit m.val) = some m.val := by decide
  exact key ⟨n, h⟩

theorem readPairs_digits (position : Nat) (bs : Bytes) :
    readPairs position (digits bs) = .ok bs := by
  induction bs generalizing position with
  | nil => rfl
  | cons b rest ih =>
    have hb : b.toNat < 256 := b.toNat_lt
    have hhigh : b.toNat / 16 < 16 := by omega
    have hlow : b.toNat % 16 < 16 := Nat.mod_lt _ (by decide)
    simp only [digits, readPairs, digitValue?_digit hhigh, digitValue?_digit hlow, ih,
      Except.map]
    have hsum : b.toNat / 16 * 16 + b.toNat % 16 = b.toNat := by omega
    rw [hsum, UInt8.ofNat_toNat]

/-- **Reading takes back what was written.** -/
theorem read_digits (bs : Bytes) : read (digits bs) = .ok bs := by
  have heven : (digits bs).length % 2 ≠ 1 := by rw [length_digits]; omega
  rw [read, if_neg heven, readPairs_digits]

end Hex

end SealedGroup
