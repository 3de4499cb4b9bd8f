import SealedGroup.Text.Hex

/-!
# Random identifiers

Identifiers of version 4: 122 random bits among which the version and the
variant are interspersed. Attempts, notices and messages are named by them.
-/

namespace SealedGroup

/-- **A random identifier**, by its free bits. -/
structure Uuid where
  bits : BitVec 122
  deriving DecidableEq, Repr

namespace Uuid

/-- The 128 bits: 48 free ones, the version, 12 free ones, the variant and the
other 62. -/
def word (u : Uuid) : BitVec 128 :=
  u.bits.extractLsb' 74 48 ++ 4#4 ++ u.bits.extractLsb' 62 12 ++ 2#2 ++ u.bits.extractLsb' 0 62

/-- The text: groups of 8, 4, 4, 4 and 12 lower-case digits. -/
def text (u : Uuid) : String :=
  let digits := Hex.digits (Bytes.ofNat 16 u.word.toNat)
  let group (start length : Nat) : List Char := (digits.drop start).take length
  String.ofList (group 0 8 ++ ['-'] ++ group 8 4 ++ ['-'] ++ group 12 4 ++ ['-'] ++
    group 16 4 ++ ['-'] ++ group 20 12)

/-- The identifier with the given random bytes. -/
def ofBytes (bs : Bytes) : Uuid :=
  ⟨BitVec.ofNat 122 (Bytes.toNat bs)⟩

/-- The character may stand at a position of the text: a hyphen between the
groups, the version, a variant, or any digit. -/
def fitsAt (position : Nat) (c : Char) : Bool :=
  if position = 8 ∨ position = 13 ∨ position = 18 ∨ position = 23 then c == '-'
  else if position = 14 then c == '4'
  else if position = 19 then c == '8' || c == '9' || c == 'a' || c == 'b'
  else ('0' ≤ c && c ≤ '9') || ('a' ≤ c && c ≤ 'f')

/-- The string is the text of a random identifier. -/
def isText (s : String) : Bool :=
  s.toList.length == 36 && s.toList.zipIdx.all fun (c, i) => fitsAt i c

end Uuid

end SealedGroup
