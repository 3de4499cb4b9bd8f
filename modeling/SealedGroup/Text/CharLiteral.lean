import SealedGroup.Text.Hex

/-!
# Character literals

How a single octet is shown in an error text: between apostrophes, with the
usual escapes for the tab, the line feed, the carriage return, the null
character, the apostrophe and the backslash, and with its hexadecimal code
for every other character that has no printed form. A double quote needs no
escape here.
-/

namespace SealedGroup

namespace CharLiteral

/-- The apostrophe. -/
def apostrophe : Char := Char.ofNat 0x27

/-- The characters below U+0100 that leave no ink of their own: the controls,
the no-break space and the soft hyphen. -/
def unprintable (c : Char) : Bool :=
  c.toNat < 0x20 || (0x7F ≤ c.toNat && c.toNat ≤ 0xA0) || c.toNat == 0xAD

/-- The hexadecimal code of a character, without leading zeros. -/
def code (c : Char) : List Char :=
  Nat.toDigits 16 c.toNat

/-- What stands between the apostrophes. -/
def escape (c : Char) : List Char :=
  if c = '\t' then ['\\', 't']
  else if c = '\n' then ['\\', 'n']
  else if c = '\r' then ['\\', 'r']
  else if c = '\x00' then ['\\', '0']
  else if c = apostrophe then ['\\', apostrophe]
  else if c = '\\' then ['\\', '\\']
  else if unprintable c then ['\\', 'u', '\x7b'] ++ code c ++ ['\x7d']
  else [c]

/-- The literal of a character below U+0100. -/
def render (c : Char) : String :=
  String.ofList (apostrophe :: (escape c ++ [apostrophe]))

end CharLiteral

end SealedGroup
