import SealedGroup.Json.Value
import SealedGroup.Text.Hex

/-!
# JSON text

Two ways of writing a value: `Json.compact` without any blank, and
`Json.pretty` with one item to a line and two spaces to a level.

Strings escape the double quote, the backslash and the controls below
U+0020 – five of them by a letter, the others by their code – and write every
other character as it is.
-/

namespace SealedGroup

namespace Json

/-- A code unit escaped by four digits. -/
def escapeUnit (unit : Nat) : List Char :=
  ['\\', 'u', Hex.digit (unit / 4096 % 16), Hex.digit (unit / 256 % 16),
    Hex.digit (unit / 16 % 16), Hex.digit (unit % 16)]

/-- A character inside a string literal. -/
def escapeChar (c : Char) : List Char :=
  if c = '"' then ['\\', '"']
  else if c = '\\' then ['\\', '\\']
  else if c.toNat = 0x08 then ['\\', 'b']
  else if c.toNat = 0x0C then ['\\', 'f']
  else if c = '\n' then ['\\', 'n']
  else if c = '\r' then ['\\', 'r']
  else if c = '\t' then ['\\', 't']
  else if c.toNat < 0x20 then escapeUnit c.toNat
  else [c]

/-- A string literal. -/
def literalChars : Literal → List Char
  | .text s => ['"'] ++ s.toList.flatMap escapeChar ++ ['"']
  | .unpaired units => ['"'] ++ units.flatMap escapeUnit ++ ['"']

/-- An integer in decimal digits. -/
def integerChars : Int → List Char
  | .ofNat n => Nat.toDigits 10 n
  | .negSucc n => '-' :: Nat.toDigits 10 (n + 1)

mutual

/-- The characters of a value written without blanks. -/
def chars : Json → List Char
  | null => ['n', 'u', 'l', 'l']
  | bool true => ['t', 'r', 'u', 'e']
  | bool false => ['f', 'a', 'l', 's', 'e']
  | integer n => integerChars n
  | real spelling _ => spelling
  | string literal => literalChars literal
  | array [] => ['[', ']']
  | array (item :: rest) => '[' :: (item.chars ++ itemsChars rest)
  | object [] => ['\x7b', '\x7d']
  | object ((name, value) :: rest) =>
    '\x7b' :: (literalChars name ++ ':' :: (value.chars ++ fieldsChars rest))

/-- The items after the first one, each led by a comma, and the bracket. -/
def itemsChars : List Json → List Char
  | [] => [']']
  | item :: rest => ',' :: (item.chars ++ itemsChars rest)

/-- The fields after the first one, each led by a comma, and the brace. -/
def fieldsChars : List (Literal × Json) → List Char
  | [] => ['\x7d']
  | (name, value) :: rest =>
    ',' :: (literalChars name ++ ':' :: (value.chars ++ fieldsChars rest))

end

/-- **The compact text** of a value. -/
def compact (j : Json) : String :=
  String.ofList j.chars

/-- A new line at the given level. -/
def newline (level : Nat) : List Char :=
  '\n' :: List.replicate (2 * level) ' '

mutual

/-- The characters of a value written over several lines. -/
def prettyChars (level : Nat) : Json → List Char
  | array (item :: rest) =>
    '[' :: (newline (level + 1) ++ (prettyChars (level + 1) item ++ prettyItems level rest))
  | object ((name, value) :: rest) =>
    '\x7b' :: (newline (level + 1) ++ (literalChars name ++ ':' :: ' ' ::
      (prettyChars (level + 1) value ++ prettyFields level rest)))
  | other => other.chars

/-- The items after the first one, and the bracket on a line of its own. -/
def prettyItems (level : Nat) : List Json → List Char
  | [] => newline level ++ [']']
  | item :: rest =>
    ',' :: (newline (level + 1) ++ (prettyChars (level + 1) item ++ prettyItems level rest))

/-- The fields after the first one, and the brace on a line of its own. -/
def prettyFields (level : Nat) : List (Literal × Json) → List Char
  | [] => newline level ++ ['\x7d']
  | (name, value) :: rest =>
    ',' :: (newline (level + 1) ++ (literalChars name ++ ':' :: ' ' ::
      (prettyChars (level + 1) value ++ prettyFields level rest)))

end

/-- **The text of a value over several lines.** -/
def pretty (j : Json) : String :=
  String.ofList (prettyChars 0 j)

end Json

end SealedGroup
