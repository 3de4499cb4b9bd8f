import SealedGroup.Json.Number
import SealedGroup.Text.Hex

/-!
# Reading JSON

A text is read as one value with blanks around it – spaces, tabs, line feeds
and carriage returns – and nothing else. The reader descends into the text
with a bound on its steps that the length of the text provides; it puts no
limit on nesting.
-/

namespace SealedGroup

namespace Json

/-- The character may stand between tokens. -/
def isBlank (c : Char) : Bool :=
  c = ' ' || c = '\t' || c = '\n' || c = '\r'

/-- The text without the blanks it begins with. -/
def skipBlanks (cs : List Char) : List Char :=
  cs.dropWhile isBlank

/-- What follows `expected`, if the text begins with it. -/
def expect (expected : List Char) (cs : List Char) : Option (List Char) :=
  if expected.isPrefixOf cs then some (cs.drop expected.length) else none

/-- The code unit that four hexadecimal digits spell. -/
def unitOfDigits? (a b c d : Char) : Option Nat := do
  let a ← Hex.digitValue? a
  let b ← Hex.digitValue? b
  let c ← Hex.digitValue? c
  let d ← Hex.digitValue? d
  pure (((a * 16 + b) * 16 + c) * 16 + d)

/-- The character that a one-letter escape stands for. -/
def escaped? (c : Char) : Option Char :=
  if c = '"' then some '"'
  else if c = '\\' then some '\\'
  else if c = '/' then some '/'
  else if c = 'b' then some '\x08'
  else if c = 'f' then some '\x0C'
  else if c = 'n' then some '\n'
  else if c = 'r' then some '\r'
  else if c = 't' then some '\t'
  else none

/-- The code points of a string literal after its opening quote, and what
follows its closing quote. An escape by code gives the code as it is, so that
a pair of surrogates is two code points here. -/
def readPoints : List Char → Option (List Nat × List Char)
  | [] => none
  | '"' :: rest => some ([], rest)
  | '\\' :: 'u' :: a :: b :: c :: d :: rest => do
    let unit ← unitOfDigits? a b c d
    let (points, rest) ← readPoints rest
    pure (unit :: points, rest)
  | '\\' :: c :: rest => do
    let c ← escaped? c
    let (points, rest) ← readPoints rest
    pure (c.toNat :: points, rest)
  | c :: rest =>
    if c.toNat < 0x20 then none
    else do
      let (points, rest) ← readPoints rest
      pure (c.toNat :: points, rest)

/-- The code point is the first surrogate of a pair. -/
def isHighSurrogate (n : Nat) : Bool :=
  0xD800 ≤ n && n < 0xDC00

/-- The code point is the second surrogate of a pair. -/
def isLowSurrogate (n : Nat) : Bool :=
  0xDC00 ≤ n && n < 0xE000

/-- The code point that a pair of surrogates stands for. -/
def joinPair (high low : Nat) : Nat :=
  0x10000 + (high - 0xD800) * 0x400 + (low - 0xDC00)

/-- The characters of code points, with the pairs of surrogates joined, or
nothing if a surrogate stands alone. -/
def joinPoints : List Nat → Option (List Char)
  | [] => some []
  | high :: low :: rest =>
    if isHighSurrogate high then
      if isLowSurrogate low then
        (joinPoints rest).map (Char.ofNat (joinPair high low) :: ·)
      else none
    else if isLowSurrogate high then none
    else (joinPoints (low :: rest)).map (Char.ofNat high :: ·)
  | [last] =>
    if isHighSurrogate last || isLowSurrogate last then none else some [Char.ofNat last]

/-- The string literal after its opening quote. -/
def readLiteral (cs : List Char) : Option (Literal × List Char) :=
  (readPoints cs).map fun (points, rest) =>
    match joinPoints points with
    | some chars => (.text (String.ofList chars), rest)
    | none => (.unpaired points, rest)

mutual

/-- The value a text begins with, after blanks, and what follows it. -/
def readValue : (fuel : Nat) → List Char → Option (Json × List Char)
  | 0, _ => none
  | fuel + 1, cs =>
    match skipBlanks cs with
    | 'n' :: rest => (expect ['u', 'l', 'l'] rest).map (null, ·)
    | 't' :: rest => (expect ['r', 'u', 'e'] rest).map (bool true, ·)
    | 'f' :: rest => (expect ['a', 'l', 's', 'e'] rest).map (bool false, ·)
    | '"' :: rest => (readLiteral rest).map fun (literal, rest) => (string literal, rest)
    | '[' :: rest =>
      match skipBlanks rest with
      | ']' :: rest => some (array [], rest)
      | rest => (readItems fuel rest).map fun (items, rest) => (array items, rest)
    | '\x7b' :: rest =>
      match skipBlanks rest with
      | '\x7d' :: rest => some (object [], rest)
      | rest => (readFields fuel rest).map fun (fields, rest) => (object fields, rest)
    | cs => readNumber cs

/-- The items of an array, at least one, and what follows its bracket. -/
def readItems : (fuel : Nat) → List Char → Option (List Json × List Char)
  | 0, _ => none
  | fuel + 1, cs => do
    let (item, rest) ← readValue fuel cs
    match skipBlanks rest with
    | ']' :: rest => pure ([item], rest)
    | ',' :: rest =>
      let (items, rest) ← readItems fuel rest
      pure (item :: items, rest)
    | _ => none

/-- The fields of an object, at least one, and what follows its brace. -/
def readFields : (fuel : Nat) → List Char → Option (List (Literal × Json) × List Char)
  | 0, _ => none
  | fuel + 1, cs =>
    match skipBlanks cs with
    | '"' :: rest => do
      let (name, rest) ← readLiteral rest
      match skipBlanks rest with
      | ':' :: rest =>
        let (value, rest) ← readValue fuel rest
        match skipBlanks rest with
        | '\x7d' :: rest => pure ([(name, value)], rest)
        | ',' :: rest =>
          let (fields, rest) ← readFields fuel rest
          pure ((name, value) :: fields, rest)
        | _ => none
      | _ => none
    | _ => none

end

/-- **The value a text denotes**, if it denotes one. Every step into the text
takes at least half a character, so that the bound is never reached. -/
def read? (text : String) : Option Json :=
  match readValue (2 * text.toList.length + 1) text.toList with
  | some (value, rest) => if skipBlanks rest = [] then some value else none
  | none => none

end Json

end SealedGroup
