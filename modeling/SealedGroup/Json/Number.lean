import SealedGroup.Json.Value

/-!
# JSON numbers

The number grammar of JSON, and the two facts that are kept of a literal: the
integer it denotes if it has neither fraction nor exponent and fits 64 bits,
signed or unsigned, and otherwise whether a double can hold it.

The second question is asked of the value as it is commonly computed: the
digits are gathered in an unsigned 64-bit significand as long as they fit,
and the significand, rounded to a double, is multiplied by a rounded power of
ten. Only a product past the largest double is refused; a value too small is
zero.
-/

namespace SealedGroup

namespace Json

/-- The character is a decimal digit. -/
def isDigit (c : Char) : Bool :=
  0x30 ≤ c.toNat && c.toNat ≤ 0x39

/-- The value of a decimal digit. -/
def digitNat (c : Char) : Nat :=
  c.toNat - 0x30

/-- The parts of a number literal. -/
structure Numeral where
  negative : Bool
  /-- The digits before the point, at least one. -/
  whole : List Char
  /-- The digits after the point, if there is one. -/
  fraction : Option (List Char)
  /-- The sign and the digits of the exponent, if there is one; `true` stands
  for a minus. -/
  exponent : Option (Bool × List Char)

namespace Numeral

/-- The digits before the point: a lone zero, or digits that do not begin
with one. -/
def readWhole : List Char → Option (List Char × List Char)
  | '0' :: rest => some (['0'], rest)
  | cs =>
    match cs.takeWhile isDigit with
    | [] => none
    | digits => some (digits, cs.dropWhile isDigit)

/-- A point and at least one digit, or nothing. -/
def readFraction : List Char → Option (Option (List Char) × List Char)
  | '.' :: rest =>
    match rest.takeWhile isDigit with
    | [] => none
    | digits => some (some digits, rest.dropWhile isDigit)
  | cs => some (none, cs)

/-- The digits of an exponent, at least one. -/
def readExponentDigits (negative : Bool) (cs : List Char) :
    Option (Option (Bool × List Char) × List Char) :=
  match cs.takeWhile isDigit with
  | [] => none
  | digits => some (some (negative, digits), cs.dropWhile isDigit)

/-- An exponent, or nothing. -/
def readExponent : List Char → Option (Option (Bool × List Char) × List Char)
  | c :: rest =>
    if c = 'e' ∨ c = 'E' then
      match rest with
      | '+' :: digits => readExponentDigits false digits
      | '-' :: digits => readExponentDigits true digits
      | digits => readExponentDigits false digits
    else some (none, c :: rest)
  | [] => some (none, [])

/-- The numeral a text begins with, and what follows it. -/
def read (cs : List Char) : Option (Numeral × List Char) := do
  let (negative, cs) := match cs with
    | '-' :: rest => (true, rest)
    | cs => (false, cs)
  let (whole, cs) ← readWhole cs
  let (fraction, cs) ← readFraction cs
  let (exponent, cs) ← readExponent cs
  pure (⟨negative, whole, fraction, exponent⟩, cs)

/-- The number that decimal digits spell. -/
def digitsNat (digits : List Char) : Nat :=
  digits.foldl (fun n c => n * 10 + digitNat c) 0

/-- The integer a numeral denotes, if it has neither fraction nor exponent and
fits 64 bits. Minus zero is no integer. -/
def integer? (n : Numeral) : Option Int :=
  if n.fraction.isSome || n.exponent.isSome then none
  else
    let magnitude := digitsNat n.whole
    if n.negative then
      if 0 < magnitude ∧ Int64.minValue.toInt ≤ -(magnitude : Int) then
        some (-(magnitude : Int))
      else none
    else if magnitude < UInt64.size then some magnitude
    else none

/-- The nearest number of 53 significant bits, a tie going to the even one. -/
def round53 (n : Nat) : Nat :=
  if n < 1 <<< 53 then n
  else
    let shift := n.log2 - 52
    let low := n >>> shift
    let rest := n - low <<< shift
    let half := 1 <<< (shift - 1)
    let up := if half < rest ∨ (rest = half ∧ low % 2 = 1) then 1 else 0
    (low + up) <<< shift

/-- The significand and the power of ten after one more digit of the whole
part: a digit that no longer fits only shifts the power. -/
def takeWhole (acc : Nat × Nat) (c : Char) : Nat × Nat :=
  if acc.2 = 0 ∧ acc.1 * 10 + digitNat c < UInt64.size then (acc.1 * 10 + digitNat c, 0)
  else (acc.1, acc.2 + 1)

/-- The significand and the number of digits taken from the fraction, up to
the first one that no longer fits. -/
def takeFraction (significand taken : Nat) : List Char → Nat × Nat
  | [] => (significand, taken)
  | c :: rest =>
    if significand * 10 + digitNat c < UInt64.size then
      takeFraction (significand * 10 + digitNat c) (taken + 1) rest
    else (significand, taken)

/-- The greatest power of ten that a double can hold. -/
def greatestPower : Nat := 308

/-- The least number that is rounded past the greatest double: that double has
1024 bits, the first 53 of them set, and half a step above it the tie goes
upwards. -/
def overflowBound : Nat := 1 <<< 1024 - 1 <<< 970

/-- A double can hold the significand times that power of ten. -/
def fits (significand : Nat) (power : Int) : Bool :=
  significand == 0 || power < 0 ||
    (power ≤ greatestPower &&
      round53 significand * round53 (Nat.pow 10 power.toNat) < overflowBound)

/-- A double can hold the value of a numeral. -/
def finite (n : Numeral) : Bool :=
  let (significand, shifted) := n.whole.foldl takeWhole (0, 0)
  let (significand, taken) := takeFraction significand 0 (n.fraction.getD [])
  let exponent : Int := match n.exponent with
    | none => 0
    | some (negative, digits) => if negative then -(digitsNat digits : Int) else digitsNat digits
  fits significand (shifted - taken + exponent)

end Numeral

/-- The number a text begins with, and what follows it. -/
def readNumber (cs : List Char) : Option (Json × List Char) :=
  (Numeral.read cs).map fun (numeral, rest) =>
    match numeral.integer? with
    | some n => (integer n, rest)
    | none => (real (cs.take (cs.length - rest.length)) numeral.finite, rest)

end Json

end SealedGroup
