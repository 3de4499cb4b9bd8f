/-!
# JSON values

The tree that a JSON text denotes, or that is written as one. Objects keep
their fields in order, duplicates included.

Two kinds of literal are kept although no record of this library holds one,
because a text may carry them where nobody looks: a number that is no 64-bit
integer, with its spelling and whether a double can hold it, and a string in
which a surrogate escape stands unpaired, which denotes no text.
-/

namespace SealedGroup

/-- What a string literal denotes. -/
inductive Literal where
  /-- A text. -/
  | text (s : String)
  /-- No text: the code units with an unpaired surrogate among them. -/
  | unpaired (units : List Nat)
  deriving DecidableEq, Repr

instance : Coe String Literal := ⟨Literal.text⟩

namespace Literal

/-- The text a literal denotes, if it denotes one. -/
def text? : Literal → Option String
  | text s => some s
  | unpaired _ => none

/-- The literal denotes a text. -/
def isText (l : Literal) : Bool :=
  l.text?.isSome

end Literal

/-- **A JSON value.** -/
inductive Json where
  | null
  | bool (b : Bool)
  /-- A number written without fraction and exponent that has 64 bits. -/
  | integer (n : Int)
  /-- Any other number: its spelling, and whether a double can hold it. -/
  | real (spelling : List Char) (finite : Bool)
  | string (literal : Literal)
  | array (items : List Json)
  | object (fields : List (Literal × Json))

namespace Json

/-- A string value. -/
abbrev str (s : String) : Json := string (.text s)

/-- An object with the given fields. -/
def record (fields : List (String × Json)) : Json :=
  object (fields.map fun (name, value) => (.text name, value))

mutual

/-- How deep arrays and objects are nested in a value; a scalar has depth
zero. -/
def depth : Json → Nat
  | null | bool _ | integer _ | real _ _ | string _ => 0
  | array items => depthItems items + 1
  | object fields => depthFields fields + 1

/-- The greatest depth of an item. -/
def depthItems : List Json → Nat
  | [] => 0
  | item :: rest => max item.depth (depthItems rest)

/-- The greatest depth of a field. -/
def depthFields : List (Literal × Json) → Nat
  | [] => 0
  | (_, value) :: rest => max value.depth (depthFields rest)

end

mutual

/-- Every number is held by a double and every string denotes a text. -/
def plain : Json → Bool
  | null | bool _ | integer _ => true
  | real _ finite => finite
  | string literal => literal.isText
  | array items => plainItems items
  | object fields => plainFields fields

/-- Every item is plain. -/
def plainItems : List Json → Bool
  | [] => true
  | item :: rest => item.plain && plainItems rest

/-- Every field is plain, its name included. -/
def plainFields : List (Literal × Json) → Bool
  | [] => true
  | (name, value) :: rest => name.isText && value.plain && plainFields rest

end

end Json

end SealedGroup
