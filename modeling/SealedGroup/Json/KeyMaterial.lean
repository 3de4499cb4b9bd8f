import SealedGroup.Json.Fields
import SealedGroup.KeyPair.Wrapper

/-!
# Written forms of identifiers and keys

An identifier is written as its text and read as any text that it can be
parsed from. Key pairs and wrappers are records; byte strings in them are
arrays of octets.
-/

namespace SealedGroup

namespace Identifier

/-- The written form: the canonical text. -/
def toJson (id : Identifier) : Json := .str id.text

/-- The identifier that a string spells. -/
def ofJson? (j : Json) : Option Identifier :=
  j.text?.bind fun raw => (parse raw).toOption

/-- The written form of a list of identifiers. -/
def listToJson (ids : List Identifier) : Json := Json.ofList toJson ids

/-- The identifiers of an array. -/
def listOfJson? (j : Json) : Option (List Identifier) := j.list? ofJson?

end Identifier

namespace KeyRow

/-- The names of the fields. -/
def fieldNames : List String := ["public_hex", "private_hex"]

/-- The written form. -/
def toJson (pair : KeyRow) : Json :=
  .record [("public_hex", .str pair.publicText), ("private_hex", .str pair.secretText)]

/-- The pair that a record holds. -/
def ofJson? (j : Json) : Option KeyRow := do
  match ← j.fields? fieldNames with
  | [some publicText, some secretText] =>
    pure ⟨← publicText.text?, ← secretText.text?⟩
  | _ => none

end KeyRow

namespace RawPair

/-- The names of the fields. -/
def fieldNames : List String := ["public_key", "private_key"]

/-- The written form. -/
def toJson (pair : RawPair) : Json :=
  .record [("public_key", .ofBytes pair.publicPart), ("private_key", .ofBytes pair.secretPart)]

/-- The pair that a record holds. -/
def ofJson? (j : Json) : Option RawPair := do
  match ← j.fields? fieldNames with
  | [some publicKey, some privateKey] =>
    pure ⟨← publicKey.bytes?, ← privateKey.bytes?⟩
  | _ => none

end RawPair

namespace Wrapper

/-- The names of the fields. -/
def fieldNames : List String := ["recipient", "ciphertext"]

/-- The written form. -/
def toJson (wrapper : Wrapper) : Json :=
  .record [("recipient", wrapper.recipient.toJson), ("ciphertext", .ofBytes wrapper.ciphertext)]

/-- The wrapper that a record holds. -/
def ofJson? (j : Json) : Option Wrapper := do
  match ← j.fields? fieldNames with
  | [some recipient, some ciphertext] =>
    pure ⟨← Identifier.ofJson? recipient, ← ciphertext.bytes?⟩
  | _ => none

end Wrapper

end SealedGroup
