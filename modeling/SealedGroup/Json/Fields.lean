import SealedGroup.Json.Value
import SealedGroup.Bytes

/-!
# Typed access to JSON values

The scalars, lists and records that typed values are read from. A record is
accepted in two forms: an object that holds each required field once, in any
order and with any other fields beside them, or an array of exactly all
fields in their order.

A variant that carries data is a record of its own, led by the name of the
variant. Since the name may come last in an object, the whole value is held
until the name is known, and nothing in it may then be ill-formed, not even
where nobody looks: `Json.tagged?` is the reader of such values.
-/

namespace SealedGroup

namespace Json

/-- The text of a string. -/
def text? : Json → Option String
  | string literal => literal.text?
  | _ => none

/-- A truth value. -/
def bool? : Json → Option Bool
  | bool b => some b
  | _ => none

/-- An integer. -/
def integer? : Json → Option Int
  | integer n => some n
  | _ => none

/-- A signed integer of 64 bits. -/
def int64? (j : Json) : Option Int64 :=
  j.integer?.bind fun n =>
    if Int64.minValue.toInt ≤ n ∧ n ≤ Int64.maxValue.toInt then some (Int64.ofInt n) else none

/-- An unsigned integer of 64 bits. -/
def uint64? (j : Json) : Option UInt64 :=
  j.integer?.bind fun n =>
    if 0 ≤ n ∧ n < UInt64.size then some (UInt64.ofNat n.toNat) else none

/-- An unsigned integer of 8 bits. -/
def uint8? (j : Json) : Option UInt8 :=
  j.integer?.bind fun n =>
    if 0 ≤ n ∧ n < UInt8.size then some (UInt8.ofNat n.toNat) else none

/-- The values of an array, each read by `read`. -/
def list? {α : Type} (read : Json → Option α) : Json → Option (List α)
  | array items => items.mapM read
  | _ => none

/-- A byte string: an array of octets. -/
def bytes? (j : Json) : Option Bytes :=
  j.list? uint8?

/-- The integer of a signed word. -/
def ofInt64 (n : Int64) : Json := integer n.toInt

/-- The integer of an unsigned word. -/
def ofUInt64 (n : UInt64) : Json := integer n.toNat

/-- The array of octets of a byte string. -/
def ofBytes (bs : Bytes) : Json := array (bs.map fun b => integer b.toNat)

/-- The array of the texts of values. -/
def ofList {α : Type} (write : α → Json) (xs : List α) : Json := array (xs.map write)

/-- The value of the field `name`: `none` if the field occurs twice, and
`some none` if it does not occur. -/
def field? (name : String) (fields : List (Literal × Json)) : Option (Option Json) :=
  match fields.filter fun field => field.1 == .text name with
  | [] => some none
  | [field] => some (some field.2)
  | _ => none

/-- **The fields of a record**, in the order of `names`; a field that an
object does not hold is `none`. -/
def fields? (names : List String) : Json → Option (List (Option Json))
  | object fields =>
    if fields.all fun field => field.1.isText then names.mapM fun name => field? name fields
    else none
  | array items => if items.length = names.length then some (items.map some) else none
  | _ => none

/-- The value of an optional field: nothing if it is absent or null. -/
def optional? {α : Type} (read : Json → Option α) : Option Json → Option (Option α)
  | none => some none
  | some null => some none
  | some j => (read j).map some

/-- The nesting that a text may have where its values are held. -/
def depthLimit : Nat := 127

/-- **A variant with its name and its record**, for values held as a whole at
the given level of the text: an object with the name in its field `type`, or
an array that the name leads. -/
def tagged? (level : Nat) (j : Json) : Option (String × Json) :=
  if j.plain && level + j.depth ≤ depthLimit then
    match j with
    | object fields => do
      let tag ← (← field? "type" fields).bind text?
      pure (tag, object (fields.filter fun field => field.1 != .text "type"))
    | array (tag :: items) => do
      let tag ← tag.text?
      pure (tag, array items)
    | _ => none
  else none

/-- The name of a variant without data: a string, or an object with the name
as its only field and null as the value. -/
def variantName? : Json → Option String
  | string literal => literal.text?
  | object [(name, null)] => name.text?
  | _ => none

end Json

end SealedGroup
