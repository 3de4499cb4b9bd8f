import SealedGroup.Group.Notice
import SealedGroup.Json.Group

/-!
# Written forms of notices

An announcement is written as its name and its payload. In an object the
payload may come before the name, which may stand in either spelling of a
variant's name, and the one announcement without a payload may leave it out;
in an array both stand, in this order, and the name is a string. The
expiration fields of a notice are left out where they are not set.
-/

namespace SealedGroup

namespace Direction

/-- The name by which a direction is written. -/
def name : Direction → String
  | outgoing => "outgoing"
  | incoming => "incoming"

/-- The direction with a name. -/
def ofName? (name : String) : Option Direction :=
  [outgoing, incoming].find? fun direction => direction.name == name

/-- The written form. -/
def toJson (direction : Direction) : Json := .str direction.name

/-- The direction that a value names. -/
def ofJson? (j : Json) : Option Direction := j.variantName?.bind ofName?

end Direction

namespace Announcement

/-- The written form: a name and, with one exception, a payload. -/
def toJson : Announcement → Json
  | renamed newName => .record [("type", .str "rename"), ("payload", .str newName)]
  | joined ids => .record [("type", .str "joined"), ("payload", Identifier.listToJson ids)]
  | joinedWithHistory ids =>
    .record [("type", .str "joinedWithHistory"), ("payload", Identifier.listToJson ids)]
  | removed ids => .record [("type", .str "kicked"), ("payload", Identifier.listToJson ids)]
  | left ids => .record [("type", .str "left"), ("payload", Identifier.listToJson ids)]
  | promoted ids => .record [("type", .str "promoted"), ("payload", Identifier.listToJson ids)]
  | avatarChanged => .record [("type", .str "avatarChange")]

/-- The announcement with a name and a payload, if there is one. -/
def ofPayload? (tag : String) (payload : Option Json) : Option Announcement :=
  if tag = "avatarChange" then
    match payload with
    | none | some .null => some .avatarChanged
    | some _ => none
  else
    payload.bind fun payload =>
      if tag = "rename" then payload.text?.map renamed
      else if tag = "joined" then (Identifier.listOfJson? payload).map joined
      else if tag = "joinedWithHistory" then
        (Identifier.listOfJson? payload).map joinedWithHistory
      else if tag = "kicked" then (Identifier.listOfJson? payload).map removed
      else if tag = "left" then (Identifier.listOfJson? payload).map left
      else if tag = "promoted" then (Identifier.listOfJson? payload).map promoted
      else none

/-- The announcement that a value holds. In an array the name is a string;
an object also names its variant as `Json.variantName?` reads it. -/
def ofJson? : Json → Option Announcement
  | .array [tag, payload] => do ofPayload? (← tag.text?) (some payload)
  | .array _ => none
  | record => do
    match ← record.fields? ["type", "payload"] with
    | [some tag, payload] => ofPayload? (← tag.variantName?) payload
    | _ => none

end Announcement

namespace Notice

/-- The names of the fields. -/
def fieldNames : List String :=
  ["id", "conversation_id", "sender", "sent_at", "direction", "change", "expiration_type",
    "expire_timer", "expiration_start"]

/-- The field with a value, or no field. -/
def optionalField {α : Type} (name : String) (write : α → Json) : Option α →
    List (String × Json)
  | none => []
  | some value => [(name, write value)]

/-- The written form. -/
def toJson (notice : Notice) : Json :=
  .record ([("id", .str notice.id), ("conversation_id", notice.conversation.toJson),
    ("sender", notice.sender.toJson), ("sent_at", .ofInt64 notice.sentAt),
    ("direction", notice.direction.toJson), ("change", notice.announcement.toJson)] ++
    optionalField "expiration_type" ExpirationKind.toJson notice.expiration ++
    optionalField "expire_timer" Json.ofUInt64 notice.timer ++
    optionalField "expiration_start" Json.ofInt64 notice.expirationStart)

/-- The notice that a record holds. -/
def ofJson? (j : Json) : Option Notice := do
  match ← j.fields? fieldNames with
  | [some id, some conversation, some sender, some sentAt, some direction, some change,
      expiration, timer, expirationStart] =>
    pure {
      id := ← id.text?
      conversation := ← Identifier.ofJson? conversation
      sender := ← Identifier.ofJson? sender
      sentAt := ← sentAt.int64?
      direction := ← Direction.ofJson? direction
      announcement := ← Announcement.ofJson? change
      expiration := ← Json.optional? ExpirationKind.ofJson? expiration
      timer := ← Json.optional? Json.uint64? timer
      expirationStart := ← Json.optional? Json.int64? expirationStart }
  | _ => none

end Notice

end SealedGroup
