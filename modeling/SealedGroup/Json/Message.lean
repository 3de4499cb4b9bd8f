import SealedGroup.Delivery
import SealedGroup.Json.KeyMaterial

/-!
# Written forms of messages

The envelope of a control message, its body led by the name of the variant,
and what is said about its delivery.
-/

namespace SealedGroup

namespace MessageBody

/-- The written form, led by the name of the variant. -/
def toJson : MessageBody → Json
  | rename name => .record [("type", .str "nameChange"), ("name", .str name)]
  | addition ids =>
    .record [("type", .str "membersAdded"), ("added", Identifier.listToJson ids)]
  | removal ids =>
    .record [("type", .str "membersRemoved"), ("removed", Identifier.listToJson ids)]
  | keyPair wrappers =>
    .record [("type", .str "encryptionKeyPair"), ("wrappers", .ofList Wrapper.toJson wrappers)]
  | invitation name members admins pair =>
    .record [("type", .str "new"), ("name", .str name),
      ("members", Identifier.listToJson members), ("admins", Identifier.listToJson admins),
      ("key_pair", pair.toJson)]

/-- The body with the given name of its variant and record of its data. -/
def ofTagged? (tag : String) (j : Json) : Option MessageBody := do
  if tag = "nameChange" then
    match ← j.fields? ["name"] with
    | [some name] => pure (.rename (← name.text?))
    | _ => none
  else if tag = "membersAdded" then
    match ← j.fields? ["added"] with
    | [some ids] => pure (.addition (← Identifier.listOfJson? ids))
    | _ => none
  else if tag = "membersRemoved" then
    match ← j.fields? ["removed"] with
    | [some ids] => pure (.removal (← Identifier.listOfJson? ids))
    | _ => none
  else if tag = "encryptionKeyPair" then
    match ← j.fields? ["wrappers"] with
    | [some wrappers] => pure (.keyPair (← wrappers.list? Wrapper.ofJson?))
    | _ => none
  else if tag = "new" then
    match ← j.fields? ["name", "members", "admins", "key_pair"] with
    | [some name, some members, some admins, some pair] =>
      pure (.invitation (← name.text?) (← Identifier.listOfJson? members)
        (← Identifier.listOfJson? admins) (← RawPair.ofJson? pair))
    | _ => none
  else none

/-- The body that a value inside a message holds. -/
def ofJson? (j : Json) : Option MessageBody := do
  let (tag, record) ← j.tagged? 1
  ofTagged? tag record

end MessageBody

namespace Message

/-- The names of the fields. -/
def fieldNames : List String :=
  ["group_id", "identifier", "created_at_ms", "expire_timer", "kind"]

/-- The written form. -/
def toJson (message : Message) : Json :=
  .record [("group_id", message.groupId.toJson), ("identifier", .str message.identifier),
    ("created_at_ms", .ofInt64 message.createdAt), ("expire_timer", .ofUInt64 message.timer),
    ("kind", message.body.toJson)]

/-- The message that a record holds. -/
def ofJson? (j : Json) : Option Message := do
  match ← j.fields? fieldNames with
  | [some groupId, some identifier, some createdAt, some timer, some body] =>
    pure {
      groupId := ← Identifier.ofJson? groupId
      identifier := ← identifier.text?
      createdAt := ← createdAt.int64?
      timer := ← timer.uint64?
      body := ← MessageBody.ofJson? body }
  | _ => none

end Message

namespace Channel

/-- The name by which a namespace is written. -/
def name : Channel → String
  | direct => "Default"
  | legacyGroup => "LegacyClosedGroup"

/-- The namespace with a name. -/
def ofName? (name : String) : Option Channel :=
  [direct, legacyGroup].find? fun space => space.name == name

/-- The written form. -/
def toJson (space : Channel) : Json := .str space.name

/-- The namespace that a value names. -/
def ofJson? (j : Json) : Option Channel := j.variantName?.bind ofName?

end Channel

namespace DeliveryStatus

/-- The written form, led by the name of the variant. -/
def toJson : DeliveryStatus → Json
  | sent messageId => .record [("status", .str "sent"), ("message_id", .str messageId)]
  | failed reason => .record [("status", .str "failed"), ("reason", .str reason)]

end DeliveryStatus

namespace Delivery

/-- The written form. -/
def toJson (record : Delivery) : Json :=
  .record [("destination", record.destination.toJson), ("namespace", record.channel.toJson),
    ("status", record.status.toJson)]

end Delivery

end SealedGroup
