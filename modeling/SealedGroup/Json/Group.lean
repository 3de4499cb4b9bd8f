import SealedGroup.Group.Change
import SealedGroup.Json.KeyMaterial

/-!
# Written forms of groups

The stored state of a group, a proposed snapshot, the settings of
disappearing messages and the classified difference. The rosters of a state
are written in ascending order and read in any.
-/

namespace SealedGroup

namespace ExpirationMode

/-- The name by which a mode is written. -/
def name : ExpirationMode → String
  | off => "off"
  | legacy => "legacy"
  | deleteAfterRead => "deleteAfterRead"
  | deleteAfterSend => "deleteAfterSend"

/-- The mode with a name. -/
def ofName? (name : String) : Option ExpirationMode :=
  [off, legacy, deleteAfterRead, deleteAfterSend].find? fun mode => mode.name == name

/-- The written form. -/
def toJson (mode : ExpirationMode) : Json := .str mode.name

/-- The mode that a value names. -/
def ofJson? (j : Json) : Option ExpirationMode := j.variantName?.bind ofName?

end ExpirationMode

namespace ExpirationKind

/-- The name by which a type is written. -/
def name : ExpirationKind → String
  | unknown => "unknown"
  | deleteAfterRead => "deleteAfterRead"
  | deleteAfterSend => "deleteAfterSend"

/-- The type with a name. -/
def ofName? (name : String) : Option ExpirationKind :=
  [unknown, deleteAfterRead, deleteAfterSend].find? fun type => type.name == name

/-- The written form. -/
def toJson (type : ExpirationKind) : Json := .str type.name

/-- The type that a value names. -/
def ofJson? (j : Json) : Option ExpirationKind := j.variantName?.bind ofName?

end ExpirationKind

namespace ExpirationUpdate

/-- The names of the fields. -/
def fieldNames : List String :=
  ["expiration_type", "expiration_timer", "is_legacy_data_message"]

/-- The written form. -/
def toJson (update : ExpirationUpdate) : Json :=
  .record [("expiration_type", update.kind.toJson), ("expiration_timer", .ofUInt64 update.timer),
    ("is_legacy_data_message", .bool update.legacy)]

/-- The settings that a record holds. -/
def ofJson? (j : Json) : Option ExpirationUpdate := do
  match ← j.fields? fieldNames with
  | [some type, some timer, some legacy] =>
    pure ⟨← ExpirationKind.ofJson? type, ← timer.uint64?, ← legacy.bool?⟩
  | _ => none

end ExpirationUpdate

namespace Roster

/-- The written form: the members in ascending order. -/
def toJson (r : Roster) : Json := Identifier.listToJson r.toList

/-- The roster of the identifiers of an array. -/
def ofJson? (j : Json) : Option Roster := (Identifier.listOfJson? j).map ofList

end Roster

namespace StoredGroup

/-- The names of the fields. -/
def fieldNames : List String :=
  ["id", "name", "members", "zombies", "admins", "active_at", "left", "expiration_mode",
    "expire_timer"]

/-- The written form. -/
def toJson (g : StoredGroup) : Json :=
  .record [("id", g.id.toJson), ("name", .str g.name), ("members", g.members.toJson),
    ("zombies", g.zombies.toJson), ("admins", Identifier.listToJson g.admins),
    ("active_at", .ofInt64 g.activeAt), ("left", .bool g.left),
    ("expiration_mode", g.mode.toJson), ("expire_timer", .ofUInt64 g.timer)]

/-- The state that a record holds. -/
def ofJson? (j : Json) : Option StoredGroup := do
  match ← j.fields? fieldNames with
  | [some id, some name, some members, some zombies, some admins, some activeAt, some left,
      some mode, some timer] =>
    pure {
      id := ← Identifier.ofJson? id
      name := ← name.text?
      members := ← Roster.ofJson? members
      zombies := ← Roster.ofJson? zombies
      admins := ← Identifier.listOfJson? admins
      activeAt := ← activeAt.int64?
      left := ← left.bool?
      mode := ← ExpirationMode.ofJson? mode
      timer := ← timer.uint64? }
  | _ => none

end StoredGroup

namespace GroupSnapshot

/-- The names of the fields. -/
def fieldNames : List String :=
  ["id", "name", "members", "zombies", "active_at", "admins", "expiration_type", "expire_timer"]

/-- The written form. -/
def toJson (g : GroupSnapshot) : Json :=
  .record [("id", g.id.toJson), ("name", .str g.name),
    ("members", Identifier.listToJson g.members), ("zombies", Identifier.listToJson g.zombies),
    ("active_at", .ofInt64 g.activeAt), ("admins", Identifier.listToJson g.admins),
    ("expiration_type", g.expiration.toJson), ("expire_timer", .ofUInt64 g.timer)]

/-- The snapshot that a record holds. -/
def ofJson? (j : Json) : Option GroupSnapshot := do
  match ← j.fields? fieldNames with
  | [some id, some name, some members, some zombies, some activeAt, some admins,
      some expiration, some timer] =>
    pure {
      id := ← Identifier.ofJson? id
      name := ← name.text?
      members := ← Identifier.listOfJson? members
      zombies := ← Identifier.listOfJson? zombies
      activeAt := ← activeAt.int64?
      admins := ← Identifier.listOfJson? admins
      expiration := ← ExpirationKind.ofJson? expiration
      timer := ← timer.uint64? }
  | _ => none

end GroupSnapshot

namespace Change

/-- The written form, led by the name of the variant. -/
def toJson : Change → Json
  | renamed newName => .record [("type", .str "nameChange"), ("new_name", .str newName)]
  | added ids withHistory =>
    .record [("type", .str "membersAdded"), ("added", Identifier.listToJson ids),
      ("with_history", .bool withHistory)]
  | removed ids => .record [("type", .str "membersKicked"), ("kicked", Identifier.listToJson ids)]
  | unchanged => .record [("type", .str "noChange")]

/-- The difference with the given name of its variant and record of its
data. -/
def ofTagged? (tag : String) (j : Json) : Option Change := do
  if tag = "nameChange" then
    match ← j.fields? ["new_name"] with
    | [some newName] => pure (.renamed (← newName.text?))
    | _ => none
  else if tag = "membersAdded" then
    match ← j.fields? ["added", "with_history"] with
    | [some ids, some withHistory] =>
      pure (.added (← Identifier.listOfJson? ids) (← withHistory.bool?))
    | _ => none
  else if tag = "membersKicked" then
    match ← j.fields? ["kicked"] with
    | [some ids] => pure (.removed (← Identifier.listOfJson? ids))
    | _ => none
  else if tag = "noChange" then
    let _ ← j.fields? []
    pure .unchanged
  else none

/-- The difference that a value holds. -/
def ofJson? (j : Json) : Option Change := do
  let (tag, record) ← j.tagged? 0
  ofTagged? tag record

end Change

end SealedGroup
