import SealedGroup.KeyPair.Wrapper

/-!
# Control messages

The messages by which the members of a group keep each other informed. Every
message has the same envelope – the group, the identifier of the local notice
it belongs to, the network time at which it was made, and a timer that is
always zero – and one body.

An invitation is sent to each new member alone; it carries all that is needed
to take part, the current key pair included.
-/

namespace SealedGroup

/-- What a control message says. -/
inductive MessageBody where
  | rename (name : String)
  | addition (ids : List Identifier)
  | removal (ids : List Identifier)
  | keyPair (wrappers : List Wrapper)
  | invitation (name : String) (members admins : List Identifier) (keyPair : RawPair)
  deriving DecidableEq, Repr

/-- **A control message.** -/
structure Message where
  groupId : Identifier
  identifier : String
  createdAt : Int64
  timer : UInt64
  body : MessageBody
  deriving DecidableEq

namespace MessageBody

/-- The word by which a body is named in logs. -/
def label : MessageBody → String
  | rename _ => "NameChange"
  | addition _ => "MembersAdded"
  | removal _ => "MembersRemoved"
  | keyPair _ => "EncryptionKeyPair"
  | invitation .. => "New"

end MessageBody

namespace Message

/-- A message with the given body. Control messages never expire. -/
def create (groupId : Identifier) (identifier : String) (createdAt : Int64)
    (body : MessageBody) : Message :=
  ⟨groupId, identifier, createdAt, 0, body⟩

/-- The text by which a message is shown in logs. -/
def summary (message : Message) : String :=
  message.body.label ++ " for " ++ message.groupId.text ++ " (" ++ message.identifier ++ ")"

end Message

end SealedGroup
