import SealedGroup.Message

/-!
# Delivery

Messages are handed to a transport, either addressed to a whole group or to
one member. A send that the transport confirms gives a message identifier;
one that fails gives an error, which is reported and never raised.

Of every attempt a record is kept. `Delivery.Records` says what it has to tell
– whom the message was for, by which channel it went and what was answered –
and `Delivery.records_ofResult` that `Delivery.ofResult` writes such records.
-/

namespace SealedGroup

/-- The channel that a message is routed to. -/
inductive Channel where
  /-- Traffic between two accounts, invitations among it. -/
  | direct
  /-- Traffic addressed to a legacy group. -/
  | legacyGroup
  deriving DecidableEq, Repr

namespace Channel

/-- The number by which the network knows the channel. -/
def tag : Channel → Int
  | direct => 0
  | legacyGroup => -10

end Channel

/-- Whom a message is addressed to. -/
inductive Recipient where
  | group (id : Identifier)
  | member (id : Identifier)
  deriving DecidableEq, Repr

namespace Recipient

/-- The identifier that a message is addressed to. -/
def id : Recipient → Identifier
  | group id => id
  | member id => id

end Recipient

/-- **A message on its way**: whom it is for, and by which channel. -/
structure Dispatch where
  recipient : Recipient
  message : Message
  channel : Channel
  deriving DecidableEq

namespace Dispatch

/-- A message to a whole group. -/
def toGroup (id : Identifier) (message : Message) : Dispatch :=
  ⟨.group id, message, .legacyGroup⟩

/-- A message to one member. -/
def toMember (id : Identifier) (message : Message) : Dispatch :=
  ⟨.member id, message, .direct⟩

end Dispatch

/-- Why a message was not sent. The reasons are the transport's own words. -/
inductive SendError where
  | groupSendFailed (group reason : String)
  | memberSendFailed (member reason : String)
  | unavailable (reason : String)
  | other (reason : String)
  deriving DecidableEq, Repr

namespace SendError

/-- The error text. -/
def message : SendError → String
  | groupSendFailed group reason => "Failed to send to group " ++ group ++ ": " ++ reason
  | memberSendFailed member reason => "Failed to send to member " ++ member ++ ": " ++ reason
  | unavailable reason => "Transport unavailable: " ++ reason
  | other reason => "An unknown error occurred: " ++ reason

end SendError

/-- How one send ended. -/
inductive DeliveryStatus where
  | sent (messageId : String)
  | failed (reason : String)
  deriving DecidableEq, Repr

/-- **The record of one send.** -/
structure Delivery where
  destination : Identifier
  channel : Channel
  status : DeliveryStatus
  deriving DecidableEq, Repr

namespace Delivery

/-- The record of a dispatch that ended with the given result. -/
def ofResult (dispatch : Dispatch) (result : Except SendError String) : Delivery where
  destination := dispatch.recipient.id
  channel := dispatch.channel
  status :=
    match result with
    | .ok messageId => .sent messageId
    | .error e => .failed e.message

/-- **A record tells of an attempt** to send something: whom it was for, by
which channel it went, and the identifier or the error that was answered. -/
structure Records (record : Delivery) (dispatch : Dispatch)
    (answer : Except SendError String) : Prop where
  destination : dispatch.recipient = .group record.destination ∨
    dispatch.recipient = .member record.destination
  channel : record.channel = dispatch.channel
  sent : ∀ messageId, answer = .ok messageId → record.status = .sent messageId
  failed : ∀ error, answer = .error error → record.status = .failed error.message

/-- What is recorded of a dispatch tells of it. -/
theorem records_ofResult (dispatch : Dispatch) (answer : Except SendError String) :
    (ofResult dispatch answer).Records dispatch answer where
  destination := by
    obtain ⟨_ | _, _, _⟩ := dispatch
    · exact .inl rfl
    · exact .inr rfl
  channel := rfl
  sent := by
    rintro messageId rfl
    rfl
  failed := by
    rintro error rfl
    rfl

/-- The transport confirmed the send. -/
def isConfirmed (record : Delivery) : Bool :=
  match record.status with
  | .sent _ => true
  | .failed _ => false

end Delivery

end SealedGroup
