import SealedGroup.Group.Change
import SealedGroup.Uuid

/-!
# Notices

The entries of a conversation log that report a change of a group. A notice
says one thing about the group, who did it and when, and carries expiration
fields only where they are stamped on it.

Stamping knows deletion after sending alone: any other kind that does expire
is recorded as unknown with a zero timer.
-/

namespace SealedGroup

/-- What a notice reports. -/
inductive Announcement where
  | renamed (name : String)
  | joined (ids : List Identifier)
  | joinedWithHistory (ids : List Identifier)
  | removed (ids : List Identifier)
  | left (ids : List Identifier)
  | promoted (ids : List Identifier)
  | avatarChanged
  deriving DecidableEq, Repr

/-- Whether a notice reports something we did. -/
inductive Direction where
  | outgoing
  | incoming
  deriving DecidableEq, Repr

/-- **A group update in a conversation log.** -/
structure Notice where
  id : String
  conversation : Identifier
  sender : Identifier
  sentAt : Int64
  direction : Direction
  announcement : Announcement
  expiration : Option ExpirationKind
  timer : Option UInt64
  /-- The time from which the timer runs. -/
  expirationStart : Option Int64
  deriving DecidableEq

namespace Announcement

/-- The announcement of a change, if there is something to announce. -/
def ofChange? : Change → Option Announcement
  | .renamed newName => some (.renamed newName)
  | .added ids withHistory => some (if withHistory then .joinedWithHistory ids else .joined ids)
  | .removed ids => some (.removed ids)
  | .unchanged => none

end Announcement

namespace Notice

/-- A notice without expiration. It is outgoing exactly if we are its
sender. -/
def create (id : Uuid) (conversation : Identifier) (announcement : Announcement)
    (sender account : Identifier) (sentAt : Int64) : Notice where
  id := id.text
  conversation := conversation
  sender := sender
  sentAt := sentAt
  direction := if sender = account then .outgoing else .incoming
  announcement := announcement
  expiration := none
  timer := none
  expirationStart := none

/-- **The notice with the expiration of an update stamped on it.** -/
def stamped (notice : Notice) : Option ExpirationUpdate → Notice
  | none => notice
  | some update =>
    if update.kind = .unknown ∨ update.timer = 0 then notice
    else
      let afterSend := update.kind == .deleteAfterSend
      { notice with
        expiration := some (if afterSend then .deleteAfterSend else .unknown)
        timer := some (if afterSend then update.timer else 0)
        expirationStart :=
          if update.legacy || afterSend then some notice.sentAt else notice.expirationStart }

/-- A stamp leaves alone what a notice reports. -/
theorem stamped_fields (notice : Notice) (update : Option ExpirationUpdate) :
    (notice.stamped update).conversation = notice.conversation ∧
      (notice.stamped update).sender = notice.sender ∧
      (notice.stamped update).direction = notice.direction ∧
      (notice.stamped update).announcement = notice.announcement := by
  unfold stamped
  split
  · exact ⟨rfl, rfl, rfl, rfl⟩
  · split <;> exact ⟨rfl, rfl, rfl, rfl⟩

end Notice

end SealedGroup
