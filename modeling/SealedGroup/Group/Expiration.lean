/-!
# Disappearing messages

The mode a conversation is set to, and the kind that a message or notice is
stamped with. A group resolves its mode to a kind: legacy settings count as
deletion after sending, and a zero timer means that nothing expires.
-/

namespace SealedGroup

/-- The disappearing-message mode of a conversation. -/
inductive ExpirationMode where
  | off
  /-- Set by clients older than the split into kinds. -/
  | legacy
  | deleteAfterRead
  | deleteAfterSend
  deriving DecidableEq, Repr

/-- The kind of expiration of a message or notice. -/
inductive ExpirationKind where
  | unknown
  | deleteAfterRead
  | deleteAfterSend
  deriving DecidableEq, Repr

/-- **The kind of expiration a group resolves its settings to.** -/
def ExpirationKind.ofSettings (mode : ExpirationMode) (timer : UInt64) : ExpirationKind :=
  if timer = 0 then .unknown
  else
    match mode with
    | .off => .unknown
    | .legacy | .deleteAfterSend => .deleteAfterSend
    | .deleteAfterRead => .deleteAfterRead

/-- Expiration settings that come along with a notice. -/
structure ExpirationUpdate where
  kind : ExpirationKind
  timer : UInt64
  /-- The update arrived in a message of the legacy form. -/
  legacy : Bool
  deriving DecidableEq, Repr

end SealedGroup
