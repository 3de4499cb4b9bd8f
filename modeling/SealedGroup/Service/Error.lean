import SealedGroup.KeyPair.Error
import SealedGroup.Ledger.Error

/-!
# Service errors

Why the service refuses an operation or cannot finish it. Failed sends are
not among them: they are reported, and what was recorded before them stays.
-/

namespace SealedGroup

/-- What a local edit must not do. -/
inductive Precondition where
  /-- The identifier is that of a keyed group. -/
  | keyedGroup
  /-- The messages of the group expire after reading. -/
  | readExpiration
  /-- The edit removes us. -/
  | selfRemoval
  /-- The edit removes the primary administrator and leaves others. -/
  | primaryAdminRemoval
  deriving DecidableEq, Repr

/-- What an operation needs and does not find. -/
inductive Missing where
  | group (id : Identifier)
  /-- The current key pair of a group. -/
  | keyPair (group : Identifier)
  deriving DecidableEq, Repr

/-- **Why the service fails.** -/
inductive ServiceError where
  /-- Refused before anything was written or sent. -/
  | preconditionFailed (cause : Precondition)
  /-- A group or key pair is missing. -/
  | notFound (what : Missing)
  /-- A key pair could not be wrapped for a recipient. -/
  | encryption (cause : KeyPairError)
  /-- A ledger failed. -/
  | ledger (cause : LedgerError)
  deriving DecidableEq, Repr

namespace Precondition

/-- The error text. -/
def message : Precondition → String
  | keyedGroup => "apply_local_change does not handle keyed groups"
  | readExpiration => "groups cannot be deleteAfterRead"
  | selfRemoval => "cannot remove members and leave the group at the same time"
  | primaryAdminRemoval => "cannot remove the admin from a closed group without removing everyone"

end Precondition

namespace Missing

/-- The error text. -/
def message : Missing → String
  | group id => "group " ++ id.text
  | keyPair id => "encryption key pair for group " ++ id.text

end Missing

namespace ServiceError

/-- The error text. -/
def message : ServiceError → String
  | preconditionFailed cause => "Precondition failed: " ++ cause.message
  | notFound what => "Not found: " ++ what.message
  | encryption cause => "Encryption failure: " ++ cause.message
  | ledger cause => "Storage error: " ++ cause.message

end ServiceError

end SealedGroup
