import SealedGroup.Delivery
import SealedGroup.Rotation.InFlight

/-!
# How a rotation goes

A rotation is prepared – its pair made, registered and wrapped – then sent,
then confirmed. It may be skipped before it starts, and it ends in one of the
outcomes listed here.
-/

namespace SealedGroup

/-- **How a rotation ended.** -/
inductive Rotation.Outcome where
  /-- The pair was distributed and is the current one of the group. -/
  | committed (publicKey : String) (recipients : Nat)
  /-- A newer attempt took its place before the confirmation came. -/
  | superseded
  /-- The send failed; the attempt stays registered. -/
  | outstanding
  /-- There is no such group, or it is not a legacy one. -/
  | notApplicable
  /-- The requester is no administrator of the group. -/
  | unauthorized
  /-- The rotation after a removal ended in an error. -/
  | failed (reason : String)
  deriving DecidableEq, Repr

/-- A rotation that waits for its message to be confirmed. -/
structure Rotation.Pending where
  groupId : Identifier
  attempt : Uuid
  pair : KeyPair
  message : Message
  recipients : Nat
  deriving DecidableEq

/-- What preparing a rotation gives. -/
inductive Rotation.Prepared where
  | ready (pending : Rotation.Pending)
  | skipped (outcome : Rotation.Outcome)
  deriving DecidableEq

end SealedGroup
