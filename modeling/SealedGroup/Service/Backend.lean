import SealedGroup.Delivery
import SealedGroup.Group.Notice
import SealedGroup.Rotation.InFlight
import SealedGroup.Service.Error

/-!
# What the service works with

The service keeps nothing but the registry of rotations in flight. All else
is behind a `Backend`: the ledgers of groups and of key pairs, the clock, the
source of randomness and the transport, each an operation on an outside state
of any type. Every ledger operation may fail at any call.

Sending is where the service waits. Whatever else goes on meanwhile may touch
the registry, so that a send acts on the whole `World` and not on the outside
state alone.
-/

namespace SealedGroup

/-- The state that an operation of the service acts on. -/
structure World (σ : Type) where
  inFlight : InFlight
  outside : σ

/-- **The operations that the service works with**, over an outside state. -/
structure Backend (σ : Type) where
  /-- The group stored under an identifier. -/
  loadGroup : Identifier → StateM σ (Except LedgerError (Option StoredGroup))
  /-- Writes a group, in place of any former state. -/
  saveGroup : StoredGroup → StateM σ (Except LedgerError Unit)
  /-- Marks a group as changed. -/
  commit : Identifier → StateM σ (Except LedgerError Unit)
  /-- Adds a notice to a conversation log. -/
  appendNotice : Notice → StateM σ (Except LedgerError Unit)
  /-- The current key pair of a group. -/
  currentPair : Identifier → StateM σ (Except LedgerError (Option KeyPair))
  /-- Adds a pair to the history of a group unless it is there already, and
  tells whether it was added. -/
  appendPair : Identifier → KeyPair → StateM σ (Except LedgerError Bool)
  /-- The local time in milliseconds. -/
  now : StateM σ Int64
  /-- A fresh random identifier. -/
  drawUuid : StateM σ Uuid
  /-- A fresh secret. -/
  drawSecret : StateM σ Scalar
  /-- Fresh coins for a sealed box. -/
  drawCoins : StateM σ Coins
  /-- Hands a message to the transport and waits for it to be confirmed. -/
  send : Dispatch → StateM (World σ) (Except SendError String)

/-- The settings of the service. -/
structure Config where
  /-- Our own account. -/
  account : Identifier
  /-- Network time less local time, in milliseconds. -/
  networkOffset : Int64
  deriving DecidableEq

/-- An operation of the service: it acts on the world, and whatever it did
before an error stays done. -/
abbrev Act (σ : Type) (α : Type) := ExceptT ServiceError (StateM (World σ)) α

namespace Act

variable {σ α : Type}

/-- An action on the outside state. -/
def outside (action : StateM σ α) : Act σ α :=
  ExceptT.mk fun world =>
    let (a, s) := action world.outside
    (.ok a, { world with outside := s })

/-- An action of a ledger; its error becomes ours. -/
def ledger (action : StateM σ (Except LedgerError α)) : Act σ α :=
  ExceptT.mk fun world =>
    let (result, s) := action world.outside
    (result.mapError .ledger, { world with outside := s })

/-- A change of the registry. -/
def registry (change : InFlight → α × InFlight) : Act σ α :=
  ExceptT.mk fun world =>
    let (a, r) := change world.inFlight
    (.ok a, { world with inFlight := r })

/-- An action on the whole world. -/
def whole (action : StateM (World σ) α) : Act σ α :=
  ExceptT.mk fun world =>
    let (a, world) := action world
    (.ok a, world)

/-- **The result of an operation**, and the world after it. -/
def exec (act : Act σ α) (world : World σ) : Except ServiceError α × World σ :=
  act world

end Act

namespace Config

variable {σ : Type}

/-- The network time, from the local clock. -/
def networkTime (config : Config) (backend : Backend σ) : Act σ Int64 := do
  let now ← Act.outside backend.now
  pure (now + config.networkOffset)

end Config

end SealedGroup
