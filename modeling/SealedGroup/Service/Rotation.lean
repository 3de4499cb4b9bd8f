import SealedGroup.Rotation.Outcome
import SealedGroup.Service.Backend

/-!
# Key pair rotation

A rotation gives a group a new key pair. `Rotation.prepare` checks that we
may rotate, makes a pair, registers it and wraps it for its recipients;
`Rotation.confirm` stores the pair once its message is confirmed sent, if
the attempt is still the current one; `Rotation.run` does both around
one send.

A pair becomes the current one of its group only through `confirm`. A send
that fails leaves the attempt registered, for a later confirmation.
-/

namespace SealedGroup

namespace Rotation

variable {σ : Type}

/-- The outcome of a rotation that must not start, if it must not. -/
def refusal (backend : Backend σ) (config : Config) (group : Identifier)
    (requesterIsAdmin : Bool) : Act σ (Option Rotation.Outcome) := do
  match ← Act.ledger (backend.loadGroup group) with
  | none => pure (some .notApplicable)
  | some state =>
    if !state.isLegacy then pure (some .notApplicable)
    else if !requesterIsAdmin || !state.isAdmin config.account then pure (some .unauthorized)
    else pure none

/-- **Makes a new pair for a group**, registers it and wraps it for the
targets. If a target cannot be wrapped for, the attempt is taken back. -/
def prepare (backend : Backend σ) (config : Config) (group : Identifier)
    (targets : List Identifier) (requesterIsAdmin : Bool) : Act σ Rotation.Prepared := do
  match ← refusal backend config group requesterIsAdmin with
  | some outcome => pure (.skipped outcome)
  | none =>
    let secret ← Act.outside backend.drawSecret
    let pair := KeyPair.ofSecret secret
    let attempt ← Act.outside backend.drawUuid
    Act.registry fun r => ((), r.register group attempt pair)
    match ← Act.outside (Wrapper.wrapAll backend.drawCoins pair targets) with
    | .error cause =>
      let _ ← Act.registry fun r => r.withdraw group attempt
      throw (.encryption cause)
    | .ok wrappers =>
      let identifier ← Act.outside backend.drawUuid
      let createdAt ← config.networkTime backend
      pure (.ready {
        groupId := group
        attempt := attempt
        pair := pair
        message := Message.create group identifier.text createdAt (.keyPair wrappers)
        recipients := targets.length })

/-- Adds the pair of a registered attempt to the history of its group. -/
def storePair (backend : Backend σ) (group : Identifier) (entry : Attempt) :
    StateM σ (Except LedgerError Unit) := do
  let result ← backend.appendPair group entry.pair
  pure (result.map fun _ => ())

/-- Stores the pair of a rotation if its attempt is current, and removes the
attempt once the pair is stored; tells whether it did. -/
def settle (backend : Backend σ) (pending : Rotation.Pending) : Act σ Bool :=
  ExceptT.mk fun world =>
    let ((result, r), s) :=
      world.inFlight.settle pending.groupId pending.attempt
        (storePair backend pending.groupId) world.outside
    (result.mapError .ledger, ⟨r, s⟩)

/-- **Commits a rotation whose message was confirmed sent.** A confirmation
for an attempt that is no longer current changes nothing. -/
def confirm (backend : Backend σ) (pending : Rotation.Pending) : Act σ Rotation.Outcome := do
  if ← settle backend pending then
    Act.ledger (backend.commit pending.groupId)
    pure (.committed pending.pair.publicText pending.recipients)
  else pure .superseded

/-- **Rotates the key pair of a group**: prepares, sends and confirms. -/
def run (backend : Backend σ) (config : Config) (group : Identifier)
    (targets : List Identifier) (requesterIsAdmin : Bool) : Act σ Rotation.Outcome := do
  match ← prepare backend config group targets requesterIsAdmin with
  | .skipped outcome => pure outcome
  | .ready pending =>
    match ← Act.whole (backend.send (.toGroup group pending.message)) with
    | .ok _ => confirm backend pending
    | .error _ => pure .outstanding

end Rotation

end SealedGroup
