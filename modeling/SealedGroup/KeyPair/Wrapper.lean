import SealedGroup.KeyPair.Frame

/-!
# Wrappers

A wrapper is the frame of a key pair sealed for one recipient. It names the
recipient, and only the recipient's secret opens it. Wrapping for many is all
or nothing: the first recipient without a usable key fails the whole batch.

Each wrapper takes its own coins. They are drawn by an action of any monad,
so that the same definition serves a pure supply and a running program.
-/

namespace SealedGroup

/-- **A key pair sealed for one recipient.** -/
structure Wrapper where
  recipient : Identifier
  ciphertext : Bytes
  deriving DecidableEq, Repr

namespace Wrapper

/-- The wrapper for one recipient, made with the given coins. -/
def wrap (pair : KeyPair) (recipient : Identifier) (coins : Coins) : Except KeyPairError Wrapper :=
  match recipient.publicKey with
  | .error cause => .error (.invalidRecipient cause)
  | .ok key => .ok ⟨recipient, SealedBox.encrypt key coins (Frame.encode pair)⟩

/-- **The wrappers for all recipients**, in their order, or the error of the
first recipient without a usable key. -/
def wrapAll {m : Type → Type} [Monad m] (draw : m Coins) (pair : KeyPair) :
    List Identifier → m (Except KeyPairError (List Wrapper))
  | [] => pure (.ok [])
  | recipient :: rest => do
    let coins ← draw
    match wrap pair recipient coins with
    | .error e => pure (.error e)
    | .ok wrapper =>
      match ← wrapAll draw pair rest with
      | .error e => pure (.error e)
      | .ok wrappers => pure (.ok (wrapper :: wrappers))

/-- **The key pair in a wrapper**, opened with the recipient's secret. -/
def unwrap (wrapper : Wrapper) (secret : Bytes) : Except KeyPairError KeyPair :=
  match SealedBox.decrypt secret wrapper.ciphertext with
  | .error cause => .error (.decryptionFailed cause)
  | .ok frame => Frame.decode frame

end Wrapper

end SealedGroup
