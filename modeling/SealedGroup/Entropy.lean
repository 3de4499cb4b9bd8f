import SealedGroup.Cipher.Gcm
import SealedGroup.Cipher.Sha256
import SealedGroup.SealedBox
import SealedGroup.Uuid

/-!
# Sources of randomness

A source is a stream of blocks of bytes, any stream at all, and the number of
blocks that were drawn from it. Secrets, nonces and random identifiers are
made of the blocks, so that whatever is drawn, some source gives it, and a run
of the service is a function of its source.

The source of a seed is one of them: each of its blocks is the hash of the
seed and a counter (`Entropy.ofSeed`).
-/

namespace SealedGroup

/-- **A source of randomness**: its blocks, and how many of them were drawn. -/
structure Entropy where
  source : Nat → Bytes
  counter : Nat

namespace Entropy

/-- The block of 32 bytes that a seed has at a given place. -/
def block (seed : Bytes) (number : Nat) : Bytes :=
  Sha256.hash (seed ++ Bytes.ofNat 8 number)

/-- The source of a seed, with nothing drawn from it. -/
def ofSeed (seed : Bytes) : Entropy := ⟨block seed, 0⟩

/-- The next block. -/
def next : StateM Entropy Bytes := fun e =>
  (e.source e.counter, { e with counter := e.counter + 1 })

/-- A random identifier. -/
def uuid : StateM Entropy Uuid := do
  let bs ← next
  pure (Uuid.ofBytes bs)

/-- A secret, from twice as many bits as a secret has. -/
def secret : StateM Entropy Scalar := do
  let high ← next
  let low ← next
  pure (Scalar.ofNat (Bytes.toNat (high ++ low)))

/-- A nonce: half a block. -/
def nonceOf (bs : Bytes) : Bytes :=
  Bytes.ofNat Gcm.nonceSize (Bytes.toNat bs)

/-- The coins of a sealed box. -/
def coins : StateM Entropy Coins := do
  let ephemeral ← secret
  let bs ← next
  pure ⟨ephemeral, nonceOf bs, by simp [nonceOf]⟩

end Entropy

end SealedGroup
