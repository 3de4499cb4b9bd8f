import SealedGroup.Cipher.Gcm
import SealedGroup.Cipher.Hkdf
import SealedGroup.Curve.Scalar

/-!
# Sealed boxes

Encryption to a public key. The sender makes a fresh scalar for each box;
the product of its public key with the recipient's secret, which is also the
product of the recipient's public key with the fresh scalar, is hashed to the
key of an authenticated cipher. A box names nobody: it holds the sender's
fresh public key, a nonce, a tag and the ciphertext.

Opening a box checks the secret, then the fresh public key, then the tag.
-/

namespace SealedGroup

/-- What a box takes from a source of randomness. -/
structure Coins where
  /-- The sender's scalar, used for one box only. -/
  ephemeral : Scalar
  /-- The nonce of the cipher. -/
  nonce : Bytes
  length_nonce : nonce.length = Gcm.nonceSize
  deriving DecidableEq

namespace SealedBox

/-- The bytes of an uncompressed public key. -/
def keySize : Nat := 65

/-- Why a box cannot be opened. -/
inductive Failure where
  /-- The secret is not a scalar. -/
  | secret (cause : Scalar.Invalid)
  /-- The box does not begin with the uncompressed spelling of a key. -/
  | publicKey
  /-- The box is too short, or its tag is wrong. -/
  | message
  deriving DecidableEq, Repr

/-- The word by which error texts name the failure. -/
def Failure.word : Failure → String
  | .secret cause => cause.word
  | .publicKey => "InvalidPublicKey"
  | .message => "InvalidMessage"

/-- The cipher key for a sender's key and the point both sides compute. -/
def cipherKey (sender shared : PublicKey) : Bytes :=
  Hkdf.derive [] (sender.uncompressed ++ shared.uncompressed) [] 32

/-- **A text sealed** to a public key. -/
def encrypt (recipient : PublicKey) (coins : Coins) (text : Bytes) : Bytes :=
  let sender := coins.ephemeral.publicKey
  let key := cipherKey sender (coins.ephemeral.scale recipient)
  let (tag, ciphertext) := Gcm.encrypt key coins.nonce text
  sender.uncompressed ++ (coins.nonce ++ (tag ++ ciphertext))

/-- **The text of a box**, opened with the recipient's secret. -/
def decrypt (secret box : Bytes) : Except Failure Bytes :=
  match Scalar.ofBytes secret with
  | .error cause => .error (.secret cause)
  | .ok secret =>
    if box.length < keySize then .error .message
    else
      match PublicKey.ofUncompressed? (box.take keySize) with
      | none => .error .publicKey
      | some sender =>
        let sealedPart := box.drop keySize
        if sealedPart.length < Gcm.nonceSize + Gcm.tagSize then .error .message
        else
          let nonce := sealedPart.take Gcm.nonceSize
          let tag := (sealedPart.drop Gcm.nonceSize).take Gcm.tagSize
          let ciphertext := sealedPart.drop (Gcm.nonceSize + Gcm.tagSize)
          match Gcm.decrypt (cipherKey sender (secret.scale sender)) nonce tag ciphertext with
          | none => .error .message
          | some text => .ok text

end SealedBox

end SealedGroup
