import SealedGroup.Identifier
import SealedGroup.SealedBox
import SealedGroup.Text.CharLiteral

/-!
# What can be wrong with a key pair

The causes for which a key pair cannot be rebuilt from what spells it, and
for which it cannot be handed to a recipient or taken from a wrapper.
-/

namespace SealedGroup

/-- Why the parts of a key pair do not make one. -/
inductive KeyFault where
  /-- The secret part is not a scalar. -/
  | secret (cause : Scalar.Invalid)
  /-- The public part is not the public key of the secret part. -/
  | mismatch
  deriving DecidableEq, Repr

/-- Why a byte string is not the frame of a key pair. -/
inductive FrameFault where
  /-- It does not have the one length that frames have. -/
  | length (expected actual : Nat)
  /-- It begins with a version byte that is not known. -/
  | version (byte : UInt8)
  deriving DecidableEq, Repr

/-- What is wrong with a key pair, or with what should hold one. -/
inductive KeyPairError where
  /-- A recipient has no key to encrypt to. -/
  | invalidRecipient (cause : IdentifierError)
  /-- A wrapper does not open. -/
  | decryptionFailed (cause : SealedBox.Failure)
  /-- The bytes are not a frame. -/
  | invalidFrame (cause : FrameFault)
  /-- The parts do not make a pair. -/
  | invalidKey (cause : KeyFault)
  /-- A part is not hexadecimal text. -/
  | invalidHex (cause : Hex.Malformed)
  deriving DecidableEq, Repr

namespace KeyFault

/-- The error text. -/
def message : KeyFault → String
  | .secret cause => cause.word
  | .mismatch => "public key does not match private key"

end KeyFault

namespace FrameFault

/-- The error text. -/
def message : FrameFault → String
  | .length expected actual => "expected " ++ toString expected ++ " bytes, got " ++ toString actual
  | .version byte => "unsupported version " ++ toString byte.toNat

end FrameFault

namespace Hex.Malformed

/-- The error text. -/
def message : Malformed → String
  | .oddLength => "Odd number of digits"
  | .strayCharacter char position =>
    "Invalid character " ++ CharLiteral.render char ++ " at position " ++ toString position

end Hex.Malformed

namespace KeyPairError

/-- The error text. -/
def message : KeyPairError → String
  | .invalidRecipient cause => "Invalid recipient key: " ++ cause.message
  | .decryptionFailed cause => "Decryption failed: " ++ cause.word
  | .invalidFrame cause => "Invalid key pair frame: " ++ cause.message
  | .invalidKey cause => "Invalid key material: " ++ cause.message
  | .invalidHex cause => "Invalid hex: " ++ cause.message

end KeyPairError

end SealedGroup
