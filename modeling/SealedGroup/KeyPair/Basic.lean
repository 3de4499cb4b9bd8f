import SealedGroup.KeyPair.Error

/-!
# Group key pairs

The key pair that the members of a group share. A pair is a secret scalar
with its public key, and the type holds nothing else: two pairs with the same
secret are the same pair (`KeyPair.ext`).

A pair can be written as its two byte strings or as their hexadecimal texts.
Rebuilding it checks, in this order, that the texts are hexadecimal, the
public one first, that the secret part is a scalar, and that the public part
belongs to it.

An invitation hands the pair over as two byte strings. `RawPair.Carries` says
what they have to be for its receiver: the compressed public key and the bytes
of the secret, which `KeyPair.ofParts` reads back as the pair. One raw pair
does this, and it is the one that `KeyPair.toRaw` writes
(`RawPair.carries_iff`).
-/

namespace SealedGroup

/-- **A group key pair**: a secret and its public key. -/
structure KeyPair where
  secret : Scalar
  publicKey : PublicKey
  matched : publicKey = secret.publicKey
  deriving DecidableEq

/-- A key pair as two hexadecimal texts, the form in which it is stored. -/
structure KeyRow where
  publicText : String
  secretText : String
  deriving DecidableEq, Repr

/-- A key pair as two byte strings, the form in which an invitation carries
it. -/
structure RawPair where
  publicPart : Bytes
  secretPart : Bytes
  deriving DecidableEq, Repr

namespace KeyPair

/-- The pair of a secret. -/
def ofSecret (secret : Scalar) : KeyPair :=
  ⟨secret, secret.publicKey, rfl⟩

/-- **The pair with the given parts**, if they belong together. The secret
part is judged first. -/
def ofParts (publicPart secretPart : Bytes) : Except KeyPairError KeyPair :=
  match Scalar.ofBytes secretPart with
  | .error cause => .error (.invalidKey (.secret cause))
  | .ok secret =>
    let pair := ofSecret secret
    if pair.publicKey.compressed = publicPart then .ok pair
    else .error (.invalidKey .mismatch)

/-- The compressed public key. -/
def publicBytes (pair : KeyPair) : Bytes :=
  pair.publicKey.compressed

/-- The bytes of the secret. -/
def secretBytes (pair : KeyPair) : Bytes :=
  pair.secret.toBytes

/-- The public key as hexadecimal text. -/
def publicText (pair : KeyPair) : String :=
  Hex.encode pair.publicBytes

/-- The pair as two hexadecimal texts. -/
def toRow (pair : KeyPair) : KeyRow :=
  ⟨pair.publicText, Hex.encode pair.secretBytes⟩

/-- **The pair that two hexadecimal texts spell.** -/
def ofRow (row : KeyRow) : Except KeyPairError KeyPair :=
  match Hex.decode row.publicText with
  | .error cause => .error (.invalidHex cause)
  | .ok publicPart =>
    match Hex.decode row.secretText with
    | .error cause => .error (.invalidHex cause)
    | .ok secretPart => ofParts publicPart secretPart

/-- The pair as two byte strings. -/
def toRaw (pair : KeyPair) : RawPair :=
  ⟨pair.publicBytes, pair.secretBytes⟩

/-- The text by which a pair is shown in logs: its public key alone. -/
def redacted (pair : KeyPair) : String :=
  "GroupKeyPair \x7b public_key: \"" ++ pair.publicText ++ "\", .. \x7d"

/-- The standard identifier of whoever holds the secret. -/
def identifier (pair : KeyPair) : Identifier :=
  Identifier.ofPublicKey pair.publicKey

theorem ext {p q : KeyPair} (h : p.secret = q.secret) : p = q := by
  obtain ⟨s, pub, hp⟩ := p
  obtain ⟨t, pub', hq⟩ := q
  cases h; cases hp; cases hq; rfl

@[simp] theorem ofSecret_secret (pair : KeyPair) : ofSecret pair.secret = pair :=
  ext rfl

/-- Once the secret part is read, only the public part is left to compare. -/
theorem ofParts_of_ofBytes {secretPart : Bytes} {secret : Scalar}
    (h : Scalar.ofBytes secretPart = .ok secret) (publicPart : Bytes) :
    ofParts publicPart secretPart =
      if (ofSecret secret).publicBytes = publicPart then .ok (ofSecret secret)
      else .error (.invalidKey .mismatch) := by
  unfold ofParts
  rw [h]
  rfl

/-- A pair is rebuilt from its own parts. -/
theorem ofParts_bytes (pair : KeyPair) : ofParts pair.publicBytes pair.secretBytes = .ok pair := by
  have h := ofParts_of_ofBytes (Scalar.ofBytes_toBytes pair.secret) pair.publicBytes
  rw [ofSecret_secret, if_pos rfl] at h
  exact h

/-- Whatever parts a pair is rebuilt from are its own. -/
theorem bytes_of_ofParts {publicPart secretPart : Bytes} {pair : KeyPair}
    (h : ofParts publicPart secretPart = .ok pair) :
    pair.publicBytes = publicPart ∧ pair.secretBytes = secretPart := by
  unfold ofParts at h
  split at h
  · cases h
  · next secret hsecret =>
    simp only at h
    split at h
    · next hpublic =>
      cases h
      exact ⟨hpublic, Scalar.toBytes_of_ofBytes hsecret⟩
    · cases h

end KeyPair

namespace RawPair

variable {raw : RawPair} {pair : KeyPair}

/-- **Two byte strings carry a pair**: they are its compressed public key and
the bytes of its secret, and whoever reads them gets the pair. -/
structure Carries (raw : RawPair) (pair : KeyPair) : Prop where
  publicPart : raw.publicPart = pair.publicKey.compressed
  secretPart : raw.secretPart = pair.secret.toBytes
  readBack : KeyPair.ofParts raw.publicPart raw.secretPart = .ok pair

/-- A pair is carried by what it is written as. -/
theorem carries_toRaw (pair : KeyPair) : pair.toRaw.Carries pair :=
  ⟨rfl, rfl, pair.ofParts_bytes⟩

/-- **A pair is carried by nothing else** than what it is written as. -/
theorem carries_iff : raw.Carries pair ↔ raw = pair.toRaw := by
  constructor
  · rintro ⟨hpublic, hsecret, _⟩
    obtain ⟨publicPart, secretPart⟩ := raw
    cases hpublic
    cases hsecret
    rfl
  · rintro rfl
    exact carries_toRaw pair

end RawPair

end SealedGroup
