import SealedGroup.Proofs.KeyPair.Parts
import SealedGroup.Proofs.Ledger.Rows

/-!
# The hexadecimal form of a key pair

A pair is stored as a row of two hexadecimal texts, one for each of its parts. What a row is
read as is found out in four steps, each of which has an error of its own: the public text and
then the secret text are to be hexadecimal, and then the secret part is to be a secret and the
public part to be the key of it (`KeyRow.Reads`). The order matters to whoever gets the error. A
row with two faulty texts is refused for the public one, and a row with a faulty text is refused
for that, even if its other half is no part of any pair.

Case makes no difference to what is read, and is all that is lost: a row that holds a pair is,
in lower case, the row that the pair is written as (`KeyPair.each_pair_has_one_row`). Hence a
row that was written here reads back, a row whose digits were put in upper case on the way is
read as the same pair, and no other row is.

Of the four steps the first two belong to `Hex.decode` and the others to `KeyPair.ofParts`. Both
have been described by equivalences, `Hex.decode_eq_error_iff` and `KeyPair.ofParts_eq_iff`, and
the description of a row is put together from these; no digit and no point of the curve is
looked at again.
-/

namespace SealedGroup

namespace KeyRow

/-- The row in lower case. -/
def toLower (row : KeyRow) : KeyRow :=
  ⟨row.publicText.toLower, row.secretText.toLower⟩

/-- **The row spells two byte strings**, in digits of either case. -/
structure Spells (row : KeyRow) (publicPart secretPart : Bytes) : Prop where
  publicText_eq : row.publicText.toLower = Hex.encode publicPart
  secretText_eq : row.secretText.toLower = Hex.encode secretPart

/-- **What a row is read as**, by its public text, its secret text and the parts that they spell.
A text that is not hexadecimal is at fault for its octets. -/
inductive Reads (row : KeyRow) : Except KeyPairError KeyPair → Prop where
  | publicText {cause : Hex.Malformed} (hpublic : Hex.Faulty (Hex.octets row.publicText) cause) :
      Reads row (.error (.invalidHex cause))
  | secretText {cause : Hex.Malformed} (hpublic : Hex.IsText row.publicText.toList)
      (hsecret : Hex.Faulty (Hex.octets row.secretText) cause) :
      Reads row (.error (.invalidHex cause))
  | parts {publicPart secretPart : Bytes} {result : Except KeyPairError KeyPair}
      (hspells : row.Spells publicPart secretPart)
      (hmakes : KeyPair.Makes publicPart secretPart result) : Reads row result

end KeyRow

namespace KeyPair

variable {row : KeyRow}

/-- A row that spells two parts is read as what they make. -/
theorem ofRow_of_spells {publicPart secretPart : Bytes} (h : row.Spells publicPart secretPart) :
    ofRow row = ofParts publicPart secretPart := by
  unfold ofRow
  rw [Hex.decode_eq_ok_iff.mpr h.publicText_eq, Hex.decode_eq_ok_iff.mpr h.secretText_eq]

/-- **The public text is looked at first.** -/
theorem ofRow_of_publicText {cause : Hex.Malformed}
    (h : Hex.decode row.publicText = .error cause) : ofRow row = .error (.invalidHex cause) := by
  unfold ofRow
  rw [h]

/-- Then the secret text is looked at. -/
theorem ofRow_of_secretText {publicPart : Bytes} {cause : Hex.Malformed}
    (hpublic : Hex.decode row.publicText = .ok publicPart)
    (hsecret : Hex.decode row.secretText = .error cause) :
    ofRow row = .error (.invalidHex cause) := by
  unfold ofRow
  rw [hpublic, hsecret]

/-- **Every row is read** in one of these ways. -/
theorem reads_ofRow (row : KeyRow) : row.Reads (ofRow row) := by
  cases hpublic : Hex.decode row.publicText with
  | error cause =>
    rw [ofRow_of_publicText hpublic]
    exact .publicText (Hex.decode_eq_error_iff.mp hpublic)
  | ok publicPart =>
    cases hsecret : Hex.decode row.secretText with
    | error cause =>
      rw [ofRow_of_secretText hpublic hsecret]
      exact .secretText (Hex.exists_decode_iff.mp ⟨publicPart, hpublic⟩)
        (Hex.decode_eq_error_iff.mp hsecret)
    | ok secretPart =>
      have hspells : row.Spells publicPart secretPart :=
        ⟨Hex.decode_eq_ok_iff.mp hpublic, Hex.decode_eq_ok_iff.mp hsecret⟩
      rw [ofRow_of_spells hspells]
      exact .parts hspells (makes_ofParts publicPart secretPart)

/-- **A row is read in one way** only. -/
theorem ofRow_eq_iff {result : Except KeyPairError KeyPair} :
    ofRow row = result ↔ row.Reads result := by
  refine ⟨fun h => h ▸ reads_ofRow row, fun h => ?_⟩
  cases h with
  | publicText hpublic => exact ofRow_of_publicText (Hex.decode_eq_error_iff.mpr hpublic)
  | secretText hpublic hsecret =>
    obtain ⟨publicPart, hpublic⟩ := Hex.exists_decode_iff.mpr hpublic
    exact ofRow_of_secretText hpublic (Hex.decode_eq_error_iff.mpr hsecret)
  | parts hspells hmakes => rw [ofRow_of_spells hspells, ofParts_eq_iff.mpr hmakes]

/-- Two texts are hexadecimal exactly if there is something that they spell. -/
theorem exists_spells_iff :
    (∃ publicPart secretPart, row.Spells publicPart secretPart) ↔
      Hex.IsText row.publicText.toList ∧ Hex.IsText row.secretText.toList := by
  rw [← Hex.exists_decode_iff, ← Hex.exists_decode_iff]
  simp only [Hex.decode_eq_ok_iff]
  constructor
  · rintro ⟨publicPart, secretPart, hpublic, hsecret⟩
    exact ⟨⟨publicPart, hpublic⟩, secretPart, hsecret⟩
  · rintro ⟨⟨publicPart, hpublic⟩, secretPart, hsecret⟩
    exact ⟨publicPart, secretPart, hpublic, hsecret⟩

/-- A row that holds a pair spells its parts. -/
theorem spells_of_ofRow {pair : KeyPair} (h : ofRow row = .ok pair) :
    row.Spells pair.publicBytes pair.secretBytes := by
  cases ofRow_eq_iff.mp h with
  | parts hspells hmakes =>
    obtain ⟨hpublic, hsecret⟩ := bytes_of_ofParts (ofParts_eq_iff.mpr hmakes)
    rwa [hpublic, hsecret]

/-- **Which rows hold a pair.** -/
theorem exists_ofRow_iff :
    (∃ pair, ofRow row = .ok pair) ↔
      Hex.IsText row.publicText.toList ∧ Hex.IsText row.secretText.toList ∧
        ∃ publicPart secretPart, row.Spells publicPart secretPart ∧
          secretPart.length = 32 ∧ 0 < Bytes.toNat secretPart ∧
          Bytes.toNat secretPart < groupOrder ∧
          ∃ q : PublicKey, q.point = Bytes.toNat secretPart • PublicKey.generator.point ∧
            publicPart = q.compressed := by
  constructor
  · rintro ⟨pair, h⟩
    have hspells := spells_of_ofRow h
    obtain ⟨hpublic, hsecret⟩ := exists_spells_iff.mp ⟨_, _, hspells⟩
    refine ⟨hpublic, hsecret, _, _, hspells, exists_ofParts_iff.mp ⟨pair, ?_⟩⟩
    rw [← ofRow_of_spells hspells, h]
  · rintro ⟨-, -, publicPart, secretPart, hspells, hparts⟩
    rw [ofRow_of_spells hspells]
    exact exists_ofParts_iff.mpr hparts

/-- **Each pair has one row**, up to the case of its digits. What a pair is written as is read as
that pair. A row holds a pair exactly if both of its texts are digits of either case, two to a
byte, of which the secret ones spell a number in range in 32 bytes and the public ones the
multiple of the base point by that number, and then it is, in lower case, the row of that pair.
For any other row the public text is to blame if it is not hexadecimal, or else the secret text if
that is not, or else the secret part if it is no secret, or else the public part. -/
theorem each_pair_has_one_row :
    (∀ pair, ofRow pair.toRow = .ok pair) ∧
    (∀ row, (∃ pair, ofRow row = .ok pair) ↔
      Hex.IsText row.publicText.toList ∧ Hex.IsText row.secretText.toList ∧
        ∃ publicPart secretPart, row.Spells publicPart secretPart ∧
          secretPart.length = 32 ∧ 0 < Bytes.toNat secretPart ∧
          Bytes.toNat secretPart < groupOrder ∧
          ∃ q : PublicKey, q.point = Bytes.toNat secretPart • PublicKey.generator.point ∧
            publicPart = q.compressed) ∧
    (∀ row pair, ofRow row = .ok pair → pair.toRow = row.toLower) ∧
    ∀ row result, ofRow row = result ↔ row.Reads result := by
  refine ⟨ofRow_toRow, fun _ => exists_ofRow_iff, fun row pair h => ?_, fun _ _ => ofRow_eq_iff⟩
  obtain ⟨hpublic, hsecret⟩ := spells_of_ofRow h
  unfold KeyRow.toLower
  rw [hpublic, hsecret]
  rfl

end KeyPair

end SealedGroup
