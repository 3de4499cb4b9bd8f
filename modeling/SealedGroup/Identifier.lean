import SealedGroup.Curve.PublicKey
import SealedGroup.Text.Blank
import SealedGroup.Text.Hex

/-!
# Identifiers

Accounts and groups are named by identifiers: a tag byte and the bytes of a
key. The tag says what the identifier may be used for; only a *standard* one,
with tag `05` and 33 key bytes, stands for a public key that can be encrypted
to.

The text of an identifier is its lower-case hexadecimal spelling. Reading a
text allows blanks around it and digits of either case, and `Identifier.parse`
therefore brings every accepted text to the one canonical form:
`Identifier.parse_text` says that the text of an identifier reads back as
that identifier.

Identifiers are ordered as their texts are. Since every byte has two digits
and the digits sort as their values do, this is the lexicographic order of
the bytes.
-/

namespace SealedGroup

/-- What is wrong with an identifier. Each cause holds the offending text. -/
inductive IdentifierError where
  /-- The text is not the spelling of an identifier. -/
  | invalidIdentifier (raw : String)
  /-- The identifier is not a standard one. -/
  | notStandard (id : String)
  /-- The key bytes are not those of a point of the curve. -/
  | invalidCurvePoint (id : String)
  deriving DecidableEq, Repr

namespace IdentifierError

/-- The error text. -/
def message : IdentifierError → String
  | .invalidIdentifier raw => "Invalid identifier: " ++ raw
  | .notStandard id => "Identifier is not a standard account id: " ++ id
  | .invalidCurvePoint id => "Identifier does not hold a valid curve point: " ++ id

end IdentifierError

/-- What an identifier may be used for, by its tag byte. -/
inductive KeyTag where
  /-- Regular accounts and legacy groups. -/
  | standard
  /-- Groups under the keyed configuration protocol. -/
  | keyedGroup
  /-- Accounts blinded for a community. -/
  | blinded15
  /-- Accounts blinded for a community, by the newer scheme. -/
  | blinded25
  /-- No known use. -/
  | unknown (byte : UInt8)
  deriving DecidableEq, Repr

namespace KeyTag

/-- The use that a tag byte stands for. -/
def ofByte (byte : UInt8) : KeyTag :=
  if byte = 0x05 then .standard
  else if byte = 0x03 then .keyedGroup
  else if byte = 0x15 then .blinded15
  else if byte = 0x25 then .blinded25
  else .unknown byte

end KeyTag

/-- **An identifier**: a tag byte and the bytes of a key. -/
structure Identifier where
  tag : UInt8
  body : Bytes
  deriving DecidableEq, Repr

namespace Identifier

/-- The bytes of an identifier, its tag first. -/
def bytes (id : Identifier) : Bytes :=
  id.tag :: id.body

/-- The canonical text: lower-case hexadecimal. -/
def text (id : Identifier) : String :=
  Hex.encode id.bytes

/-- **The identifier a text spells**, with blanks allowed around it and digits
of either case. The error holds the text as it was given. -/
def parse (raw : String) : Except IdentifierError Identifier :=
  match Hex.read (Blank.trim raw.toList) with
  | .ok (tag :: body) => .ok ⟨tag, body⟩
  | _ => .error (.invalidIdentifier raw)

/-- The identifiers a list of texts spells, or the error of the first text
that spells none. -/
def parseAll (raws : List String) : Except IdentifierError (List Identifier) :=
  raws.mapM parse

/-- The standard identifier of a public key. -/
def ofPublicKey (q : PublicKey) : Identifier :=
  ⟨0x05, q.compressed⟩

/-- What the identifier may be used for. -/
def keyTag (id : Identifier) : KeyTag :=
  KeyTag.ofByte id.tag

/-- The identifier is a standard account or legacy group. -/
def isStandard (id : Identifier) : Bool :=
  id.keyTag == .standard && id.body.length == PublicKey.compressedSize

/-- The identifier names a group under the keyed configuration protocol. -/
def isKeyed (id : Identifier) : Bool :=
  id.keyTag == .keyedGroup

/-- The identifier is blinded for a community. -/
def isBlinded (id : Identifier) : Bool :=
  id.keyTag == .blinded15 || id.keyTag == .blinded25

/-- **The public key a standard identifier stands for.** -/
def publicKey (id : Identifier) : Except IdentifierError PublicKey :=
  if id.isStandard then
    match PublicKey.ofCompressed? id.body with
    | some q => .ok q
    | none => .error (.invalidCurvePoint id.text)
  else .error (.notStandard id.text)

/-- One tag is standard. -/
theorem keyTag_eq_standard_iff {id : Identifier} : id.keyTag = .standard ↔ id.tag = 0x05 := by
  unfold keyTag KeyTag.ofByte
  split
  · next h => simp [h]
  · next h => grind

/-- **Which identifiers are standard.** -/
theorem isStandard_iff {id : Identifier} :
    id.isStandard = true ↔ id.tag = 0x05 ∧ id.body.length = PublicKey.compressedSize := by
  rw [isStandard, Bool.and_eq_true, beq_iff_eq, beq_iff_eq, keyTag_eq_standard_iff]

/-- No digit is blank. -/
theorem not_blank_of_mem_digits {bs : Bytes} {c : Char} (h : c ∈ Hex.digits bs) :
    Blank c = false := by
  have key : ∀ m : Fin 16, Blank (Hex.digit m.val) = false := by decide
  induction bs with
  | nil => cases h
  | cons b rest ih =>
    have hb : b.toNat < 256 := b.toNat_lt
    rcases List.mem_cons.mp h with rfl | h
    · exact key ⟨b.toNat / 16, by omega⟩
    rcases List.mem_cons.mp h with rfl | h
    · exact key ⟨b.toNat % 16, by omega⟩
    · exact ih h

/-- **The text of an identifier reads back** as that identifier. -/
theorem parse_text (id : Identifier) : parse id.text = .ok id := by
  have htrim : Blank.trim id.text.toList = Hex.digits id.bytes := by
    rw [text, Hex.encode, String.toList_ofList]
    exact Blank.trim_of_forall fun _ hc => not_blank_of_mem_digits hc
  rw [parse, htrim, Hex.read_digits]
  rfl

/-- The order of identifiers: that of their bytes, and so of their texts too
(`Identifier.lt_iff_text`). -/
instance : LT Identifier := ⟨fun a b => a.bytes < b.bytes⟩

instance (a b : Identifier) : Decidable (a < b) :=
  inferInstanceAs (Decidable (a.bytes < b.bytes))

theorem lt_iff {a b : Identifier} : a < b ↔ a.bytes < b.bytes := Iff.rfl

theorem bytes_injective {a b : Identifier} (h : a.bytes = b.bytes) : a = b := by
  cases a; cases b
  simp only [bytes, List.cons.injEq] at h
  obtain ⟨rfl, rfl⟩ := h
  rfl

protected theorem lt_irrefl (a : Identifier) : ¬a < a :=
  fun h => List.lt_irrefl a.bytes h

protected theorem lt_trans {a b c : Identifier} (hab : a < b) (hbc : b < c) : a < c :=
  List.lt_trans (α := UInt8) hab hbc

/-- Of two different identifiers one comes first. -/
theorem lt_of_not_lt_of_ne {a b : Identifier} (h : ¬a < b) (hne : a ≠ b) : b < a := by
  have hle : b.bytes ≤ a.bytes := h
  rcases List.le_iff_lt_or_eq.mp hle with hlt | heq
  · exact hlt
  · exact absurd (bytes_injective heq).symm hne

end Identifier

end SealedGroup
