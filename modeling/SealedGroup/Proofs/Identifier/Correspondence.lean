import SealedGroup.Proofs.Edit.Classification
import SealedGroup.Proofs.Identifier.Grammar
import SealedGroup.Proofs.KeyPair.Batch

/-!
# Identifiers that stand for keys

Members are known by their identifiers and written to by their keys. If one key had two
identifiers, then a member could be removed under one of them and stay under the other, and
would be handed the new key of the group by the very edit that was to keep it from them.

Each key has a standard identifier that stands for it, and no other identifier does. An
identifier is a tag and some bytes; it stands for a key if the tag is the standard one and the
bytes are a compressed spelling of the key, and a key has one such spelling
(`Identifier.publicKey_eq_ok_iff`). So there are no aliases: whoever is not among the recipients
of a pair is not among them under any other identifier either, and an edit that removes somebody
leaves nobody who stands for the same key.

An identifier that stands for no key says why. It is no standard one, which its text tells, or
it spells no point of the curve, which its bytes tell. Both reasons are stated as equivalences
with what can be seen from outside, by the length and the first digits of the text and by
`PublicKey.SpellsPoint`, and both errors hold the text of the identifier
(`Identifier.keys_have_one_identifier`).

Identifiers of other tags – keyed groups, blinded accounts – stand for no key in this sense,
even where their bytes happen to spell one.
-/

namespace SealedGroup

namespace Identifier

variable {id id' : Identifier} {q : PublicKey}

/-- **An identifier stands for a key** exactly if it is the one made of that key. -/
theorem publicKey_eq_ok_iff : id.publicKey = .ok q ↔ ofPublicKey q = id :=
  ⟨fun h => (eq_ofPublicKey h).symm, fun h => h ▸ publicKey_ofPublicKey q⟩

/-- **Keys have no aliases.** -/
theorem eq_of_publicKey (h : id.publicKey = .ok q) (h' : id'.publicKey = .ok q) : id = id' :=
  (eq_ofPublicKey h).trans (eq_ofPublicKey h').symm

/-- An identifier is refused for what its text tells. -/
theorem publicKey_eq_notStandard_iff :
    id.publicKey = .error (.notStandard id.text) ↔
      id.bytes.head? ≠ some 0x05 ∨ id.text.length ≠ 68 := by
  rw [← not_and_or, ← isStandard_iff_text, Bool.not_eq_true, publicKey_eq_error_iff]
  constructor
  · rintro ⟨h⟩
    exact h
  · exact .notStandard

/-- A standard identifier is refused for what its key bytes spell. -/
theorem publicKey_eq_invalidCurvePoint_iff :
    id.publicKey = .error (.invalidCurvePoint id.text) ↔
      id.isStandard = true ∧ ¬PublicKey.SpellsPoint (id.bytes.drop 1) := by
  rw [PublicKey.spellsPoint_iff, publicKey_eq_error_iff, not_exists]
  constructor
  · intro h
    cases h with
    | invalidCurvePoint hstandard hpoint => exact ⟨hstandard, hpoint⟩
  · rintro ⟨hstandard, hpoint⟩
    exact .invalidCurvePoint hstandard hpoint

/-- Every error holds the text of the identifier. -/
theorem cases_of_publicKey_error {cause : IdentifierError} (h : id.publicKey = .error cause) :
    cause = .notStandard id.text ∨ cause = .invalidCurvePoint id.text := by
  rcases publicKey_eq_error_iff.mp h with _ | _
  · exact .inl rfl
  · exact .inr rfl

end Identifier

/-- **Whoever is no recipient** has no key that a wrapper is made for. -/
theorem Wrapper.recipient_publicKey_ne {σ : Type} {draw : StateM σ Coins} {pair : KeyPair}
    {recipients : List Identifier} {s : σ} {wrappers : List Wrapper}
    (h : (wrapAll draw pair recipients s).1 = .ok wrappers) {removed : Identifier}
    (hremoved : removed ∉ recipients) {q : PublicKey} (hkey : removed.publicKey = .ok q) :
    ∀ wrapper ∈ wrappers, wrapper.recipient.publicKey ≠ .ok q := by
  rcases wrapAll_cases (Prod.ext h rfl) with ⟨_, _, herror⟩ | ⟨_, hok, hseals⟩
  · cases herror
  · cases hok
    intro wrapper hwrapper halias
    have hmem : wrapper.recipient ∈ recipients :=
      recipients_of_seals hseals ▸ List.mem_map_of_mem hwrapper
    exact hremoved (Identifier.eq_of_publicKey hkey halias ▸ hmem)

/-- Whoever is removed is not among the members. -/
theorem Change.not_mem_of_between {old : StoredGroup} {snapshot : GroupSnapshot}
    {gone : List Identifier} (h : between old snapshot = .removed gone) {id : Identifier}
    (hid : id ∈ gone) : id ∉ snapshot.members := by
  have hclass := classifies_between old snapshot
  rw [h] at hclass
  cases hclass with
  | removed _ _ _ hids => exact fun hmem => ((hids.mem_iff id).mp hid).1.2 (.inl hmem)

/-- **Keys and the identifiers that stand for them correspond.** The identifier of a key is a
standard one and stands for that key, and an identifier that stands for a key is the one made of
it. So no two identifiers stand for one key, and of those who stay after an edit none is given a
wrapper for the key of somebody whom the edit removed. An identifier is refused as no standard one
exactly if its first byte is not `05` or its text has not 68 digits, and as off the curve exactly
if it is a standard one whose other bytes are not a tag, `02` or `03`, and a first coordinate of a
point below the field order. There is no other error. -/
theorem Identifier.keys_have_one_identifier :
    (∀ q, (ofPublicKey q).isStandard = true ∧ (ofPublicKey q).publicKey = .ok q) ∧
    (∀ id q, publicKey id = .ok q → ofPublicKey q = id) ∧
    (∀ id id' q, publicKey id = .ok q → publicKey id' = .ok q → id = id') ∧
    (∀ (old : StoredGroup) (snapshot : GroupSnapshot) (gone : List Identifier),
      Change.between old snapshot = .removed gone →
        ∀ {σ : Type} (draw : StateM σ Coins) (pair : KeyPair) (recipients : List Identifier)
          (s : σ) (wrappers : List Wrapper), (∀ id ∈ recipients, id ∈ snapshot.members) →
            (Wrapper.wrapAll draw pair recipients s).1 = .ok wrappers →
              ∀ removed ∈ gone, ∀ q, removed.publicKey = .ok q →
                ∀ wrapper ∈ wrappers, wrapper.recipient.publicKey ≠ .ok q) ∧
    (∀ id, publicKey id = .error (.notStandard id.text) ↔
      id.bytes.head? ≠ some 0x05 ∨ id.text.length ≠ 68) ∧
    (∀ id, publicKey id = .error (.invalidCurvePoint id.text) ↔
      id.isStandard = true ∧ ¬PublicKey.SpellsPoint (id.bytes.drop 1)) ∧
    ∀ id cause, publicKey id = .error cause →
      cause = .notStandard id.text ∨ cause = .invalidCurvePoint id.text := by
  refine ⟨fun q => ⟨isStandard_ofPublicKey q, publicKey_ofPublicKey q⟩,
    fun _ _ => publicKey_eq_ok_iff.mp, fun _ _ _ => eq_of_publicKey, ?_,
    fun _ => publicKey_eq_notStandard_iff, fun _ => publicKey_eq_invalidCurvePoint_iff,
    fun _ _ => cases_of_publicKey_error⟩
  intro old snapshot gone hchange σ draw pair recipients s wrappers hstay hwrapped removed hgone q
  have hremoved : removed ∉ recipients := fun hmem =>
    Change.not_mem_of_between hchange hgone (hstay removed hmem)
  exact Wrapper.recipient_publicKey_ne hwrapped hremoved

end SealedGroup
