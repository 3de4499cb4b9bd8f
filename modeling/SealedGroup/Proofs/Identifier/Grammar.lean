import SealedGroup.Json.KeyMaterial
import SealedGroup.Proofs.Json.Text
import SealedGroup.Proofs.Text.Hexadecimal
import SealedGroup.Proofs.Text.Trimming

/-!
# The grammar of identifiers

A text is read as an identifier if it is made of digits, two to a byte and at least two, and of
blanks around them (`Identifier.Grammar`). What is left of the text is its digits in lower case:
so much, and no more, tells one identifier from another.

The text of an identifier is of that form, and it is the only one that is: it is not blank
anywhere, it is in lower case and it is what is left of each text that the identifier is read
from. The bytes of an identifier, its tag and its length can therefore be looked up in its text
(`Identifier.texts_are_canonical`).

## Bytes and texts

An identifier is held here by its bytes, and a program may as well hold it by its text. The two
come to the same. Reading and writing are inverse to each other, equality of bytes is equality
of texts (`Identifier.text_inj`), and the order by which rosters are sorted is the order of the
texts (`Identifier.lt_iff_text`). Whether an identifier is a standard one shows in its text as
well, by the first two digits and the number of all.

## What is refused

`Identifier.Reads` lists what reading comes to: an identifier, or the one error that there is,
which holds the text as it was given, blanks and all. A text is refused exactly if it is not in
the grammar, for whatever reason, and the reason is not told. The same holds if the text comes
from JSON, where anything but a string is no text.
-/

namespace SealedGroup

namespace Identifier

/-- **The grammar of identifiers**: the text is made of the given digits and the blanks around
them. -/
structure Grammar (raw : String) (core : List Char) : Prop where
  isCore : Blank.Core raw.toList core
  ne_nil : core ≠ []
  isText : Hex.IsText core

/-- **What a text is read as**: the identifier whose text is made of its digits in lower case, or
else an error that holds the text as it was given. -/
inductive Reads (raw : String) : Except IdentifierError Identifier → Prop where
  | identifier {core : List Char} {id : Identifier} (hcore : Grammar raw core)
      (htext : id.text = (String.ofList core).toLower) : Reads raw (.ok id)
  | refused (h : ∀ core, ¬Grammar raw core) : Reads raw (.error (.invalidIdentifier raw))

variable {raw : String} {core : List Char} {id : Identifier}

/-! ## Reading -/

/-- What is in the grammar is what is left of the text when it is trimmed. -/
theorem grammar_iff :
    Grammar raw core ↔ Blank.trim raw.toList = core ∧ core ≠ [] ∧ Hex.IsText core := by
  rw [Blank.trim_eq_iff]
  exact ⟨fun h => ⟨h.isCore, h.ne_nil, h.isText⟩, fun ⟨hcore, hne, htext⟩ => ⟨hcore, hne, htext⟩⟩

/-- The text of an identifier spells its bytes. -/
theorem text_eq_toLower_iff :
    id.text = (String.ofList core).toLower ↔ Hex.read core = .ok id.bytes := by
  rw [Hex.read_eq_ok_iff, eq_comm, text, Hex.toLower_eq_encode_iff, String.toList_ofList]

/-- A text is read as the identifier with the bytes that are spelled between its blanks. -/
theorem parse_eq_ok_iff :
    parse raw = .ok id ↔ Hex.read (Blank.trim raw.toList) = .ok id.bytes := by
  unfold parse
  constructor
  · intro h
    split at h
    · next hread =>
      cases h
      exact hread
    · cases h
  · intro h
    rw [h]
    rfl

/-- **A text is read as an identifier** exactly if it is in the grammar and its digits are, in
lower case, the text of the identifier. -/
theorem parse_eq_ok_iff_exists :
    parse raw = .ok id ↔ ∃ core, Grammar raw core ∧ id.text = (String.ofList core).toLower := by
  simp only [text_eq_toLower_iff, grammar_iff]
  rw [parse_eq_ok_iff]
  constructor
  · intro h
    refine ⟨_, ⟨rfl, fun hnil => ?_, Hex.exists_read_iff.mp ⟨_, h⟩⟩, h⟩
    -- nothing is spelled by no digits, but an identifier has its tag at least
    rw [hnil] at h
    cases h
  · rintro ⟨core, ⟨rfl, -, -⟩, h⟩
    exact h

/-- Digits, two to a byte, spell an identifier if there are any. -/
theorem exists_read_bytes (hne : core ≠ []) (htext : Hex.IsText core) :
    ∃ id : Identifier, Hex.read core = .ok id.bytes := by
  obtain ⟨bs, hread⟩ := Hex.exists_read_iff.mpr htext
  cases bs with
  | nil => exact absurd (List.map_eq_nil_iff.mp (Hex.read_eq_ok_iff.mp hread)) hne
  | cons tag body => exact ⟨⟨tag, body⟩, hread⟩

/-- **Which texts are identifiers.** -/
theorem exists_parse_iff : (∃ id, parse raw = .ok id) ↔ ∃ core, Grammar raw core := by
  constructor
  · rintro ⟨id, h⟩
    obtain ⟨core, hcore, -⟩ := parse_eq_ok_iff_exists.mp h
    exact ⟨core, hcore⟩
  · rintro ⟨core, h⟩
    obtain ⟨id, hread⟩ := exists_read_bytes h.ne_nil h.isText
    exact ⟨id, parse_eq_ok_iff_exists.mpr ⟨core, h, text_eq_toLower_iff.mpr hread⟩⟩

/-- Every error holds the text as it was given. -/
theorem eq_of_parse_error {cause : IdentifierError} (h : parse raw = .error cause) :
    cause = .invalidIdentifier raw := by
  unfold parse at h
  split at h <;> cases h
  rfl

/-- **A text is refused** exactly if it is not in the grammar. -/
theorem parse_eq_error_iff {cause : IdentifierError} :
    parse raw = .error cause ↔
      cause = .invalidIdentifier raw ∧ ∀ core, ¬Grammar raw core := by
  rw [← not_exists, ← exists_parse_iff]
  cases h : parse raw with
  | ok id => simp
  | error cause' => simp [eq_of_parse_error h, eq_comm]

/-- **A text is read in one way.** -/
theorem parse_eq_iff {result : Except IdentifierError Identifier} :
    parse raw = result ↔ Reads raw result := by
  constructor
  · rintro rfl
    cases h : parse raw with
    | ok id =>
      obtain ⟨core, hcore, htext⟩ := parse_eq_ok_iff_exists.mp h
      exact .identifier hcore htext
    | error cause =>
      obtain ⟨rfl, hrefused⟩ := parse_eq_error_iff.mp h
      exact .refused hrefused
  · rintro (⟨hcore, htext⟩ | hrefused)
    · exact parse_eq_ok_iff_exists.mpr ⟨_, hcore, htext⟩
    · exact parse_eq_error_iff.mpr ⟨rfl, hrefused⟩

/-! ## The canonical text -/

/-- Identifiers with one text are one. -/
theorem text_inj {id id' : Identifier} : id.text = id'.text ↔ id = id' :=
  ⟨fun h => bytes_injective (Hex.encode_inj.mp h), congrArg text⟩

/-- **Identifiers are ordered as their texts are.** -/
theorem lt_iff_text {id id' : Identifier} : id < id' ↔ id.text < id'.text := by
  rw [lt_iff, text, text, Hex.encode_lt_encode_iff]

/-- **Two texts are read as one identifier** exactly if nothing but the case of their digits tells
them apart, blanks aside. -/
theorem parse_eq_parse_iff {raw' : String} {core' : List Char} (h : Grammar raw core)
    (h' : Grammar raw' core') :
    parse raw = parse raw' ↔ (String.ofList core).toLower = (String.ofList core').toLower := by
  obtain ⟨id, hread⟩ := exists_read_bytes h.ne_nil h.isText
  obtain ⟨id', hread'⟩ := exists_read_bytes h'.ne_nil h'.isText
  have htext := text_eq_toLower_iff.mpr hread
  have htext' := text_eq_toLower_iff.mpr hread'
  rw [parse_eq_ok_iff_exists.mpr ⟨_, h, htext⟩, parse_eq_ok_iff_exists.mpr ⟨_, h', htext'⟩,
    ← htext, ← htext', text_inj, Except.ok.injEq]

/-- The bytes of an identifier are spelled by its text. -/
theorem decode_text (id : Identifier) : Hex.decode id.text = .ok id.bytes :=
  Hex.decode_encode id.bytes

/-- The tag of an identifier is spelled by the first two digits of its text. -/
theorem take_text (id : Identifier) :
    String.ofList (id.text.toList.take 2) = Hex.encode [id.tag] := by
  rw [text, Hex.encode, String.toList_ofList]
  rfl

/-- The text of an identifier has two digits to a byte. -/
theorem length_text (id : Identifier) : id.text.length = 2 * id.bytes.length := by
  rw [← String.length_toList, text, Hex.encode, String.toList_ofList, Hex.length_digits]

/-- **Which texts are those of identifiers**: the ones in lower case that are made of digits, two
to a byte and at least two. -/
theorem exists_text_iff {s : String} :
    (∃ id : Identifier, id.text = s) ↔ s.toList ≠ [] ∧ Hex.IsText s.toList ∧ s.toLower = s := by
  constructor
  · rintro ⟨id, rfl⟩
    refine ⟨?_, ?_, Hex.toLower_encode id.bytes⟩
    · rw [text, Hex.encode, String.toList_ofList]
      exact List.cons_ne_nil _ _
    · exact Hex.exists_decode_iff.mp ⟨_, decode_text id⟩
  · rintro ⟨hne, htext, hlower⟩
    obtain ⟨id, hread⟩ := exists_read_bytes hne htext
    have hid := text_eq_toLower_iff.mpr hread
    rw [String.ofList_toList, hlower] at hid
    exact ⟨id, hid⟩

/-! ## Standard identifiers -/

/-- **Which identifiers are standard**, by their texts. -/
theorem isStandard_iff_text :
    id.isStandard = true ↔ id.bytes.head? = some 0x05 ∧ id.text.length = 68 := by
  have hlength : id.text.length = 2 * (id.body.length + 1) := length_text id
  rw [isStandard_iff, hlength, show id.bytes.head? = some id.tag from rfl, Option.some.injEq,
    PublicKey.compressedSize]
  exact and_congr_right fun _ => by omega

/-- The text of the identifier of a key: the tag and the key. -/
theorem text_ofPublicKey (q : PublicKey) :
    (ofPublicKey q).text = "05" ++ Hex.encode q.compressed := by
  have htag : Hex.digits [0x05] = ['0', '5'] := by decide
  unfold text Hex.encode
  rw [← String.toList_inj, String.toList_append, show "05" = String.ofList ['0', '5'] from rfl,
    ← htag]
  simp only [String.toList_ofList]
  rfl

/-! ## Reading from JSON -/

/-- Only strings have a text. -/
theorem text?_eq_some_iff {j : Json} : j.text? = some raw ↔ j = .str raw := by
  constructor
  · intro h
    cases j with
    | string literal =>
      cases literal with
      | text s => rw [Option.some.inj h]
      | unpaired units => cases h
    | _ => cases h
  · rintro rfl
    rfl

/-- **An identifier is read from JSON** exactly if it is read from the text of a string. -/
theorem ofJson?_eq_some_iff {j : Json} :
    ofJson? j = some id ↔ ∃ raw, j = .str raw ∧ parse raw = .ok id := by
  unfold ofJson?
  simp only [Option.bind_eq_some_iff, text?_eq_some_iff]
  refine exists_congr fun raw => and_congr_right fun _ => ?_
  cases parse raw <;> simp [Except.toOption]

/-- A text that is written in JSON is read as it would be without. -/
theorem ofJson?_of_text (raw : String) :
    (Json.read? (Json.str raw).compact).bind ofJson? = (parse raw).toOption := by
  rw [(Json.Spelled.str (n := 0) raw).read?_compact]
  rfl

/-- **Texts are canonical.** A text is read, from JSON too, exactly if it is made of digits, two to
a byte and at least two, and of blanks around them, and then the text of the identifier is those
digits in lower case; if not, then the error holds the text as it was given. So each identifier is
read back from its text, whichever way it was made; the texts of identifiers are the ones in
lower case that are made of digits; and two texts are read as one identifier exactly if their
digits are the same up to case. The text spells the bytes, and its first two digits the tag, so
that neither has to be made up. A standard identifier is one whose tag is `05` and whose text has
68 digits, and it has 34 bytes, of which those after the tag are as many as a key is written in. -/
theorem texts_are_canonical :
    (∀ raw result, parse raw = result ↔ Reads raw result) ∧
    (∀ raw, (∃ id, parse raw = .ok id) ↔ ∃ core, Grammar raw core) ∧
    (∀ raw, (Json.read? (Json.str raw).compact).bind ofJson? = (parse raw).toOption) ∧
    (∀ j id, ofJson? j = some id ↔ ∃ raw, j = .str raw ∧ parse raw = .ok id) ∧
    (∀ id, parse id.text = .ok id) ∧
    (∀ s, (∃ id : Identifier, id.text = s) ↔
      s.toList ≠ [] ∧ Hex.IsText s.toList ∧ s.toLower = s) ∧
    (∀ raw raw' core core', Grammar raw core → Grammar raw' core' →
      (parse raw = parse raw' ↔
        (String.ofList core).toLower = (String.ofList core').toLower)) ∧
    (∀ q, (ofPublicKey q).text = "05" ++ Hex.encode q.compressed) ∧
    (∀ id : Identifier, Hex.decode id.text = .ok id.bytes ∧ Hex.encode id.bytes = id.text ∧
      Hex.decode (String.ofList (id.text.toList.take 2)) = .ok [id.tag]) ∧
    ∀ id : Identifier, (id.isStandard = true ↔ id.bytes.head? = some 0x05 ∧ id.text.length = 68) ∧
      (id.isStandard = true →
        id.bytes.length = 34 ∧ (id.bytes.drop 1).length = PublicKey.compressedSize) := by
  refine ⟨fun _ _ => parse_eq_iff, fun _ => exists_parse_iff, ofJson?_of_text,
    fun _ _ => ofJson?_eq_some_iff, parse_text, fun _ => exists_text_iff,
    fun _ _ _ _ => parse_eq_parse_iff, text_ofPublicKey, fun id => ⟨decode_text id, rfl, ?_⟩,
    fun id => ⟨isStandard_iff_text, fun h => ?_⟩⟩
  · rw [take_text, Hex.decode_encode]
  · obtain ⟨-, hlength⟩ := isStandard_iff.mp h
    exact ⟨congrArg Nat.succ hlength, hlength⟩

end Identifier

end SealedGroup
