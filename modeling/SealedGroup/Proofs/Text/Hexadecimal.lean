import Mathlib.Data.List.Induction
import SealedGroup.Text.Hex

/-!
# Which texts are hexadecimal

A text spells a byte string if it is made of digits, an even number of them, and the byte string
is the one whose spelling is the text in lower case: case is all that is lost when a text is
read (`Hex.decode_eq_ok_iff`). Any other text is at fault for its length or, if that is even,
for the first character that is no digit (`Hex.Faulty`).

Both statements are equivalences, and both have on their right side what can be told of a text
without reading it. So acceptance and refusal exclude one another and leave nothing out, and
what rests on hexadecimal text – identifiers, rows of key pairs – can be specified by its
characters.

## Characters and octets

A list of characters is read two at a time, and the proofs about reading follow that: the
induction is the recursion of the reader, and what it needs of single digits is decided for the
128 characters below the ones of more than one octet (`Hex.of_ascii`).

A string is looked at octet by octet, and so its length and the positions of its faults are
counted in octets too. That makes no difference to the texts that are accepted, since digits are
characters of one octet and no other character has an octet that is a digit
(`Hex.isText_octets_iff`). It does make a difference to errors: a string may have an odd number
of characters and an even number of octets, and then it is refused for one of its characters and
not for its length.

## The order of spellings

In lower case the digits stand in the order of their values, so that byte strings and their
spellings are ordered alike (`Hex.encode_lt_encode_iff`).
-/

namespace SealedGroup

namespace Hex

/-- **The character is a hexadecimal digit**, of either case. -/
def IsDigit (c : Char) : Prop :=
  ('0' ≤ c ∧ c ≤ '9') ∨ ('a' ≤ c ∧ c ≤ 'f') ∨ ('A' ≤ c ∧ c ≤ 'F')

instance (c : Char) : Decidable (IsDigit c) :=
  inferInstanceAs (Decidable (_ ∨ _))

/-- **The text is made of digits**, two to a byte. -/
structure IsText (cs : List Char) : Prop where
  even : cs.length % 2 = 0
  isDigit : ∀ c ∈ cs, IsDigit c

/-- **What keeps a text from spelling a byte string**: its length, or else the first of its
characters that is no digit. -/
inductive Faulty (cs : List Char) : Malformed → Prop where
  | oddLength (hodd : cs.length % 2 = 1) : Faulty cs .oddLength
  | strayCharacter {front rest : List Char} {c : Char} (heven : cs.length % 2 = 0)
      (hsplit : cs = front ++ c :: rest) (hfront : ∀ d ∈ front, IsDigit d) (hstray : ¬IsDigit c) :
      Faulty cs (.strayCharacter c front.length)

/-! ## Digits -/

section

variable {c : Char} {n : ℕ}

/-- What holds of each character below 128 holds of all characters that are. -/
theorem of_ascii {P : Char → Prop} (h : ∀ m : Fin 128, P (Char.ofNat m.val)) (hc : c.toNat < 128) :
    P c :=
  Char.ofNat_toNat c ▸ h ⟨c.toNat, hc⟩

/-- Only digits have a value. -/
theorem isSome_digitValue?_iff : (digitValue? c).isSome = true ↔ IsDigit c := by
  unfold digitValue?
  show _ ↔ (0x30 ≤ c.toNat ∧ c.toNat ≤ 0x39) ∨ (0x61 ≤ c.toNat ∧ c.toNat ≤ 0x66) ∨
    (0x41 ≤ c.toNat ∧ c.toNat ≤ 0x46)
  split
  · next h => simp [h]
  · next h =>
    split
    · next h' => simp [h']
    · next h' => simp [h, h']

theorem digitValue?_eq_none_iff : digitValue? c = none ↔ ¬IsDigit c := by
  rw [← isSome_digitValue?_iff, Option.not_isSome_iff_eq_none]

/-- Digits are ASCII characters. -/
theorem IsDigit.lt (h : IsDigit c) : c.toNat < 128 := by
  have hcode : (0x30 ≤ c.toNat ∧ c.toNat ≤ 0x39) ∨ (0x61 ≤ c.toNat ∧ c.toNat ≤ 0x66) ∨
    (0x41 ≤ c.toNat ∧ c.toNat ≤ 0x46) := h
  omega

/-- Beyond ASCII there is no case to change. -/
theorem toLower_of_le (h : 128 ≤ c.toNat) : c.toLower = c := by
  unfold Char.toLower
  refine dif_neg fun hupper => ?_
  have hmost : c.toNat ≤ 0x5A := hupper.2
  omega

/-- **The value of a digit does not depend on its case.** -/
theorem digitValue?_toLower (c : Char) : digitValue? c.toLower = digitValue? c := by
  by_cases hc : c.toNat < 128
  · exact of_ascii (P := fun c => digitValue? c.toLower = digitValue? c) (by decide) hc
  · rw [toLower_of_le (Nat.not_lt.mp hc)]

theorem isDigit_toLower : IsDigit c.toLower ↔ IsDigit c := by
  rw [← isSome_digitValue?_iff, digitValue?_toLower, isSome_digitValue?_iff]

/-- The digit of a value, in lower case. -/
theorem digit_of_digitValue? (h : digitValue? c = some n) : n < 16 ∧ digit n = c.toLower := by
  have hdigit : IsDigit c := isSome_digitValue?_iff.mp (Option.isSome_of_eq_some h)
  have hvalue : ∀ v ∈ digitValue? c, v < 16 ∧ digit v = c.toLower :=
    of_ascii (P := fun c => ∀ v ∈ digitValue? c, v < 16 ∧ digit v = c.toLower) (by decide)
      hdigit.lt
  exact hvalue n h

/-- Whatever is a digit in lower case has its value. -/
theorem digitValue?_of_toLower (hn : n < 16) (h : c.toLower = digit n) :
    digitValue? c = some n := by
  rw [← digitValue?_toLower, h, digitValue?_digit hn]

end

/-! ## Texts -/

section

variable {cs : List Char} {bs : Bytes} {cause : Malformed}

/-- The halves of a byte. -/
theorem toNat_ofNat_halves {high low : ℕ} (hhigh : high < 16) (hlow : low < 16) :
    (UInt8.ofNat (high * 16 + low)).toNat / 16 = high ∧
      (UInt8.ofNat (high * 16 + low)).toNat % 16 = low := by
  rw [UInt8.toNat_ofNat', Nat.mod_eq_of_lt (by omega)]
  omega

/-- The digits of a spelling have values. -/
theorem isDigit_of_mem_digits {c : Char} (h : c ∈ digits bs) : IsDigit c := by
  have key : ∀ m : Fin 16, IsDigit (digit m.val) := by decide
  induction bs with
  | nil => cases h
  | cons b rest ih =>
    have hb : b.toNat < 256 := b.toNat_lt
    rcases List.mem_cons.mp h with rfl | h
    · exact key ⟨b.toNat / 16, by omega⟩
    rcases List.mem_cons.mp h with rfl | h
    · exact key ⟨b.toNat % 16, by omega⟩
    · exact ih h

/-- A spelling is in lower case. -/
theorem map_toLower_digits (bs : Bytes) : (digits bs).map Char.toLower = digits bs := by
  have key : ∀ m : Fin 16, (digit m.val).toLower = digit m.val := by decide
  induction bs with
  | nil => rfl
  | cons b rest ih =>
    have hb : b.toNat < 256 := b.toNat_lt
    rw [digits, List.map_cons, List.map_cons, ih, key ⟨b.toNat / 16, by omega⟩,
      key ⟨b.toNat % 16, by omega⟩]

/-- Digits in lower case are ordered as their values are. -/
theorem digit_lt_digit_iff {m n : ℕ} (hm : m < 16) (hn : n < 16) :
    digit m < digit n ↔ m < n := by
  have key : ∀ v w : Fin 16, digit v.val < digit w.val ↔ v.val < w.val := by decide
  exact key ⟨m, hm⟩ ⟨n, hn⟩

/-- Different values have different digits. -/
theorem digit_inj {m n : ℕ} (hm : m < 16) (hn : n < 16) : digit m = digit n ↔ m = n := by
  refine ⟨fun h => ?_, congrArg digit⟩
  have hvalue := digitValue?_digit hm
  rw [h, digitValue?_digit hn] at hvalue
  exact (Option.some.inj hvalue).symm

/-- **Spellings are ordered as the bytes are that they spell.** -/
theorem digits_lt_digits_iff {bs' : Bytes} : digits bs < digits bs' ↔ bs < bs' := by
  induction bs generalizing bs' with
  | nil => cases bs' <;> simp [digits]
  | cons b rest ih =>
    cases bs' with
    | nil => simp [digits]
    | cons b' rest' =>
      have hb : b.toNat < 256 := b.toNat_lt
      have hb' : b'.toNat < 256 := b'.toNat_lt
      rw [digits, digits, List.cons_lt_cons_iff, List.cons_lt_cons_iff, List.cons_lt_cons_iff, ih,
        digit_lt_digit_iff (by omega) (by omega), digit_lt_digit_iff (by omega) (by omega),
        digit_inj (by omega) (by omega), digit_inj (by omega) (by omega), UInt8.lt_iff_toNat_lt,
        ← UInt8.toNat_inj]
      -- the halves are compared one after the other, as the bytes are
      by_cases hrest : rest < rest'
      · simp only [hrest, and_true]
        omega
      · simp only [hrest, and_false, or_false]
        omega

/-- What is a spelling in lower case is read. -/
theorem readPairs_of_toLower (position : ℕ) (h : cs.map Char.toLower = digits bs) :
    readPairs position cs = .ok bs := by
  induction bs generalizing position cs with
  | nil =>
    rw [List.map_eq_nil_iff.mp h]
    rfl
  | cons b rest ih =>
    have hb : b.toNat < 256 := b.toNat_lt
    obtain ⟨high, cs, rfl, hhigh, h⟩ := List.map_eq_cons_iff.mp h
    obtain ⟨low, cs, rfl, hlow, h⟩ := List.map_eq_cons_iff.mp h
    have hhigh' := digitValue?_of_toLower (by omega) hhigh
    have hlow' := digitValue?_of_toLower (by omega) hlow
    simp only [readPairs, hhigh', hlow', ih (position + 2) h, Except.map]
    rw [show b.toNat / 16 * 16 + b.toNat % 16 = b.toNat by omega, UInt8.ofNat_toNat]

/-- What is read is a spelling in lower case. -/
theorem toLower_of_readPairs {position : ℕ} (heven : cs.length % 2 = 0)
    (h : readPairs position cs = .ok bs) : cs.map Char.toLower = digits bs := by
  fun_induction readPairs position cs generalizing bs with
  | case1 => cases h
  | case2 => cases h
  | case3 position high low cs v w hlow hhigh ih =>
    cases hrest : readPairs (position + 2) cs with
    | error cause =>
      rw [hrest] at h
      cases h
    | ok rest =>
      rw [hrest] at h
      cases h
      obtain ⟨hv, hhigh⟩ := digit_of_digitValue? hhigh
      obtain ⟨hw, hlow⟩ := digit_of_digitValue? hlow
      obtain ⟨hdiv, hmod⟩ := toNat_ofNat_halves hv hw
      have heven' : cs.length % 2 = 0 := by
        simp only [List.length_cons] at heven
        omega
      rw [digits, hdiv, hmod, hhigh, hlow, List.map_cons, List.map_cons, ih heven' hrest]
  | case4 cs position hne =>
    cases h
    rcases cs with _ | ⟨high, _ | ⟨low, rest⟩⟩
    · rfl
    · cases heven
    · exact absurd rfl (hne high low rest)

/-- **A text is read as the byte string that it is the spelling of**, in lower case. -/
theorem read_eq_ok_iff : read cs = .ok bs ↔ cs.map Char.toLower = digits bs := by
  unfold read
  constructor
  · intro h
    split at h
    · cases h
    · exact toLower_of_readPairs (by omega) h
  · intro h
    have hlength := congrArg List.length h
    rw [List.length_map, length_digits] at hlength
    rw [if_neg (by omega), readPairs_of_toLower 0 h]

/-- The error names the first character that is no digit. -/
theorem stray_of_readPairs {position : ℕ} (h : readPairs position cs = .error cause) :
    ∃ front c rest, cs = front ++ c :: rest ∧ (∀ d ∈ front, IsDigit d) ∧ ¬IsDigit c ∧
      cause = .strayCharacter c (position + front.length) := by
  fun_induction readPairs position cs with
  | case1 position high low rest hhigh =>
    cases h
    exact ⟨[], high, low :: rest, rfl, nofun, digitValue?_eq_none_iff.mp hhigh, rfl⟩
  | case2 position high low rest v hlow hhigh =>
    cases h
    have hdigit := isSome_digitValue?_iff.mp (Option.isSome_of_eq_some hhigh)
    exact ⟨[high], low, rest, rfl, fun d hd => List.mem_singleton.mp hd ▸ hdigit,
      digitValue?_eq_none_iff.mp hlow, rfl⟩
  | case3 position high low cs v w hlow hhigh ih =>
    cases hrest : readPairs (position + 2) cs with
    | ok rest =>
      rw [hrest] at h
      cases h
    | error cause =>
      rw [hrest] at h
      cases h
      obtain ⟨front, c, rest, rfl, hfront, hstray, rfl⟩ := ih hrest
      have hhigh := isSome_digitValue?_iff.mp (Option.isSome_of_eq_some hhigh)
      have hlow := isSome_digitValue?_iff.mp (Option.isSome_of_eq_some hlow)
      refine ⟨high :: low :: front, c, rest, rfl, ?_, hstray, ?_⟩
      · exact List.forall_mem_cons.mpr ⟨hhigh, List.forall_mem_cons.mpr ⟨hlow, hfront⟩⟩
      · rw [List.length_cons, List.length_cons, Nat.add_assoc, Nat.add_comm 2]
  | case4 => cases h

/-- The first character that is no digit makes the error. -/
theorem readPairs_of_stray {front rest : List Char} {c : Char} (position : ℕ)
    (heven : (front ++ c :: rest).length % 2 = 0) (hfront : ∀ d ∈ front, IsDigit d)
    (hstray : ¬IsDigit c) : readPairs position (front ++ c :: rest) =
      .error (.strayCharacter c (position + front.length)) := by
  -- two digits at a time, and the character in question is the first or the second of its pair
  induction front using List.twoStepInduction generalizing position with
  | nil =>
    cases rest with
    | nil => cases heven
    | cons low rest => simp [readPairs, digitValue?_eq_none_iff.mpr hstray]
  | singleton high =>
    obtain ⟨v, hv⟩ := Option.isSome_iff_exists.mp (isSome_digitValue?_iff.mpr
      (hfront high (List.mem_singleton.mpr rfl)))
    simp [readPairs, hv, digitValue?_eq_none_iff.mpr hstray]
  | cons_cons high low front ih _ =>
    obtain ⟨hhigh, hfront⟩ := List.forall_mem_cons.mp hfront
    obtain ⟨hlow, hfront⟩ := List.forall_mem_cons.mp hfront
    obtain ⟨v, hv⟩ := Option.isSome_iff_exists.mp (isSome_digitValue?_iff.mpr hhigh)
    obtain ⟨w, hw⟩ := Option.isSome_iff_exists.mp (isSome_digitValue?_iff.mpr hlow)
    have heven' : (front ++ c :: rest).length % 2 = 0 := by
      simp only [List.cons_append, List.length_cons] at heven
      omega
    simp only [List.cons_append, readPairs, hv, hw, ih (position + 2) heven' hfront, Except.map,
      List.length_cons]
    rw [Nat.add_assoc position 2, Nat.add_comm 2]

/-- **A text is refused** exactly for its fault. -/
theorem read_eq_error_iff : read cs = .error cause ↔ Faulty cs cause := by
  unfold read
  constructor
  · intro h
    split at h
    · next hodd =>
      cases h
      exact .oddLength hodd
    · obtain ⟨front, c, rest, hsplit, hfront, hstray, rfl⟩ := stray_of_readPairs h
      rw [Nat.zero_add]
      exact .strayCharacter (by omega) hsplit hfront hstray
  · rintro (hodd | ⟨heven, rfl, hfront, hstray⟩)
    · exact if_pos hodd
    · rw [if_neg (by omega), readPairs_of_stray 0 heven hfront hstray, Nat.zero_add]

/-- **A text can be read** exactly if it is made of digits, two to a byte. -/
theorem exists_read_iff : (∃ bs, read cs = .ok bs) ↔ IsText cs := by
  constructor
  · rintro ⟨bs, h⟩
    have hlower := read_eq_ok_iff.mp h
    have hlength := congrArg List.length hlower
    rw [List.length_map, length_digits] at hlength
    refine ⟨by omega, fun c hc => isDigit_toLower.mp ?_⟩
    exact isDigit_of_mem_digits (hlower ▸ List.mem_map_of_mem hc)
  · rintro ⟨heven, hdigits⟩
    cases h : read cs with
    | ok bs => exact ⟨bs, rfl⟩
    | error cause =>
      cases read_eq_error_iff.mp h with
      | oddLength hodd => omega
      | strayCharacter _ hsplit _ hstray =>
        exact absurd (hdigits _ (hsplit ▸ List.mem_append_right _ List.mem_cons_self)) hstray

end

/-! ## Strings -/

section

variable {s : String} {bs : Bytes} {cause : Malformed}

theorem toNat_ofUInt8 (b : UInt8) : (Char.ofUInt8 b).toNat = b.toNat := rfl

/-- An ASCII character is its own octet. -/
theorem octets_of_lt {c : Char} (h : c.toNat < 128) :
    (String.utf8EncodeChar c).map Char.ofUInt8 = [c] :=
  of_ascii (P := fun c => (String.utf8EncodeChar c).map Char.ofUInt8 = [c]) (by decide) h

/-- Any other character has a first octet that is no digit. -/
theorem exists_octet_of_le {c : Char} (h : 128 ≤ c.toNat) :
    ∃ octet ∈ (String.utf8EncodeChar c).map Char.ofUInt8, ¬IsDigit octet := by
  have hlead : ∃ n rest, String.utf8EncodeChar c = UInt8.ofNat (n + 128) :: rest ∧ n < 128 := by
    unfold String.utf8EncodeChar
    have hcode : 128 ≤ c.val.toNat := h
    dsimp only
    rw [if_neg (by omega)]
    split
    · exact ⟨c.val.toNat / 64 % 32 + 64, _, rfl, by omega⟩
    split
    · exact ⟨c.val.toNat / 4096 % 16 + 96, _, rfl, by omega⟩
    · exact ⟨c.val.toNat / 262144 % 8 + 112, _, rfl, by omega⟩
  obtain ⟨n, rest, hoctets, hn⟩ := hlead
  refine ⟨Char.ofUInt8 (UInt8.ofNat (n + 128)), hoctets ▸ List.mem_cons_self, fun hdigit => ?_⟩
  have hlt := hdigit.lt
  rw [toNat_ofUInt8, UInt8.toNat_ofNat', Nat.mod_eq_of_lt (by omega)] at hlt
  omega

/-- The octets are digits exactly if the characters are. -/
theorem forall_mem_octets_iff :
    (∀ octet ∈ octets s, IsDigit octet) ↔ ∀ c ∈ s.toList, IsDigit c := by
  unfold octets
  rw [List.map_flatMap]
  constructor
  · intro h c hc
    by_cases hlt : c.toNat < 128
    · refine h c (List.mem_flatMap.mpr ⟨c, hc, ?_⟩)
      rw [octets_of_lt hlt]
      exact List.mem_singleton.mpr rfl
    · obtain ⟨octet, hmem, hstray⟩ := exists_octet_of_le (Nat.not_lt.mp hlt)
      exact absurd (h octet (List.mem_flatMap.mpr ⟨c, hc, hmem⟩)) hstray
  · intro h octet hoctet
    obtain ⟨c, hc, hmem⟩ := List.mem_flatMap.mp hoctet
    rw [octets_of_lt (h c hc).lt] at hmem
    exact List.mem_singleton.mp hmem ▸ h c hc

/-- A string of digits is made of their octets. -/
theorem octets_eq_toList (h : ∀ c ∈ s.toList, IsDigit c) : octets s = s.toList := by
  unfold octets
  rw [List.map_flatMap]
  generalize s.toList = cs at h
  induction cs with
  | nil => rfl
  | cons c cs ih =>
    obtain ⟨hc, hcs⟩ := List.forall_mem_cons.mp h
    rw [List.flatMap_cons, octets_of_lt hc.lt, ih hcs]
    rfl

/-- Whether the octets or the characters are counted is all the same. -/
theorem isText_octets_iff : IsText (octets s) ↔ IsText s.toList := by
  constructor
  · rintro ⟨heven, hdigits⟩
    have hchars := forall_mem_octets_iff.mp hdigits
    exact ⟨octets_eq_toList hchars ▸ heven, hchars⟩
  · rintro ⟨heven, hdigits⟩
    exact ⟨(octets_eq_toList hdigits).symm ▸ heven, forall_mem_octets_iff.mpr hdigits⟩

/-- **A string can be decoded** exactly if it is made of digits, two to a byte. -/
theorem exists_decode_iff : (∃ bs, decode s = .ok bs) ↔ IsText s.toList :=
  exists_read_iff.trans isText_octets_iff

/-- A string is the spelling of a byte string exactly if its characters are the digits. -/
theorem eq_encode_iff : s = encode bs ↔ s.toList = digits bs := by
  rw [← String.toList_inj, encode, String.toList_ofList]

theorem toLower_eq_encode_iff : s.toLower = encode bs ↔ s.toList.map Char.toLower = digits bs := by
  rw [eq_encode_iff, show s.toLower = s.map Char.toLower from rfl, String.toList_map]

/-- **A string is decoded to the byte string that it is the spelling of**, in lower case. -/
theorem decode_eq_ok_iff : decode s = .ok bs ↔ s.toLower = encode bs := by
  have hoctets : ∀ h : IsText s.toList, decode s = read s.toList := fun h =>
    congrArg read (octets_eq_toList h.isDigit)
  rw [toLower_eq_encode_iff, ← read_eq_ok_iff]
  constructor
  · intro h
    rwa [hoctets (exists_decode_iff.mp ⟨bs, h⟩)] at h
  · intro h
    rwa [hoctets (exists_read_iff.mp ⟨bs, h⟩)]

/-- **A string is refused** exactly for the fault of its octets. -/
theorem decode_eq_error_iff : decode s = .error cause ↔ Faulty (octets s) cause :=
  read_eq_error_iff

/-- A spelling is in lower case. -/
theorem toLower_encode (bs : Bytes) : (encode bs).toLower = encode bs := by
  rw [toLower_eq_encode_iff, encode, String.toList_ofList, map_toLower_digits]

/-- **A spelling reads back** as what it spells. -/
theorem decode_encode (bs : Bytes) : decode (encode bs) = .ok bs :=
  decode_eq_ok_iff.mpr (toLower_encode bs)

/-- Strings are ordered as the bytes are that they spell. -/
theorem encode_lt_encode_iff {bs bs' : Bytes} : encode bs < encode bs' ↔ bs < bs' := by
  rw [String.lt_iff, encode, encode, String.toList_ofList, String.toList_ofList,
    digits_lt_digits_iff]

/-- Different byte strings have different spellings. -/
theorem encode_inj {bs bs' : Bytes} : encode bs = encode bs' ↔ bs = bs' := by
  refine ⟨fun h => ?_, congrArg encode⟩
  have hread := decode_encode bs
  rw [h, decode_encode] at hread
  exact (Except.ok.inj hread).symm

end

end Hex

end SealedGroup
