import SealedGroup.Json.Printer
import SealedGroup.Json.Reader

/-!
# Integers and strings read back

The two scalars whose text is not a fixed word, and the two places where a reader of JSON can go
wrong by reading too much or too little.

An integer of 64 bits, signed or unsigned, is spelled in decimal digits without a leading zero,
and is read back from them (`Json.readNumber_integerChars`). A number has no closing mark: it
ends where the text does not go on with it. So reading back takes a condition on what follows,
that it begins with no digit, no point and no exponent (`Json.EndsNumber`), and whoever writes a
number into an array or an object has to provide it; a comma and the closing brackets do
(`Json.endsNumber_cons`). The bounds of 64 bits matter as well. Beyond them the reader would
take the digits for a number of another kind.

A string is spelled with its escapes, and is read back from them whatever characters it has
(`Json.readLiteral_text`): each escape stands for its own character. A character is written in
one of three ways, after a backslash as a letter of its own, by its code, or as it is, and the
lemma on a single character goes through them (`Json.escapeChar_cases`). No character of a
string is a surrogate, so that the code points that are read are not joined to pairs, and come
out as they went in. What follows the closing quote is left alone, and there is no condition on
it.
-/

namespace SealedGroup

namespace Json

/-! ## Digits -/

/-- A decimal digit is a digit of the grammar. -/
theorem isDigit_of_mem_toDigits {n : Nat} {c : Char} (h : c ∈ Nat.toDigits 10 n) :
    isDigit c = true := by
  have hdigit := Nat.isDigit_of_mem_toDigits (by decide) (by decide) h
  unfold Char.isDigit at hdigit
  rw [Bool.and_eq_true, decide_eq_true_iff, decide_eq_true_iff] at hdigit
  unfold isDigit
  rw [Bool.and_eq_true, decide_eq_true_iff, decide_eq_true_iff]
  exact hdigit

/-- Only zero is spelled with a zero in front. -/
theorem eq_zero_of_toDigits_eq_cons {n : Nat} {rest : List Char}
    (h : Nat.toDigits 10 n = '0' :: rest) : n = 0 := by
  induction n using Nat.strongRecOn generalizing rest with
  | ind n ih =>
    rcases Nat.lt_or_ge n 10 with hsmall | hlarge
    · rw [Nat.toDigits_of_lt_base hsmall] at h
      exact Nat.digitChar_eq_zero.mp (List.cons.inj h).1
    · rw [Nat.toDigits_of_base_le (by decide) hlarge] at h
      -- the front digit of a long number is that of its tenth
      cases hfront : Nat.toDigits 10 (n / 10) with
      | nil => exact absurd hfront Nat.toDigits_ne_nil
      | cons c cs =>
        rw [hfront, List.cons_append] at h
        rw [(List.cons.inj h).1] at hfront
        have htenth := ih (n / 10) (by omega) hfront
        omega

/-- The digits of a number spell it. -/
theorem digitsNat_toDigits (n : Nat) : Numeral.digitsNat (Nat.toDigits 10 n) = n := by
  have hfold : (fun n c => n * 10 + digitNat c) =
      fun (sofar : Nat) (c : Char) => 10 * sofar + (c.toNat - '0'.toNat) :=
    funext fun n => funext fun c => congrArg (· + digitNat c) (Nat.mul_comm n 10)
  unfold Numeral.digitsNat
  rw [hfold, ← Nat.ofDigitChars_eq_foldl, Nat.ofDigitChars_ten_toDigits]

/-! ## Numbers -/

/-- **What follows a number ends it**: it goes on with no digit, no point and no exponent. -/
def EndsNumber (rest : List Char) : Prop :=
  ∀ c ∈ rest.head?, isDigit c = false ∧ c ≠ '.' ∧ c ≠ 'e' ∧ c ≠ 'E'

theorem endsNumber_nil : EndsNumber [] := nofun

/-- A comma and the closing brackets end a number. -/
theorem endsNumber_cons {c : Char} (h : c = ',' ∨ c = ']' ∨ c = '\x7d') (rest : List Char) :
    EndsNumber (c :: rest) := by
  intro d hd
  cases hd
  rcases h with rfl | rfl | rfl <;> decide

namespace Numeral

variable {rest : List Char} (hends : EndsNumber rest)

include hends

/-- Digits are taken up to the end of the number. -/
theorem span_toDigits (n : Nat) :
    (Nat.toDigits 10 n ++ rest).takeWhile isDigit = Nat.toDigits 10 n ∧
      (Nat.toDigits 10 n ++ rest).dropWhile isDigit = rest := by
  have hdigits : ∀ c ∈ Nat.toDigits 10 n, isDigit c = true := fun _ => isDigit_of_mem_toDigits
  rw [List.takeWhile_append_of_pos hdigits, List.dropWhile_append_of_pos hdigits]
  cases rest with
  | nil => exact ⟨List.append_nil _, rfl⟩
  | cons c cs =>
    have hstop : ¬isDigit c = true := ne_true_of_eq_false (hends c rfl).1
    rw [List.takeWhile_cons_of_neg hstop, List.dropWhile_cons_of_neg hstop]
    exact ⟨List.append_nil _, rfl⟩

theorem readWhole_toDigits (n : Nat) :
    readWhole (Nat.toDigits 10 n ++ rest) = some (Nat.toDigits 10 n, rest) := by
  obtain ⟨htake, hdrop⟩ := span_toDigits hends n
  unfold readWhole
  split
  · next tail heq =>
    -- a zero in front is the whole number
    cases hfront : Nat.toDigits 10 n with
    | nil => exact absurd hfront Nat.toDigits_ne_nil
    | cons c cs =>
      rw [hfront, List.cons_append] at heq
      obtain ⟨rfl, rfl⟩ := List.cons.inj heq
      obtain rfl := eq_zero_of_toDigits_eq_cons hfront
      cases hfront
      rfl
  · rw [htake, hdrop]
    split
    · next hnil => exact absurd hnil Nat.toDigits_ne_nil
    · rfl

theorem readFraction_of_ends : readFraction rest = some (none, rest) := by
  unfold readFraction
  split
  · exact absurd rfl (hends '.' rfl).2.1
  · rfl

theorem readExponent_of_ends : readExponent rest = some (none, rest) := by
  unfold readExponent
  split
  · next c tail =>
    obtain ⟨_, _, hlower, hupper⟩ := hends c rfl
    rw [if_neg (not_or.mpr ⟨hlower, hupper⟩)]
  · rfl

/-- The numeral of a natural number. -/
theorem read_toDigits (n : Nat) :
    read (Nat.toDigits 10 n ++ rest) = some (⟨false, Nat.toDigits 10 n, none, none⟩, rest) := by
  have hsign : ∀ tail, Nat.toDigits 10 n ++ rest ≠ '-' :: tail := by
    intro tail heq
    cases hfront : Nat.toDigits 10 n with
    | nil => exact absurd hfront Nat.toDigits_ne_nil
    | cons c cs =>
      rw [hfront, List.cons_append] at heq
      have hdigit : isDigit c = true := isDigit_of_mem_toDigits (n := n) (by rw [hfront]; simp)
      rw [(List.cons.inj heq).1] at hdigit
      exact absurd hdigit (by decide)
  unfold read
  split
  next negative cs heq =>
  split at heq
  · next tail hminus => exact absurd hminus (hsign tail)
  · obtain ⟨rfl, rfl⟩ := Prod.mk.inj heq
    simp only [readWhole_toDigits hends, readFraction_of_ends hends, readExponent_of_ends hends,
      Option.bind_eq_bind, Option.bind_some, Option.pure_def]

/-- The numeral of a negative number. -/
theorem read_minus_toDigits (n : Nat) :
    read ('-' :: (Nat.toDigits 10 n ++ rest)) =
      some (⟨true, Nat.toDigits 10 n, none, none⟩, rest) := by
  unfold read
  simp only [readWhole_toDigits hends, readFraction_of_ends hends, readExponent_of_ends hends,
    Option.bind_eq_bind, Option.bind_some, Option.pure_def]

end Numeral

/-- **An integer of 64 bits reads back.** -/
theorem readNumber_integerChars {i : Int} (hleast : Int64.minValue.toInt ≤ i)
    (hmost : i < UInt64.size) {rest : List Char} (hends : EndsNumber rest) :
    readNumber (integerChars i ++ rest) = some (integer i, rest) := by
  unfold readNumber
  cases i with
  | ofNat n =>
    rw [show integerChars (Int.ofNat n) = Nat.toDigits 10 n from rfl,
      Numeral.read_toDigits hends]
    have hsize : n < UInt64.size := Int.ofNat_lt.mp hmost
    have hinteger : Numeral.integer? ⟨false, Nat.toDigits 10 n, none, none⟩ = some (n : Int) := by
      unfold Numeral.integer?
      rw [digitsNat_toDigits]
      exact if_pos hsize
    simp only [Option.map_some, hinteger, Int.ofNat_eq_natCast]
  | negSucc n =>
    rw [show integerChars (Int.negSucc n) = '-' :: Nat.toDigits 10 (n + 1) from rfl,
      List.cons_append, Numeral.read_minus_toDigits hends]
    have hinteger : Numeral.integer? ⟨true, Nat.toDigits 10 (n + 1), none, none⟩ =
        some (Int.negSucc n) := by
      have hneg : -((n + 1 : Nat) : Int) = Int.negSucc n := rfl
      simp only [Numeral.integer?, digitsNat_toDigits, hneg, Option.isSome_none, Bool.or_self,
        Bool.false_eq_true, if_false, if_true]
      exact if_pos ⟨Nat.succ_pos n, hleast⟩
    simp only [Option.map_some, hinteger]

/-! ## Strings -/

/-- A code unit reads back from its four digits. -/
theorem unitOfDigits?_digit {unit : Nat} (h : unit < 65536) :
    unitOfDigits? (Hex.digit (unit / 4096 % 16)) (Hex.digit (unit / 256 % 16))
      (Hex.digit (unit / 16 % 16)) (Hex.digit (unit % 16)) = some unit := by
  have hdigit : ∀ n, Hex.digitValue? (Hex.digit (n % 16)) = some (n % 16) := fun n =>
    Hex.digitValue?_digit (Nat.mod_lt n (by decide))
  simp only [unitOfDigits?, hdigit, Option.bind_eq_bind, Option.bind_some, Option.pure_def,
    Option.some.injEq]
  omega

/-- A character is written after a backslash as a letter of its own, or by its code, or as it
is. -/
theorem escapeChar_cases (c : Char) :
    (∃ letter ≠ 'u', escapeChar c = ['\\', letter] ∧ escaped? letter = some c) ∨
    (escapeChar c = escapeUnit c.toNat ∧ c.toNat < 0x20) ∨
    (escapeChar c = [c] ∧ c ≠ '"' ∧ c ≠ '\\' ∧ ¬c.toNat < 0x20) := by
  unfold escapeChar
  split
  · next h => exact .inl ⟨'"', by decide, rfl, by rw [h]; rfl⟩
  split
  · next h => exact .inl ⟨'\\', by decide, rfl, by rw [h]; rfl⟩
  next hquote hslash =>
  split
  · next h => exact .inl ⟨'b', by decide, rfl, congrArg some (Char.toNat_inj.mp h.symm)⟩
  split
  · next h => exact .inl ⟨'f', by decide, rfl, congrArg some (Char.toNat_inj.mp h.symm)⟩
  split
  · next h => exact .inl ⟨'n', by decide, rfl, by rw [h]; rfl⟩
  split
  · next h => exact .inl ⟨'r', by decide, rfl, by rw [h]; rfl⟩
  split
  · next h => exact .inl ⟨'t', by decide, rfl, by rw [h]; rfl⟩
  split
  · next h => exact .inr (.inl ⟨rfl, h⟩)
  · next h => exact .inr (.inr ⟨rfl, hquote, hslash, h⟩)

/-- **A character reads back** from the way it is written, before whatever follows. -/
theorem readPoints_escapeChar (c : Char) (rest : List Char) :
    readPoints (escapeChar c ++ rest) =
      (readPoints rest).map fun (points, rest) => (c.toNat :: points, rest) := by
  rcases escapeChar_cases c with ⟨letter, hletter, heq, hmeant⟩ | ⟨heq, hcontrol⟩ |
    ⟨heq, hquote, hslash, hplain⟩
  · rw [heq, List.cons_append, List.singleton_append, readPoints, hmeant]
    · cases readPoints rest <;> rfl
    · intro a b c d tail hu
      exact absurd hu hletter
  · rw [heq]
    unfold escapeUnit
    simp only [List.cons_append, List.nil_append]
    rw [readPoints, unitOfDigits?_digit (Nat.lt_trans hcontrol (by decide))]
    cases readPoints rest <;> rfl
  · rw [heq, List.singleton_append, readPoints, if_neg hplain]
    · cases readPoints rest <;> rfl
    · exact hquote
    · exact fun _ _ _ _ _ h _ => hslash h
    · exact fun _ _ h _ => hslash h

/-- The characters of a string read back up to the closing quote. -/
theorem readPoints_escaped (cs rest : List Char) :
    readPoints (cs.flatMap escapeChar ++ '"' :: rest) = some (cs.map Char.toNat, rest) := by
  induction cs with
  | nil => rfl
  | cons c cs ih =>
    rw [List.flatMap_cons, List.append_assoc, readPoints_escapeChar, ih]
    rfl

/-- No character is a surrogate. -/
theorem not_surrogate (c : Char) :
    isHighSurrogate c.toNat = false ∧ isLowSurrogate c.toNat = false := by
  have hvalid : c.toNat < 0xD800 ∨ 0xDFFF < c.toNat ∧ c.toNat < 0x110000 := c.valid
  unfold isHighSurrogate isLowSurrogate
  rw [Bool.and_eq_false_iff, Bool.and_eq_false_iff, decide_eq_false_iff_not,
    decide_eq_false_iff_not, decide_eq_false_iff_not, decide_eq_false_iff_not]
  omega

/-- Characters are not joined to pairs. -/
theorem joinPoints_map_toNat (cs : List Char) : joinPoints (cs.map Char.toNat) = some cs := by
  induction cs with
  | nil => rfl
  | cons c cs ih =>
    obtain ⟨hhigh, hlow⟩ := not_surrogate c
    cases cs with
    | nil =>
      rw [List.map_cons, List.map_nil, joinPoints, hhigh, hlow, Char.ofNat_toNat]
      rfl
    | cons d ds =>
      rw [List.map_cons] at ih ⊢
      rw [List.map_cons, joinPoints, hhigh, hlow, if_neg Bool.false_ne_true,
        if_neg Bool.false_ne_true, ih, Char.ofNat_toNat]
      rfl

/-- **A string literal reads back** up to its closing quote. -/
theorem readLiteral_text (s : String) (rest : List Char) :
    readLiteral (s.toList.flatMap escapeChar ++ '"' :: rest) = some (.text s, rest) := by
  unfold readLiteral
  rw [readPoints_escaped, Option.map_some]
  dsimp only
  rw [joinPoints_map_toNat]
  dsimp only
  rw [String.ofList_toList]

end Json

end SealedGroup
