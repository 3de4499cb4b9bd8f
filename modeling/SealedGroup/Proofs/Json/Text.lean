import SealedGroup.Proofs.Json.Scalars

/-!
# JSON text reads back

A value is *spelled* if it holds nothing but what this library writes: no number other than an
integer of 64 bits, and no string that denotes no text. Spelled values count how deep they are
nested, since a reader may put a limit on that, and the count is part of the notion, so that
each written form has a bound that can be read off its definition.

The reader takes a spelled value back from its text, and leaves what follows it
(`Json.Spelled.readsBack`). So the text of a spelled value denotes that value
(`Json.Spelled.read?_compact`), and whatever can be told of the value can be told of the text.

## What the induction carries

Three things keep this from being a plain induction over the value. A number needs something
behind it that ends it, and so reading back is stated before *any* rest that ends a number, and
the texts of arrays and objects are shown to provide such a rest to each of their items. The
reader skips blanks and looks for closing brackets before it reads an item, and so what a value
begins with must be none of these. And the reader takes steps, of which it is given a number
beforehand. This bound is no obstacle, since every step is paid for by a character of the text;
but the payments have to be added up, and so `Json.ReadsBack` says that one step for each
character is enough, and more do no harm.

`Json.ReadsBack` holds all three, has one lemma for each kind of value, and is what the
induction over spelled values proves.
-/

namespace SealedGroup

namespace Json

/-- **The values that have a spelling**, nested no deeper than the given bound. -/
inductive Spelled : Nat → Json → Prop where
  | null {n : Nat} : Spelled n .null
  | bool {n : Nat} (b : Bool) : Spelled n (.bool b)
  | integer {n : Nat} {i : Int} (hleast : Int64.minValue.toInt ≤ i) (hmost : i < UInt64.size) :
      Spelled n (.integer i)
  | str {n : Nat} (s : String) : Spelled n (.str s)
  | array {n : Nat} {items : List Json} (h : ∀ item ∈ items, Spelled n item) :
      Spelled (n + 1) (.array items)
  | record {n : Nat} {fields : List (String × Json)} (h : ∀ field ∈ fields, Spelled n field.2) :
      Spelled (n + 1) (.record fields)

/-- **The value is taken back from its text**, whatever follows, with one step to a
character; and nothing in front of it is taken for a blank or for the end of an array. -/
structure ReadsBack (j : Json) : Prop where
  starts : ∃ c cs, j.chars = c :: cs ∧ isBlank c = false ∧ c ≠ ']'
  read : ∀ (fuel : Nat) {rest : List Char}, j.chars.length ≤ fuel → EndsNumber rest →
    readValue fuel (j.chars ++ rest) = some (j, rest)

/-- There is nothing to skip before a character that is no blank. -/
theorem skipBlanks_cons {c : Char} (h : isBlank c = false) (cs : List Char) :
    skipBlanks (c :: cs) = c :: cs :=
  List.dropWhile_cons_of_neg (ne_true_of_eq_false h)

/-! ## Arrays -/

section

variable {fuel : Nat} {item : Json} {items : List Json} {cs rest : List Char}

theorem readItems_of_last (h : readValue fuel cs = some (item, ']' :: rest)) :
    readItems (fuel + 1) cs = some ([item], rest) := by
  rw [readItems, h]
  rfl

theorem readItems_of_more {more : List Char} (h : readValue fuel cs = some (item, ',' :: more))
    (hmore : readItems fuel more = some (items, rest)) :
    readItems (fuel + 1) cs = some (item :: items, rest) := by
  rw [readItems, h]
  simp only [Option.bind_eq_bind, Option.bind_some, skipBlanks_cons (c := ',') rfl, hmore,
    Option.pure_def]

/-- The items after the first one end a number that stands before them. -/
theorem endsNumber_itemsChars (items : List Json) (rest : List Char) :
    EndsNumber (itemsChars items ++ rest) := by
  cases items with
  | nil => exact endsNumber_cons (.inr (.inl rfl)) _
  | cons item items => exact endsNumber_cons (.inl rfl) _

theorem itemsChars_cons_append (item : Json) (items : List Json) (rest : List Char) :
    itemsChars (item :: items) ++ rest = ',' :: (item.chars ++ (itemsChars items ++ rest)) := by
  rw [itemsChars, List.cons_append, List.append_assoc]

/-- **The items of an array read back** if each of them does. -/
theorem readItems_chars (h : ∀ j ∈ item :: items, ReadsBack j) (rest : List Char)
    (hfuel : item.chars.length + (itemsChars items).length ≤ fuel) :
    readItems fuel (item.chars ++ (itemsChars items ++ rest)) = some (item :: items, rest) := by
  obtain ⟨hitem, hitems⟩ := List.forall_mem_cons.mp h
  induction items generalizing item fuel with
  | nil =>
    rw [show (itemsChars []).length = 1 from rfl] at hfuel
    cases fuel with
    | zero => omega
    | succ fuel =>
      exact readItems_of_last (hitem.read fuel (by omega) (endsNumber_itemsChars [] rest))
  | cons next items ih =>
    rw [itemsChars, List.length_cons, List.length_append] at hfuel
    cases fuel with
    | zero => omega
    | succ fuel =>
      obtain ⟨hnext, hitems'⟩ := List.forall_mem_cons.mp hitems
      have hread := hitem.read fuel (by omega) (endsNumber_itemsChars (next :: items) rest)
      rw [itemsChars_cons_append] at hread ⊢
      exact readItems_of_more hread (ih hitems (by omega) hnext hitems')

end

/-! ## Objects -/

section

variable {fuel : Nat} {name : String} {value : Json} {fields : List (Literal × Json)}
  {cs rest : List Char}

/-- Reading a field takes its name and its colon, and then its value. -/
theorem readFields_literal (name : String) (cs : List Char) :
    readFields (fuel + 1) (literalChars (.text name) ++ ':' :: cs) = (do
      let (value, rest) ← readValue fuel cs
      match skipBlanks rest with
      | '\x7d' :: rest => pure ([(.text name, value)], rest)
      | ',' :: rest =>
        let (fields, rest) ← readFields fuel rest
        pure ((.text name, value) :: fields, rest)
      | _ => none) := by
  have hchars : literalChars (.text name) ++ ':' :: cs =
      '"' :: (name.toList.flatMap escapeChar ++ '"' :: ':' :: cs) := by
    rw [literalChars, List.append_assoc, List.append_assoc]
    rfl
  rw [hchars, readFields, skipBlanks_cons rfl]
  simp only [readLiteral_text, Option.bind_eq_bind, Option.bind_some]
  rfl

theorem readFields_of_last (h : readValue fuel cs = some (value, '\x7d' :: rest)) :
    readFields (fuel + 1) (literalChars (.text name) ++ ':' :: cs) =
      some ([(.text name, value)], rest) := by
  rw [readFields_literal, h]
  rfl

theorem readFields_of_more {more : List Char} (h : readValue fuel cs = some (value, ',' :: more))
    (hmore : readFields fuel more = some (fields, rest)) :
    readFields (fuel + 1) (literalChars (.text name) ++ ':' :: cs) =
      some ((.text name, value) :: fields, rest) := by
  rw [readFields_literal, h]
  simp only [Option.bind_eq_bind, Option.bind_some, skipBlanks_cons (c := ',') rfl, hmore,
    Option.pure_def]

/-- The fields after the first one end a number that stands before them. -/
theorem endsNumber_fieldsChars (fields : List (Literal × Json)) (rest : List Char) :
    EndsNumber (fieldsChars fields ++ rest) := by
  cases fields with
  | nil => exact endsNumber_cons (.inr (.inr rfl)) _
  | cons field fields => exact endsNumber_cons (.inl rfl) _

theorem fieldsChars_cons_append (name : Literal) (value : Json) (fields : List (Literal × Json))
    (rest : List Char) :
    fieldsChars ((name, value) :: fields) ++ rest =
      ',' :: (literalChars name ++ ':' :: (value.chars ++ (fieldsChars fields ++ rest))) := by
  rw [fieldsChars, List.cons_append, List.append_assoc, List.cons_append, List.append_assoc]

/-- **The fields of an object read back** if their names are texts and their values read back. -/
theorem readFields_chars {name : Literal}
    (h : ∀ field ∈ (name, value) :: fields, (∃ s, field.1 = .text s) ∧ ReadsBack field.2)
    (rest : List Char) (hfuel : value.chars.length + (fieldsChars fields).length ≤ fuel) :
    readFields fuel (literalChars name ++ ':' :: (value.chars ++ (fieldsChars fields ++ rest))) =
      some ((name, value) :: fields, rest) := by
  obtain ⟨⟨⟨s, hname⟩, hvalue⟩, hfields⟩ := List.forall_mem_cons.mp h
  dsimp only at hname hvalue
  subst hname
  induction fields generalizing s value fuel with
  | nil =>
    rw [show (fieldsChars []).length = 1 from rfl] at hfuel
    cases fuel with
    | zero => omega
    | succ fuel =>
      exact readFields_of_last (hvalue.read fuel (by omega) (endsNumber_fieldsChars [] rest))
  | cons next fields ih =>
    obtain ⟨name', value'⟩ := next
    rw [fieldsChars, List.length_cons, List.length_append, List.length_cons,
      List.length_append] at hfuel
    cases fuel with
    | zero => omega
    | succ fuel =>
      obtain ⟨⟨⟨s', hname⟩, hvalue'⟩, hfields'⟩ := List.forall_mem_cons.mp hfields
      dsimp only at hname hvalue'
      subst hname
      have hread := hvalue.read fuel (by omega)
        (endsNumber_fieldsChars ((.text s', value') :: fields) rest)
      rw [fieldsChars_cons_append] at hread ⊢
      exact readFields_of_more hread (ih (by omega) hfields' hvalue' s' hfields)

end

/-! ## Values -/

/-- An integer begins with a digit or a minus. -/
theorem integerChars_eq_cons (i : Int) :
    ∃ c cs, integerChars i = c :: cs ∧ (isDigit c = true ∨ c = '-') := by
  cases i with
  | ofNat n =>
    cases hdigits : Nat.toDigits 10 n with
    | nil => exact absurd hdigits Nat.toDigits_ne_nil
    | cons c cs =>
      refine ⟨c, cs, hdigits, .inl (isDigit_of_mem_toDigits (n := n) ?_)⟩
      rw [hdigits]
      exact List.mem_cons_self
  | negSucc n => exact ⟨'-', _, rfl, .inr rfl⟩

section

variable {c : Char} (h : isDigit c = true ∨ c = '-')

include h

/-- No other character begins a number. -/
theorem ne_of_number {d : Char} (hd : ¬(isDigit d = true ∨ d = '-')) : c ≠ d :=
  fun heq => hd (heq ▸ h)

theorem not_blank_of_number : isBlank c = false ∧ c ≠ ']' := by
  refine ⟨?_, ne_of_number h (by decide)⟩
  unfold isBlank
  rw [decide_eq_false (ne_of_number h (by decide)), decide_eq_false (ne_of_number h (by decide)),
    decide_eq_false (ne_of_number h (by decide)), decide_eq_false (ne_of_number h (by decide))]
  rfl

/-- What begins with a digit or a minus is read as a number. -/
theorem readValue_of_number (fuel : Nat) (cs : List Char) :
    readValue (fuel + 1) (c :: cs) = readNumber (c :: cs) := by
  rw [readValue, skipBlanks_cons (not_blank_of_number h).1]
  -- each of the other readings begins with a character of its own
  split <;> first
    | next heq => exact absurd (List.cons.inj heq).1 (ne_of_number h (by decide))
    | rfl

end

/-- A value reads back if it does so with one step for its first character. -/
theorem readsBack_of_succ {j : Json} {c : Char} {cs : List Char} (hchars : j.chars = c :: cs)
    (hblank : isBlank c = false) (hne : c ≠ ']')
    (hread : ∀ fuel rest, cs.length ≤ fuel → EndsNumber rest →
      readValue (fuel + 1) (c :: (cs ++ rest)) = some (j, rest)) : ReadsBack j := by
  refine ⟨⟨c, cs, hchars, hblank, hne⟩, fun fuel rest hfuel hends => ?_⟩
  rw [hchars] at hfuel ⊢
  cases fuel with
  | zero => cases hfuel
  | succ fuel => exact hread fuel rest (Nat.le_of_succ_le_succ hfuel) hends

theorem readsBack_null : ReadsBack .null :=
  readsBack_of_succ rfl rfl (by decide) fun _ _ _ _ => rfl

theorem readsBack_bool (b : Bool) : ReadsBack (.bool b) := by
  cases b with
  | true => exact readsBack_of_succ rfl rfl (by decide) fun _ _ _ _ => rfl
  | false => exact readsBack_of_succ rfl rfl (by decide) fun _ _ _ _ => rfl

theorem readsBack_integer {i : Int} (hleast : Int64.minValue.toInt ≤ i)
    (hmost : i < UInt64.size) : ReadsBack (.integer i) := by
  obtain ⟨c, cs, heq, hstart⟩ := integerChars_eq_cons i
  obtain ⟨hblank, hne⟩ := not_blank_of_number hstart
  refine readsBack_of_succ heq hblank hne fun fuel rest _ hends => ?_
  have hnumber := readNumber_integerChars hleast hmost hends
  rw [heq, List.cons_append] at hnumber
  rw [readValue_of_number hstart, hnumber]

theorem readsBack_str (s : String) : ReadsBack (.str s) := by
  have hchars : (Json.str s).chars = '"' :: (s.toList.flatMap escapeChar ++ ['"']) := rfl
  refine readsBack_of_succ hchars rfl (by decide) fun fuel rest _ _ => ?_
  rw [List.append_assoc, readValue, skipBlanks_cons rfl]
  simp only [List.singleton_append, readLiteral_text, Option.map_some]

/-- A bracket that is not closed at once is followed by items. -/
theorem readValue_of_items {c : Char} (hblank : isBlank c = false) (hne : c ≠ ']') (fuel : Nat)
    (cs : List Char) : readValue (fuel + 1) ('[' :: c :: cs) =
      (readItems fuel (c :: cs)).map fun (items, rest) => (array items, rest) := by
  rw [readValue, skipBlanks_cons rfl]
  simp only [skipBlanks_cons hblank]
  split
  · next hclose => exact absurd (List.cons.inj hclose).1 hne
  · rfl

theorem readsBack_array {items : List Json} (h : ∀ item ∈ items, ReadsBack item) :
    ReadsBack (.array items) := by
  cases items with
  | nil => exact readsBack_of_succ rfl rfl (by decide) fun _ _ _ _ => rfl
  | cons item items =>
    refine readsBack_of_succ rfl rfl (by decide) fun fuel rest hfuel _ => ?_
    obtain ⟨c, cs, heq, hblank, hne⟩ := (h item List.mem_cons_self).starts
    rw [List.length_append] at hfuel
    have hitems := readItems_chars h rest hfuel
    rw [List.append_assoc]
    rw [heq, List.cons_append] at hitems ⊢
    rw [readValue_of_items hblank hne, hitems, Option.map_some]

/-- A brace that is followed by a name is followed by fields. -/
theorem readValue_of_fields (name : String) (fuel : Nat) (cs : List Char) :
    readValue (fuel + 1) ('\x7b' :: (literalChars (.text name) ++ cs)) =
      (readFields fuel (literalChars (.text name) ++ cs)).map fun (fields, rest) =>
        (object fields, rest) := rfl

theorem readsBack_object {fields : List (Literal × Json)}
    (h : ∀ field ∈ fields, (∃ s, field.1 = .text s) ∧ ReadsBack field.2) :
    ReadsBack (.object fields) := by
  cases fields with
  | nil => exact readsBack_of_succ rfl rfl (by decide) fun _ _ _ _ => rfl
  | cons field fields =>
    obtain ⟨name, value⟩ := field
    refine readsBack_of_succ rfl rfl (by decide) fun fuel rest hfuel _ => ?_
    obtain ⟨⟨s, hname⟩, _⟩ := h _ List.mem_cons_self
    dsimp only at hname
    subst hname
    rw [List.length_append, List.length_cons, List.length_append] at hfuel
    have hfields : readFields fuel _ = _ := readFields_chars h rest (by omega)
    rw [List.append_assoc, List.cons_append, List.append_assoc, readValue_of_fields, hfields,
      Option.map_some]

/-- **Spelled values read back.** -/
theorem Spelled.readsBack {n : Nat} {j : Json} (h : Spelled n j) : ReadsBack j := by
  induction h with
  | null => exact readsBack_null
  | bool b => exact readsBack_bool b
  | integer hleast hmost => exact readsBack_integer hleast hmost
  | str s => exact readsBack_str s
  | array _ ih => exact readsBack_array ih
  | record _ ih =>
    refine readsBack_object fun field hfield => ?_
    obtain ⟨pair, hpair, rfl⟩ := List.mem_map.mp hfield
    exact ⟨⟨pair.1, rfl⟩, ih pair hpair⟩

/-- **The text of a spelled value denotes that value.** -/
theorem Spelled.read?_compact {n : Nat} {j : Json} (h : Spelled n j) :
    read? j.compact = some j := by
  have hread := h.readsBack.read (2 * j.chars.length + 1) (by omega) endsNumber_nil
  rw [List.append_nil] at hread
  unfold read? compact
  rw [String.toList_ofList, hread]
  rfl

end Json

end SealedGroup
