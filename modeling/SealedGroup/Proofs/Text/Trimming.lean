import SealedGroup.Text.Blank

/-!
# What is left of a trimmed text

A text is trimmed to the part of it that has nothing but blanks on either side and has no blank
at either end (`Blank.Core`). There is just one such part, and of a text that is all blanks it
is empty (`Blank.trim_eq_iff`). Blanks in between stay.

The program trims one end after the other, and by looking at one character after the other,
while a core is described from outside: it says of three pieces of the text what they are, and
nothing of the order in which they are found. So whoever asks whether a text is read need not
know how it is trimmed, and a text that somebody has split in three in the right way is known to
be trimmed to the piece in the middle.

The two ends are treated alike. For each of them there is one lemma on what is taken off, one on
what is left, one by which blanks that are put there make no difference, and one for a text that
has none there. Trimming at the end is trimming at the beginning of the reversed text, and so
the lemmas on the end follow from those on the beginning.

Which characters are blank is a matter of `Blank`, a fixed list of code points. Nothing here
depends on it: the lemmas hold of any test of characters.
-/

namespace SealedGroup

namespace Blank

/-- **The core of a text**: what stands between the blanks at its ends. -/
structure Core (cs core : List Char) : Prop where
  split : ∃ front back, cs = front ++ core ++ back ∧ (∀ c ∈ front, Blank c = true) ∧
    ∀ c ∈ back, Blank c = true
  head : ∀ c ∈ core.head?, Blank c = false
  last : ∀ c ∈ core.getLast?, Blank c = false

variable {cs core front back : List Char}

/-! ## One end -/

/-- What is taken off the beginning is blank. -/
theorem exists_trimLeft (cs : List Char) :
    ∃ front, cs = front ++ trimLeft cs ∧ ∀ c ∈ front, Blank c = true := by
  refine ⟨cs.takeWhile Blank, List.takeWhile_append_dropWhile.symm, fun c hc => ?_⟩
  exact List.all_eq_true.mp List.all_takeWhile c hc

/-- What is left does not begin with a blank. -/
theorem head_trimLeft (cs : List Char) : ∀ c ∈ (trimLeft cs).head?, Blank c = false := by
  intro c hc
  have hhead := List.head?_dropWhile_not Blank cs
  rwa [show (cs.dropWhile Blank).head? = some c from hc] at hhead

/-- Blanks at the beginning make no difference. -/
theorem trimLeft_append (h : ∀ c ∈ front, Blank c = true) :
    trimLeft (front ++ cs) = trimLeft cs :=
  List.dropWhile_append_of_pos h

/-- A text that does not begin with a blank is left as it is. -/
theorem trimLeft_of_head (h : ∀ c ∈ cs.head?, Blank c = false) : trimLeft cs = cs := by
  cases cs with
  | nil => rfl
  | cons c rest => exact List.dropWhile_cons_of_neg (ne_true_of_eq_false (h c rfl))

/-- What is taken off the end is blank. -/
theorem exists_trimRight (cs : List Char) :
    ∃ back, cs = trimRight cs ++ back ∧ ∀ c ∈ back, Blank c = true := by
  obtain ⟨front, hsplit, hfront⟩ := exists_trimLeft cs.reverse
  refine ⟨front.reverse, ?_, fun c hc => hfront c (List.mem_reverse.mp hc)⟩
  rw [trimRight, ← List.reverse_append, ← hsplit, List.reverse_reverse]

/-- What is left does not end with a blank. -/
theorem last_trimRight (cs : List Char) : ∀ c ∈ (trimRight cs).getLast?, Blank c = false := by
  rw [trimRight, List.getLast?_reverse]
  exact head_trimLeft cs.reverse

/-- Blanks at the end make no difference. -/
theorem trimRight_append (h : ∀ c ∈ back, Blank c = true) :
    trimRight (cs ++ back) = trimRight cs := by
  rw [trimRight, List.reverse_append,
    trimLeft_append fun c hc => h c (List.mem_reverse.mp hc), trimRight]

/-- A text that does not end with a blank is left as it is. -/
theorem trimRight_of_last (h : ∀ c ∈ cs.getLast?, Blank c = false) : trimRight cs = cs := by
  rw [trimRight, trimLeft_of_head, List.reverse_reverse]
  rwa [List.head?_reverse]

/-! ## Both ends -/

/-- **A text is trimmed to its core.** -/
theorem core_trim (cs : List Char) : Core cs (trim cs) := by
  obtain ⟨front, hfront, hblank⟩ := exists_trimLeft cs
  obtain ⟨back, hback, hblank'⟩ := exists_trimRight (trimLeft cs)
  refine ⟨⟨front, back, ?_, hblank, hblank'⟩, fun c hc => ?_, last_trimRight (trimLeft cs)⟩
  · rw [List.append_assoc, trim, ← hback, ← hfront]
  · -- taking off the end leaves the beginning as it is
    refine head_trimLeft cs c ?_
    rw [hback, List.head?_append]
    exact Option.or_eq_some_iff.mpr (.inl hc)

/-- **A text has one core** only. -/
theorem trim_of_core (h : Core cs core) : trim cs = core := by
  obtain ⟨⟨front, back, rfl, hfront, hback⟩, hhead, hlast⟩ := h
  rw [trim, List.append_assoc, trimLeft_append hfront]
  cases core with
  | nil =>
    have hnil : trimLeft (back ++ []) = [] := trimLeft_append hback
    rw [List.append_nil] at hnil
    rw [List.nil_append, hnil]
    rfl
  | cons c rest =>
    have hfirst : trimLeft (c :: rest ++ back) = c :: rest ++ back :=
      trimLeft_of_head fun d hd => hhead d hd
    rw [hfirst, trimRight_append hback, trimRight_of_last hlast]

theorem trim_eq_iff : trim cs = core ↔ Core cs core :=
  ⟨fun h => h ▸ core_trim cs, trim_of_core⟩

end Blank

end SealedGroup
