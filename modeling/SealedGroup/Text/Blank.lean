/-!
# Blank characters

The characters with the Unicode property *White_Space*, and the text that is
left when they are taken off both ends. The property is wider than ASCII
blanks – it holds the next-line character, the no-break space, the spaces of
the General Punctuation block and the ideographic space – and it does not
hold the zero-width space, the byte order mark or the information
separators.
-/

namespace SealedGroup

/-- The character has the Unicode property *White_Space*. -/
def Blank (c : Char) : Bool :=
  (0x09 ≤ c.toNat && c.toNat ≤ 0x0D) || c.toNat == 0x20 || c.toNat == 0x85 ||
  c.toNat == 0xA0 || c.toNat == 0x1680 || (0x2000 ≤ c.toNat && c.toNat ≤ 0x200A) ||
  c.toNat == 0x2028 || c.toNat == 0x2029 || c.toNat == 0x202F || c.toNat == 0x205F ||
  c.toNat == 0x3000

namespace Blank

/-- The text without the blanks it begins with. -/
def trimLeft (cs : List Char) : List Char :=
  cs.dropWhile Blank

/-- The text without the blanks it ends with. -/
def trimRight (cs : List Char) : List Char :=
  (trimLeft cs.reverse).reverse

/-- The text without the blanks at either end. -/
def trim (cs : List Char) : List Char :=
  trimRight (trimLeft cs)

theorem trimLeft_of_forall {cs : List Char} (h : ∀ c ∈ cs, Blank c = false) :
    trimLeft cs = cs := by
  cases cs with
  | nil => rfl
  | cons c rest => simp [trimLeft, h c (List.mem_cons_self ..)]

/-- **A text without blanks is left as it is.** -/
theorem trim_of_forall {cs : List Char} (h : ∀ c ∈ cs, Blank c = false) : trim cs = cs := by
  have hrev : ∀ c ∈ cs.reverse, Blank c = false := fun c hc => h c (List.mem_reverse.mp hc)
  rw [trim, trimLeft_of_forall h, trimRight, trimLeft_of_forall hrev, List.reverse_reverse]

end Blank

end SealedGroup
