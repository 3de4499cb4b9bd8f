import SealedGroup.Identifier

/-!
# Tables

A finite map from identifiers, kept as a list of entries with strictly
ascending keys. A table is determined by what it answers: `Table.ext` says
that two tables with the same answer for every key are equal.

`Table.get?_insert` and `Table.get?_erase` say what an update does to the
answers: it changes the one for its key and no other.
-/

namespace SealedGroup

/-- **A finite map from identifiers.** -/
structure Table (α : Type) where
  entries : List (Identifier × α)
  ascending : (entries.map (·.1)).Pairwise (· < ·)

namespace Table

variable {α : Type}

instance [DecidableEq α] : DecidableEq (Table α) := fun a b =>
  decidable_of_iff (a.entries = b.entries) (by cases a; cases b; simp)

/-- The value stored for a key in a list of entries. -/
def find (key : Identifier) : List (Identifier × α) → Option α
  | [] => none
  | (k, value) :: rest => if key = k then some value else find key rest

/-- The entries with the value stored for the key, in place of any former
one. -/
def place (key : Identifier) (value : α) : List (Identifier × α) → List (Identifier × α)
  | [] => [(key, value)]
  | (k, former) :: rest =>
    if key < k then (key, value) :: (k, former) :: rest
    else if key = k then (key, value) :: rest
    else (k, former) :: place key value rest

/-- The entries without the one for the key. -/
def drop (key : Identifier) (entries : List (Identifier × α)) : List (Identifier × α) :=
  entries.filter fun entry => entry.1 ≠ key

theorem mem_keys_place {key k : Identifier} {value : α} {entries : List (Identifier × α)} :
    k ∈ (place key value entries).map (·.1) ↔ k = key ∨ k ∈ entries.map (·.1) := by
  induction entries with
  | nil => simp [place]
  | cons entry rest ih =>
    obtain ⟨k', former⟩ := entry
    unfold place
    split
    · simp
    · split
      · next heq => simp [heq]
      · simp only [List.map_cons, List.mem_cons, ih]
        constructor
        · rintro (h | h | h) <;> simp [h]
        · rintro (h | h | h) <;> simp [h]

theorem pairwise_place {key : Identifier} {value : α} {entries : List (Identifier × α)}
    (h : (entries.map (·.1)).Pairwise (· < ·)) :
    ((place key value entries).map (·.1)).Pairwise (· < ·) := by
  induction entries with
  | nil => simp [place]
  | cons entry rest ih =>
    obtain ⟨k, former⟩ := entry
    obtain ⟨hhead, hrest⟩ := List.pairwise_cons.mp h
    unfold place
    split
    · next hlt =>
      refine List.pairwise_cons.mpr ⟨fun other hother => ?_, h⟩
      rcases List.mem_cons.mp hother with rfl | hother
      · exact hlt
      · exact Identifier.lt_trans hlt (hhead other hother)
    · next hlt =>
      split
      · next heq => subst heq; exact h
      · next hne =>
        refine List.pairwise_cons.mpr ⟨fun other hother => ?_, ih hrest⟩
        rcases mem_keys_place.mp hother with rfl | hother
        · exact Identifier.lt_of_not_lt_of_ne hlt hne
        · exact hhead other hother

/-- The table without entries. -/
def empty : Table α := ⟨[], by simp⟩

/-- The value stored for a key. -/
def get? (t : Table α) (key : Identifier) : Option α :=
  find key t.entries

/-- The table with a value stored for a key. -/
def insert (t : Table α) (key : Identifier) (value : α) : Table α :=
  ⟨place key value t.entries, pairwise_place t.ascending⟩

/-- The table without the key. -/
def erase (t : Table α) (key : Identifier) : Table α where
  entries := drop key t.entries
  ascending := t.ascending.sublist (List.filter_sublist.map _)

/-- The number of keys. -/
def size (t : Table α) : Nat :=
  t.entries.length

/-- There is no key. -/
def isEmpty (t : Table α) : Bool :=
  t.entries.isEmpty

@[simp] theorem get?_empty (key : Identifier) : (empty : Table α).get? key = none := rfl

theorem find_place (key k : Identifier) (value : α) (entries : List (Identifier × α)) :
    find k (place key value entries) = if k = key then some value else find k entries := by
  induction entries with
  | nil => simp [place, find]
  | cons entry rest ih =>
    obtain ⟨k', former⟩ := entry
    unfold place
    split
    · simp [find]
    · split
      · next heq => subst heq; simp only [find]; split <;> rfl
      · next hne =>
        simp only [find, ih]
        split
        · next hk => subst hk; rw [if_neg (fun h => hne h.symm)]
        · rfl

theorem find_drop (key k : Identifier) (entries : List (Identifier × α)) :
    find k (drop key entries) = if k = key then none else find k entries := by
  induction entries with
  | nil => simp [drop, find]
  | cons entry rest ih =>
    obtain ⟨k', former⟩ := entry
    have hdrop : drop key ((k', former) :: rest) =
        if k' ≠ key then (k', former) :: drop key rest else drop key rest := by
      simp [drop, List.filter_cons]
    rw [hdrop]
    split
    · next hne =>
      simp only [find, ih]
      split
      · next hk => subst hk; rw [if_neg hne]
      · rfl
    · next heq =>
      simp only [ne_eq, Decidable.not_not] at heq
      subst heq
      rw [ih]
      split
      · rfl
      · next hne => simp [find, hne]

/-- **What an insertion changes**: the answer for its key, and no other. -/
theorem get?_insert (t : Table α) (key k : Identifier) (value : α) :
    (t.insert key value).get? k = if k = key then some value else t.get? k :=
  find_place key k value t.entries

/-- **What an erasure changes**: the answer for its key, and no other. -/
theorem get?_erase (t : Table α) (key k : Identifier) :
    (t.erase key).get? k = if k = key then none else t.get? k :=
  find_drop key k t.entries

@[simp] theorem get?_insert_self (t : Table α) (key : Identifier) (value : α) :
    (t.insert key value).get? key = some value := by
  simp [get?_insert]

theorem get?_insert_of_ne (t : Table α) {key k : Identifier} (value : α) (h : k ≠ key) :
    (t.insert key value).get? k = t.get? k := by
  simp [get?_insert, h]

@[simp] theorem get?_erase_self (t : Table α) (key : Identifier) :
    (t.erase key).get? key = none := by
  simp [get?_erase]

theorem get?_erase_of_ne (t : Table α) {key k : Identifier} (h : k ≠ key) :
    (t.erase key).get? k = t.get? k := by
  simp [get?_erase, h]

/-- A key below every key of a list is not found in it. -/
theorem find_eq_none_of_lt {key : Identifier} {entries : List (Identifier × α)}
    (h : ∀ k ∈ entries.map (·.1), key < k) : find key entries = none := by
  induction entries with
  | nil => rfl
  | cons entry rest ih =>
    have hhead := h entry.1 (List.mem_cons_self ..)
    have hne : key ≠ entry.1 := fun heq => Identifier.lt_irrefl key (heq ▸ hhead)
    simp only [find, if_neg hne]
    exact ih fun k hk => h k (List.mem_cons_of_mem _ hk)

theorem eq_of_find {as bs : List (Identifier × α)} (ha : (as.map (·.1)).Pairwise (· < ·))
    (hb : (bs.map (·.1)).Pairwise (· < ·)) (h : ∀ key, find key as = find key bs) : as = bs := by
  induction as generalizing bs with
  | nil =>
    cases bs with
    | nil => rfl
    | cons b bs => have hb' := h b.1; simp [find] at hb'
  | cons a as ih =>
    cases bs with
    | nil => have ha' := h a.1; simp [find] at ha'
    | cons b bs =>
      obtain ⟨ka, va⟩ := a
      obtain ⟨kb, vb⟩ := b
      obtain ⟨ha', has⟩ := List.pairwise_cons.mp ha
      obtain ⟨hb', hbs⟩ := List.pairwise_cons.mp hb
      have hkeys : ka = kb := by
        by_cases heq : ka = kb
        · exact heq
        · have hfind := h ka
          have hfind' := h kb
          by_cases hlt : ka < kb
          · have hnone : find ka bs = none :=
              find_eq_none_of_lt fun k hk => Identifier.lt_trans hlt (hb' k hk)
            simp [find, heq, hnone] at hfind
          · have hgt := Identifier.lt_of_not_lt_of_ne hlt heq
            have hnone : find kb as = none :=
              find_eq_none_of_lt fun k hk => Identifier.lt_trans hgt (ha' k hk)
            simp [find, Ne.symm heq, hnone] at hfind'
      subst hkeys
      have hvalues : va = vb := by simpa [find] using h ka
      subst hvalues
      have htail : ∀ key, find key as = find key bs := by
        intro key
        by_cases hkey : key = ka
        · subst hkey
          rw [find_eq_none_of_lt ha', find_eq_none_of_lt hb']
        · simpa [find, hkey] using h key
      rw [ih has hbs htail]

/-- **A table is determined by its answers.** -/
theorem ext {t u : Table α} (h : ∀ key, t.get? key = u.get? key) : t = u := by
  obtain ⟨as, ha⟩ := t
  obtain ⟨bs, hb⟩ := u
  have heq : as = bs := eq_of_find ha hb h
  subst heq
  rfl

end Table

end SealedGroup
