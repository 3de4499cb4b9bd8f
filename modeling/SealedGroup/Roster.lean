import SealedGroup.Identifier

/-!
# Rosters

A finite set of identifiers, kept as a strictly ascending list. The list is
therefore determined by its members: `Roster.ext` says that two rosters with
the same members are equal, and the order in which a roster is listed is the
order of identifiers.
-/

namespace SealedGroup

/-- **A set of identifiers**, in ascending order and without repetition. -/
structure Roster where
  toList : List Identifier
  ascending : toList.Pairwise (· < ·)
  deriving DecidableEq

namespace Roster

/-- The identifier put into an ascending list at its place, unless it is
already there. -/
def place (id : Identifier) : List Identifier → List Identifier
  | [] => [id]
  | head :: rest =>
    if id < head then id :: head :: rest
    else if id = head then head :: rest
    else head :: place id rest

theorem mem_place {id other : Identifier} {ids : List Identifier} :
    other ∈ place id ids ↔ other = id ∨ other ∈ ids := by
  induction ids with
  | nil => simp [place]
  | cons head rest ih =>
    unfold place
    split
    · simp
    · split
      · next heq => simp [heq]
      · simp only [List.mem_cons, ih]
        constructor
        · rintro (h | h | h) <;> simp [h]
        · rintro (h | h | h) <;> simp [h]

theorem pairwise_place {id : Identifier} {ids : List Identifier}
    (h : ids.Pairwise (· < ·)) : (place id ids).Pairwise (· < ·) := by
  induction ids with
  | nil => simp [place]
  | cons head rest ih =>
    obtain ⟨hhead, hrest⟩ := List.pairwise_cons.mp h
    unfold place
    split
    · next hlt =>
      refine List.pairwise_cons.mpr ⟨fun other hother => ?_, h⟩
      rcases List.mem_cons.mp hother with rfl | hother
      · exact hlt
      · exact Identifier.lt_trans hlt (hhead other hother)
    · next hlt =>
      split
      · exact h
      · next hne =>
        refine List.pairwise_cons.mpr ⟨fun other hother => ?_, ih hrest⟩
        rcases mem_place.mp hother with rfl | hother
        · exact Identifier.lt_of_not_lt_of_ne hlt hne
        · exact hhead other hother

/-- The roster of nobody. -/
def empty : Roster := ⟨[], List.Pairwise.nil⟩

/-- The roster with one more member. -/
def insert (id : Identifier) (r : Roster) : Roster :=
  ⟨place id r.toList, pairwise_place r.ascending⟩

/-- **The roster of a list**, whatever its order and repetitions. -/
def ofList (ids : List Identifier) : Roster :=
  ids.foldr insert empty

instance : Membership Identifier Roster := ⟨fun r id => id ∈ r.toList⟩

instance (id : Identifier) (r : Roster) : Decidable (id ∈ r) :=
  inferInstanceAs (Decidable (id ∈ r.toList))

theorem mem_toList {id : Identifier} {r : Roster} : id ∈ r.toList ↔ id ∈ r := Iff.rfl

@[simp] theorem not_mem_empty (id : Identifier) : id ∉ empty := by
  simp [← mem_toList, empty]

@[simp] theorem mem_insert {id other : Identifier} {r : Roster} :
    other ∈ r.insert id ↔ other = id ∨ other ∈ r :=
  mem_place

/-- The members of the roster of a list are those of the list. -/
@[simp] theorem mem_ofList {id : Identifier} {ids : List Identifier} :
    id ∈ ofList ids ↔ id ∈ ids := by
  induction ids with
  | nil => simp [ofList]
  | cons head rest ih =>
    have hcons : ofList (head :: rest) = (ofList rest).insert head := rfl
    rw [hcons, mem_insert, ih, List.mem_cons]

/-- The members that satisfy a condition. -/
def filter (p : Identifier → Bool) (r : Roster) : Roster :=
  ⟨r.toList.filter p, r.ascending.filter p⟩

@[simp] theorem mem_filter {id : Identifier} {p : Identifier → Bool} {r : Roster} :
    id ∈ r.filter p ↔ id ∈ r ∧ p id = true := by
  simp only [← mem_toList, filter, List.mem_filter]

/-- The members of either roster. -/
def union (r s : Roster) : Roster :=
  r.toList.foldr insert s

@[simp] theorem mem_union {id : Identifier} {r s : Roster} :
    id ∈ r.union s ↔ id ∈ r ∨ id ∈ s := by
  have key : ∀ ids : List Identifier, id ∈ ids.foldr insert s ↔ id ∈ ids ∨ id ∈ s := by
    intro ids
    induction ids with
    | nil => simp
    | cons head rest ih => rw [List.foldr_cons, mem_insert, ih, List.mem_cons, or_assoc]
  exact key r.toList

/-- The members of the first roster that are not in the second. -/
def difference (r s : Roster) : Roster :=
  r.filter fun id => decide (id ∉ s)

@[simp] theorem mem_difference {id : Identifier} {r s : Roster} :
    id ∈ r.difference s ↔ id ∈ r ∧ id ∉ s := by
  simp [difference]

/-- The members of both rosters. -/
def intersection (r s : Roster) : Roster :=
  r.filter fun id => decide (id ∈ s)

@[simp] theorem mem_intersection {id : Identifier} {r s : Roster} :
    id ∈ r.intersection s ↔ id ∈ r ∧ id ∈ s := by
  simp [intersection]

/-- The number of members. -/
def size (r : Roster) : Nat :=
  r.toList.length

/-- The roster has no member. -/
def isEmpty (r : Roster) : Bool :=
  r.toList.isEmpty

/-- Two ascending lists with the same members are the same list. -/
theorem eq_of_pairwise {as bs : List Identifier} (ha : as.Pairwise (· < ·))
    (hb : bs.Pairwise (· < ·)) (h : ∀ id, id ∈ as ↔ id ∈ bs) : as = bs := by
  induction as generalizing bs with
  | nil =>
    cases bs with
    | nil => rfl
    | cons b bs => exact absurd ((h b).mpr (List.mem_cons_self ..)) (List.not_mem_nil)
  | cons a as ih =>
    cases bs with
    | nil => exact absurd ((h a).mp (List.mem_cons_self ..)) (List.not_mem_nil)
    | cons b bs =>
      obtain ⟨ha', has⟩ := List.pairwise_cons.mp ha
      obtain ⟨hb', hbs⟩ := List.pairwise_cons.mp hb
      have hab : a = b := by
        rcases List.mem_cons.mp ((h a).mp (List.mem_cons_self ..)) with heq | hmem
        · exact heq
        · rcases List.mem_cons.mp ((h b).mpr (List.mem_cons_self ..)) with heq | hmem'
          · exact heq.symm
          · exact absurd (Identifier.lt_trans (hb' a hmem) (ha' b hmem'))
              (Identifier.lt_irrefl b)
      subst hab
      have htail : ∀ id, id ∈ as ↔ id ∈ bs := by
        intro id
        have hid := h id
        simp only [List.mem_cons] at hid
        constructor
        · intro hmem
          rcases hid.mp (Or.inr hmem) with rfl | hmem'
          · exact absurd (ha' id hmem) (Identifier.lt_irrefl id)
          · exact hmem'
        · intro hmem
          rcases hid.mpr (Or.inr hmem) with rfl | hmem'
          · exact absurd (hb' id hmem) (Identifier.lt_irrefl id)
          · exact hmem'
      rw [ih has hbs htail]

/-- **A roster is determined by its members.** -/
theorem ext {r s : Roster} (h : ∀ id, id ∈ r ↔ id ∈ s) : r = s := by
  obtain ⟨as, ha⟩ := r
  obtain ⟨bs, hb⟩ := s
  have heq : as = bs := eq_of_pairwise ha hb h
  subst heq
  rfl

/-- The roster of a roster's own list is that roster. -/
@[simp] theorem ofList_toList (r : Roster) : ofList r.toList = r :=
  ext fun _ => mem_ofList

end Roster

end SealedGroup
