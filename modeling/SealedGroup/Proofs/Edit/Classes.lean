import SealedGroup.Proofs.Edit.Course

/-!
# Which change an edit makes

The classes of changes hide one another: a new name hides additions and removals, an addition
hides removals. `StoredGroup.changeOf_cases` says when an edit falls into which class, and who
is named in it, in terms of the members and zombies that are stored and of the members that are
given.

An edit makes a snapshot of the group and compares it with what is stored, and the snapshot
keeps those zombies that are members. So everyone whom it counts as present is given as a
member, and the zombies do not occur on that side of the comparison
(`Change.mem_proposed_edited`). On the other side they do: a zombie was present, and one that is
not given as a member is removed.

This is the description by elements, for use where a single identifier is at stake; the one by
sets, which also says in what order a change names its identifiers, is about snapshots of any
kind.
-/

namespace SealedGroup

namespace Change

/-- The group counts the identifier as present: it is a member or a zombie. -/
theorem mem_present {g : StoredGroup} {id : Identifier} :
    id ∈ present g ↔ id ∈ g.members ∨ id ∈ g.zombies :=
  Roster.mem_union

theorem mem_newcomers {after before : Roster} {id : Identifier} :
    id ∈ newcomers after before ↔ id ∈ after ∧ id ∉ before ∧ id.isStandard = true := by
  unfold newcomers
  rw [Roster.mem_toList, Roster.mem_filter, Roster.mem_difference, and_assoc]

/-- **An edit proposes just the members that are given**: the zombies that it
keeps are among them. -/
theorem mem_proposed_edited {current : StoredGroup} {group id : Identifier} {name : String}
    {members : List Identifier} {activeAt : Int64} :
    id ∈ proposed (current.edited group name members activeAt) ↔ id ∈ members := by
  unfold proposed
  rw [Roster.mem_ofList, List.mem_append]
  show id ∈ (Roster.ofList members).toList ∨
    id ∈ (current.zombies.intersection (Roster.ofList members)).toList ↔ id ∈ members
  rw [Roster.mem_toList, Roster.mem_toList, Roster.mem_intersection, Roster.mem_ofList]
  exact ⟨fun h => h.elim (fun h => h) And.right, .inl⟩

end Change

namespace StoredGroup

open Change (present)

variable (current : StoredGroup) (name : String) (members : List Identifier)

/-- **The class of an edit**, and who is named in it. -/
theorem changeOf_cases :
    name ≠ current.name ∧ current.changeOf name members = .renamed name ∨
    (name = current.name ∧ ∃ ids ≠ [], current.changeOf name members = .added ids false ∧
      ∀ id, id ∈ ids ↔ id ∈ members ∧ id ∉ present current ∧ id.isStandard = true) ∨
    (name = current.name ∧
      (∀ id ∈ members, id.isStandard = true → id ∈ present current) ∧
      ∃ ids ≠ [], current.changeOf name members = .removed ids ∧
        ∀ id, id ∈ ids ↔ id ∈ present current ∧ id ∉ members ∧ id.isStandard = true) ∨
    (name = current.name ∧ current.changeOf name members = .unchanged ∧
      (∀ id ∈ members, id.isStandard = true → id ∈ present current) ∧
      ∀ id ∈ present current, id.isStandard = true → id ∈ members) := by
  by_cases hname : name = current.name
  · refine .inr ?_
    unfold changeOf Change.between
    rw [if_neg fun hne => hne hname]
    dsimp only
    -- the newcomers decide whether the removed ones are looked at
    have hadded : ∀ id, id ∈ Change.newcomers (Change.proposed
        (current.edited current.id name members 0)) (present current) ↔
          id ∈ members ∧ id ∉ present current ∧ id.isStandard = true := fun id => by
      rw [Change.mem_newcomers, Change.mem_proposed_edited]
    have hremoved : ∀ id, id ∈ Change.newcomers (present current) (Change.proposed
        (current.edited current.id name members 0)) ↔
          id ∈ present current ∧ id ∉ members ∧ id.isStandard = true := fun id => by
      rw [Change.mem_newcomers, Change.mem_proposed_edited]
    cases hnew : Change.newcomers (Change.proposed (current.edited current.id name members 0))
      (present current) with
    | cons id rest =>
      rw [hnew] at hadded
      exact .inl ⟨hname, _, List.cons_ne_nil id rest, rfl, hadded⟩
    | nil =>
      have hpresent : ∀ id ∈ members, id.isStandard = true → id ∈ present current := by
        intro id hmem hstandard
        by_contra hnot
        rw [hnew] at hadded
        exact List.not_mem_nil ((hadded id).mpr ⟨hmem, hnot, hstandard⟩)
      cases hgone : Change.newcomers (present current) (Change.proposed
        (current.edited current.id name members 0)) with
      | cons id rest =>
        rw [hgone] at hremoved
        exact .inr (.inl ⟨hname, hpresent, _, List.cons_ne_nil id rest, rfl, hremoved⟩)
      | nil =>
        refine .inr (.inr ⟨hname, rfl, hpresent, fun id hmem hstandard => ?_⟩)
        by_contra hnot
        rw [hgone] at hremoved
        exact List.not_mem_nil ((hremoved id).mpr ⟨hmem, hnot, hstandard⟩)
  · refine .inl ⟨hname, ?_⟩
    unfold changeOf Change.between
    exact if_pos hname

/-- Whoever is removed by an edit is not given as a member. -/
theorem not_mem_of_changeOf_removed {current : StoredGroup} {name : String}
    {members ids : List Identifier} (h : current.changeOf name members = .removed ids)
    {id : Identifier} (hmem : id ∈ ids) : id ∉ members := by
  rcases current.changeOf_cases name members with ⟨_, hchange⟩ | ⟨_, _, _, hchange, _⟩ |
    ⟨_, _, ids', _, hchange, hids⟩ | ⟨_, hchange, _, _⟩
  · cases hchange.symm.trans h
  · cases hchange.symm.trans h
  · cases hchange.symm.trans h
    exact ((hids id).mp hmem).2.1
  · cases hchange.symm.trans h

end StoredGroup

end SealedGroup
