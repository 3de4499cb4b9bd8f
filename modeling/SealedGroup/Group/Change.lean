import SealedGroup.Group.Stored

/-!
# Changes of a group

An edit is announced as one change, since a control message cannot carry two.
`Change.between` classifies the difference between the stored state and a
proposed snapshot in a fixed order: a new name hides everything else, and an
addition hides removals.

Membership is compared with the zombies counted in on both sides, and only
standard identifiers are announced.
-/

namespace SealedGroup

/-- **The one change that an edit is announced as.** -/
inductive Change where
  /-- The group has a new name. -/
  | renamed (newName : String)
  /-- Members were added. -/
  | added (ids : List Identifier) (withHistory : Bool)
  /-- Members were removed. -/
  | removed (ids : List Identifier)
  /-- Nothing is to be announced. -/
  | unchanged
  deriving DecidableEq, Repr

namespace Change

/-- Everyone the stored group counts as present. -/
def present (g : StoredGroup) : Roster :=
  g.members.union g.zombies

/-- Everyone the snapshot counts as present. -/
def proposed (snapshot : GroupSnapshot) : Roster :=
  Roster.ofList (snapshot.members ++ snapshot.zombies)

/-- The standard identifiers of the first roster that are not in the second,
in ascending order. -/
def newcomers (after before : Roster) : List Identifier :=
  ((after.difference before).filter Identifier.isStandard).toList

/-- **The classified difference** between a stored group and a proposed
snapshot. -/
def between (old : StoredGroup) (snapshot : GroupSnapshot) : Change :=
  if snapshot.name ≠ old.name then .renamed snapshot.name
  else
    let before := present old
    let after := proposed snapshot
    match newcomers after before with
    | id :: rest => .added (id :: rest) false
    | [] =>
      match newcomers before after with
      | id :: rest => .removed (id :: rest)
      | [] => .unchanged

/-- There is nothing to announce. -/
def isUnchanged (change : Change) : Bool :=
  change == .unchanged

/-- The text by which the change is shown in logs. -/
def summary : Change → String
  | renamed newName => "Name change: " ++ newName
  | added ids _ => "Members added: " ++ toString ids.length
  | removed ids => "Members kicked: " ++ toString ids.length
  | unchanged => "No change"

end Change

end SealedGroup
