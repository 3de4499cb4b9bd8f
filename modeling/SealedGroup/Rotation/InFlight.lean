import SealedGroup.KeyPair.Basic
import SealedGroup.Table
import SealedGroup.Uuid

/-!
# Rotations in flight

A new key pair is in flight from the moment it is made until its distribution
is confirmed. The registry keeps at most one attempt for each group: a new
one takes the place of the one before, whose confirmation then finds that it
is no longer current.

`InFlight.get?_register` and `InFlight.get?_erase` say what a change does to the
attempts: it concerns one group and no other. `InFlight.isCurrent_iff` says that
an attempt is current exactly if it is the one that the registry gives for its
group.
-/

namespace SealedGroup

/-- A key pair made for a group and not yet committed. -/
structure Attempt where
  id : Uuid
  pair : KeyPair
  deriving DecidableEq

/-- **The registry of rotations in flight**: the current attempt of each
group. -/
structure InFlight where
  entries : Table Attempt
  deriving DecidableEq

namespace InFlight

/-- The registry without attempts. -/
def empty : InFlight := ⟨Table.empty⟩

/-- The current attempt of a group. -/
def get? (r : InFlight) (group : Identifier) : Option Attempt :=
  r.entries.get? group

/-- The registry with a new attempt for a group, in place of any former
one. -/
def register (r : InFlight) (group : Identifier) (attempt : Uuid) (pair : KeyPair) : InFlight :=
  ⟨r.entries.insert group ⟨attempt, pair⟩⟩

/-- The registry without the entry of a group. -/
def erase (r : InFlight) (group : Identifier) : InFlight :=
  ⟨r.entries.erase group⟩

/-- The attempt is the current one of its group. -/
def isCurrent (r : InFlight) (group : Identifier) (attempt : Uuid) : Bool :=
  (r.get? group).any fun entry => entry.id == attempt

/-- **The registry without the entry of a group**, if the entry still belongs
to the attempt; and whether it did. -/
def withdraw (r : InFlight) (group : Identifier) (attempt : Uuid) : Bool × InFlight :=
  if r.isCurrent group attempt then (true, r.erase group) else (false, r)

/-- **Commits an attempt if it is current.** The action is run on the entry,
and the entry is removed if the action succeeds. A stale attempt is told from
a current one before anything is run. -/
def settle {m : Type → Type} [Monad m] {ε : Type} (r : InFlight) (group : Identifier)
    (attempt : Uuid) (commit : Attempt → m (Except ε Unit)) : m (Except ε Bool × InFlight) :=
  match r.get? group with
  | none => pure (.ok false, r)
  | some entry =>
    if entry.id = attempt then do
      match ← commit entry with
      | .ok () => pure (.ok true, r.erase group)
      | .error e => pure (.error e, r)
    else pure (.ok false, r)

/-- The number of groups with a current attempt. -/
def size (r : InFlight) : Nat :=
  r.entries.size

/-- No group has a current attempt. -/
def isEmpty (r : InFlight) : Bool :=
  r.entries.isEmpty

@[simp] theorem get?_empty (group : Identifier) : empty.get? group = none := rfl

/-- **A registration concerns its own group**, and no other. -/
theorem get?_register (r : InFlight) (group other : Identifier) (attempt : Uuid)
    (pair : KeyPair) :
    (r.register group attempt pair).get? other =
      if other = group then some ⟨attempt, pair⟩ else r.get? other :=
  Table.get?_insert ..

@[simp] theorem get?_register_self (r : InFlight) (group : Identifier) (attempt : Uuid)
    (pair : KeyPair) : (r.register group attempt pair).get? group = some ⟨attempt, pair⟩ :=
  Table.get?_insert_self ..

theorem get?_register_of_ne (r : InFlight) {group other : Identifier} (attempt : Uuid)
    (pair : KeyPair) (h : other ≠ group) :
    (r.register group attempt pair).get? other = r.get? other :=
  Table.get?_insert_of_ne _ _ h

/-- **A removal concerns its own group**, and no other. -/
theorem get?_erase (r : InFlight) (group other : Identifier) :
    (r.erase group).get? other = if other = group then none else r.get? other :=
  Table.get?_erase ..

@[simp] theorem get?_erase_self (r : InFlight) (group : Identifier) :
    (r.erase group).get? group = none :=
  Table.get?_erase_self ..

theorem get?_erase_of_ne (r : InFlight) {group other : Identifier} (h : other ≠ group) :
    (r.erase group).get? other = r.get? other :=
  Table.get?_erase_of_ne _ h

/-- **The current attempt** is the one that the registry gives for the group. -/
theorem isCurrent_iff {r : InFlight} {group : Identifier} {attempt : Uuid} :
    r.isCurrent group attempt = true ↔ ∃ pair, r.get? group = some ⟨attempt, pair⟩ := by
  unfold isCurrent
  cases h : r.get? group with
  | none => simp
  | some entry =>
    simp only [Option.any_some, beq_iff_eq, Option.some.injEq]
    constructor
    · rintro rfl
      exact ⟨entry.pair, rfl⟩
    · rintro ⟨pair, rfl⟩
      rfl

/-- An attempt is not current if its group has another one, or none. -/
theorem isCurrent_eq_false_iff {r : InFlight} {group : Identifier} {attempt : Uuid} :
    r.isCurrent group attempt = false ↔
      ∀ entry, r.get? group = some entry → entry.id ≠ attempt := by
  rw [Bool.eq_false_iff, Ne, isCurrent_iff]
  constructor
  · rintro hnot ⟨id, pair⟩ hget rfl
    exact hnot ⟨pair, hget⟩
  · rintro hother ⟨pair, hget⟩
    exact hother _ hget rfl

/-- An attempt is current once it is registered. -/
theorem isCurrent_register (r : InFlight) (group : Identifier) (attempt : Uuid) (pair : KeyPair) :
    (r.register group attempt pair).isCurrent group attempt = true :=
  isCurrent_iff.mpr ⟨pair, get?_register_self ..⟩

/-- **Registries are determined by their answers.** -/
theorem ext {r s : InFlight} (h : ∀ group, r.get? group = s.get? group) : r = s := by
  obtain ⟨t⟩ := r
  obtain ⟨u⟩ := s
  exact congrArg InFlight.mk (Table.ext h)

end InFlight

end SealedGroup
