import SealedGroup.Group.Notice
import SealedGroup.Ledger.Error
import SealedGroup.Table

/-!
# The group ledger

Groups and their conversation logs, kept in memory. Beside the groups the
ledger keeps the notices of all conversations in the order in which they were
added, how often each group was committed, and how many writes there were.

The lemmas say what each operation does to what the ledger answers: a write sets
the state of its own group alone, a commit raises the count of its own group
alone and is refused where no group is stored, and a notice is added at the end
of its own conversation alone.
-/

namespace SealedGroup

/-- **A ledger of groups and their notices.** -/
structure GroupLedger where
  groups : Table StoredGroup
  /-- The notices of all conversations, oldest first. -/
  log : List Notice
  /-- How often each group was committed; a group never committed is not
  listed. -/
  commits : Table Nat
  /-- How many groups were written. -/
  writes : Nat
  deriving DecidableEq

namespace GroupLedger

/-- The ledger without groups. -/
def empty : GroupLedger := ⟨Table.empty, [], Table.empty, 0⟩

/-- The group stored under an identifier. -/
def get? (ledger : GroupLedger) (id : Identifier) : Option StoredGroup :=
  ledger.groups.get? id

/-- The ledger with a group written under its own identifier, in place of any
former state. -/
def put (ledger : GroupLedger) (state : StoredGroup) : GroupLedger :=
  { ledger with
    groups := ledger.groups.insert state.id state
    writes := ledger.writes + 1 }

/-- How often a group was committed. -/
def commitsOf (ledger : GroupLedger) (id : Identifier) : Nat :=
  (ledger.commits.get? id).getD 0

/-- **The ledger with one more commit of a group**, or an error if no group is
stored under the identifier. -/
def commit (ledger : GroupLedger) (id : Identifier) : Except LedgerError GroupLedger :=
  match ledger.get? id with
  | none => .error (.groupNotFound id.text)
  | some _ =>
    .ok { ledger with commits := ledger.commits.insert id (ledger.commitsOf id + 1) }

/-- The ledger with one more notice. -/
def append (ledger : GroupLedger) (notice : Notice) : GroupLedger :=
  { ledger with log := ledger.log ++ [notice] }

/-- The notices of a conversation, oldest first. -/
def notices (ledger : GroupLedger) (conversation : Identifier) : List Notice :=
  ledger.log.filter fun notice => notice.conversation == conversation

/-- **A write sets its own group**, and no other. -/
theorem get?_put (ledger : GroupLedger) (state : StoredGroup) (id : Identifier) :
    (ledger.put state).get? id = if id = state.id then some state else ledger.get? id :=
  Table.get?_insert ..

/-- A group that is written is stored. -/
theorem get?_put_self (ledger : GroupLedger) {state : StoredGroup} {id : Identifier}
    (hid : state.id = id) : (ledger.put state).get? id = some state := by
  rw [get?_put, if_pos hid.symm]

/-- **A commit needs a stored group.** -/
theorem commit_eq_error_iff {ledger : GroupLedger} {id : Identifier} {e : LedgerError} :
    ledger.commit id = .error e ↔ ledger.get? id = none ∧ e = .groupNotFound id.text := by
  unfold commit
  cases h : ledger.get? id with
  | none => simp [eq_comm]
  | some state => simp

/-- A commit leaves every group as it is. -/
theorem get?_of_commit {ledger after : GroupLedger} {id : Identifier}
    (h : ledger.commit id = .ok after) (other : Identifier) :
    after.get? other = ledger.get? other := by
  unfold commit at h
  split at h
  · cases h
  · cases h; rfl

/-- **A commit counts for its own group**, and for no other. -/
theorem commitsOf_of_commit {ledger after : GroupLedger} {id : Identifier}
    (h : ledger.commit id = .ok after) (other : Identifier) :
    after.commitsOf other =
      if other = id then ledger.commitsOf id + 1 else ledger.commitsOf other := by
  unfold commit at h
  split at h
  · cases h
  · cases h
    simp only [commitsOf, Table.get?_insert]
    split <;> rfl

/-- A commit adds no notice. -/
theorem notices_of_commit {ledger after : GroupLedger} {id : Identifier}
    (h : ledger.commit id = .ok after) (conversation : Identifier) :
    after.notices conversation = ledger.notices conversation := by
  unfold commit at h
  split at h
  · cases h
  · cases h; rfl

/-- A commit is not a write. -/
theorem writes_of_commit {ledger after : GroupLedger} {id : Identifier}
    (h : ledger.commit id = .ok after) : after.writes = ledger.writes := by
  unfold commit at h
  split at h
  · cases h
  · cases h; rfl

/-- **A notice is added to its own conversation**, and to no other. -/
theorem notices_append (ledger : GroupLedger) (notice : Notice) (conversation : Identifier) :
    (ledger.append notice).notices conversation =
      ledger.notices conversation ++
        if notice.conversation = conversation then [notice] else [] := by
  simp only [notices, append, List.filter_append, List.filter_cons, List.filter_nil, beq_iff_eq]

end GroupLedger

end SealedGroup
