import SealedGroup.Group.Expiration
import SealedGroup.Roster

/-!
# Groups

What is stored of a group, and the snapshot that an edit proposes. A stored
group keeps its members and its zombies – removed members that have not been
purged – as rosters, and its administrators in order, the first one being the
primary administrator. A snapshot lists its members as they were given.

`StoredGroup.updated` is the stored state after a snapshot: the snapshot
decides the name, the rosters and the time of activity, and the
administrators only if it names any.
-/

namespace SealedGroup

/-- **The stored state of a group.** -/
structure StoredGroup where
  id : Identifier
  name : String
  members : Roster
  /-- Removed members that have not been purged yet. -/
  zombies : Roster
  /-- In order; the first one is the primary administrator. -/
  admins : List Identifier
  /-- The time of the last activity, in milliseconds; zero once left. -/
  activeAt : Int64
  left : Bool
  mode : ExpirationMode
  timer : UInt64
  deriving DecidableEq

/-- **A proposed snapshot of a group**, as an edit builds it. -/
structure GroupSnapshot where
  id : Identifier
  name : String
  members : List Identifier
  zombies : List Identifier
  activeAt : Int64
  /-- Empty to keep the stored administrators. -/
  admins : List Identifier
  expiration : ExpirationKind
  timer : UInt64
  deriving DecidableEq

namespace StoredGroup

/-- A group with a name and members and nothing else set. -/
def create (id : Identifier) (name : String) (members : List Identifier) : StoredGroup where
  id := id
  name := name
  members := Roster.ofList members
  zombies := Roster.empty
  admins := []
  activeAt := 0
  left := false
  mode := .off
  timer := 0

/-- Every group is a legacy group unless its identifier is a keyed one. -/
def isLegacy (g : StoredGroup) : Bool :=
  !g.id.isKeyed

/-- The account is an administrator. -/
def isAdmin (g : StoredGroup) (account : Identifier) : Bool :=
  account ∈ g.admins

/-- The first administrator. -/
def primaryAdmin? (g : StoredGroup) : Option Identifier :=
  g.admins.head?

/-- **The state after a snapshot.** -/
def updated (g : StoredGroup) (snapshot : GroupSnapshot) : StoredGroup :=
  { g with
    name := snapshot.name
    members := Roster.ofList snapshot.members
    zombies := Roster.ofList snapshot.zombies
    activeAt := snapshot.activeAt
    left := snapshot.activeAt == 0
    admins := if snapshot.admins.isEmpty then g.admins else snapshot.admins }

end StoredGroup

end SealedGroup
