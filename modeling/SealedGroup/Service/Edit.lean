import SealedGroup.Service.Rotation

/-!
# Local edits

`Service.edit` is called when the local user edits the name or the members of a
group, and never for a change that comes from the network. It goes through these steps:

1. the group is loaded, and the edit is refused if it breaks a precondition;
2. the new roster is written;
3. if there is something to announce, a notice is recorded;
4. the control messages are sent, and a confirmed removal is followed by a
   key rotation.

Local state is recorded first and delivery comes after it: a send or a
rotation that fails is reported and takes nothing back.
-/

namespace SealedGroup

/-- **What a local edit did.** -/
structure EditReport where
  change : Change
  notice : Option Notice
  /-- One record for each send except that of a rotation, in order. -/
  dispatches : List Delivery
  rotation : Option Rotation.Outcome
  deriving DecidableEq

/-- What is announced about a change: nothing if nothing changed, and nothing
about a rename to the empty name. -/
def Change.announcement? (change : Change) : Option Announcement :=
  if change = .renamed "" then none else Announcement.ofChange? change

/-- The snapshot that a local edit of a stored group proposes. Zombies that are
no longer members are dropped, and the administrators stay. -/
def StoredGroup.edited (current : StoredGroup) (id : Identifier) (name : String)
    (members : List Identifier) (activeAt : Int64) : GroupSnapshot where
  id := id
  name := name
  members := (Roster.ofList members).toList
  zombies := (current.zombies.intersection (Roster.ofList members)).toList
  activeAt := activeAt
  admins := current.admins
  expiration := ExpirationKind.ofSettings current.mode current.timer
  timer := current.timer

namespace Service

variable {σ : Type}

/-- **Creates the group if it is missing, and stores the given snapshot.** -/
def upsert (backend : Backend σ) (snapshot : GroupSnapshot) : Act σ StoredGroup := do
  let stored ← Act.ledger (backend.loadGroup snapshot.id)
  let state := (stored.getD (StoredGroup.create snapshot.id snapshot.name [])).updated snapshot
  Act.ledger (backend.saveGroup state)
  Act.ledger (backend.commit snapshot.id)
  pure state

/-- **Records a notice in a conversation log.** -/
def recordNotice (backend : Backend σ) (config : Config) (conversation : Identifier)
    (announcement : Announcement) (sender : Identifier) (sentAt : Int64)
    (update : Option ExpirationUpdate) : Act σ Notice := do
  let id ← Act.outside backend.drawUuid
  let notice :=
    (Notice.create id conversation announcement sender config.account sentAt).stamped update
  Act.ledger (backend.appendNotice notice)
  pure notice

/-- Sends a message and keeps the record of it. -/
def deliver (backend : Backend σ) (dispatch : Dispatch) : Act σ Delivery := do
  let result ← Act.whole (backend.send dispatch)
  pure (.ofResult dispatch result)

/-- Sends each message in order, and keeps the records. -/
def deliverAll (backend : Backend σ) : List Dispatch → Act σ (List Delivery)
  | [] => pure []
  | dispatch :: rest => do
    let record ← deliver backend dispatch
    let records ← deliverAll backend rest
    pure (record :: records)

/-- **Refuses an edit that must not be made.** For an addition it gives the
current key pair, which the invitations need. -/
def vet (backend : Backend σ) (config : Config) (current : StoredGroup)
    (snapshot : GroupSnapshot) (change : Change) : Act σ (Option KeyPair) := do
  match change with
  | .removed ids =>
    if config.account ∈ ids then throw (.preconditionFailed .selfRemoval)
    else if (current.primaryAdmin?.any fun primary => decide (primary ∈ ids)) &&
        !snapshot.members.isEmpty then
      throw (.preconditionFailed .primaryAdminRemoval)
    else pure none
  | .added .. =>
    match ← Act.ledger (backend.currentPair current.id) with
    | none => throw (.notFound (.keyPair current.id))
    | some pair => pure (some pair)
  | .renamed _ | .unchanged => pure none

/-- Announces a new name to the group. -/
def announceName (backend : Backend σ) (config : Config) (group : Identifier)
    (identifier newName : String) : Act σ (List Delivery) := do
  let createdAt ← config.networkTime backend
  let record ← deliver backend
    (.toGroup group (Message.create group identifier createdAt (.rename newName)))
  pure [record]

/-- Announces new members to the group, and invites each of them. -/
def announceAddition (backend : Backend σ) (config : Config) (current : StoredGroup)
    (snapshot : GroupSnapshot) (ids : List Identifier) (pair : KeyPair) (identifier : String) :
    Act σ (List Delivery) := do
  let createdAt ← config.networkTime backend
  let record ← deliver backend
    (.toGroup current.id (Message.create current.id identifier createdAt (.addition ids)))
  let createdAt ← config.networkTime backend
  let invitation := Message.create current.id identifier createdAt
    (.invitation snapshot.name snapshot.members current.admins pair.toRaw)
  let records ← deliverAll backend (ids.map fun id => .toMember id invitation)
  pure (record :: records)

/-- The rotation that follows a removal; an error of it becomes its
outcome. -/
def rotateAfterRemoval (backend : Backend σ) (config : Config) (current : StoredGroup)
    (snapshot : GroupSnapshot) : Act σ Rotation.Outcome :=
  tryCatch
    (Rotation.run backend config snapshot.id snapshot.members
      (current.isAdmin config.account))
    fun e => pure (.failed e.message)

/-- Announces a removal to the group; once that is confirmed, the group gets a
new key pair. -/
def announceRemoval (backend : Backend σ) (config : Config) (current : StoredGroup)
    (snapshot : GroupSnapshot) (ids : List Identifier) (identifier : String) :
    Act σ (List Delivery × Option Rotation.Outcome) := do
  let createdAt ← config.networkTime backend
  let record ← deliver backend
    (.toGroup snapshot.id
      (Message.create snapshot.id identifier createdAt (.removal ids)))
  if record.isConfirmed then
    let outcome ← rotateAfterRemoval backend config current snapshot
    pure ([record], some outcome)
  else pure ([record], none)

/-- Sends the control messages of a change that was recorded. -/
def announce (backend : Backend σ) (config : Config) (current : StoredGroup)
    (snapshot : GroupSnapshot) (change : Change) (pair : Option KeyPair) (identifier : String) :
    Act σ (List Delivery × Option Rotation.Outcome) := do
  match change, pair with
  | .renamed newName, _ =>
    let records ← announceName backend config snapshot.id identifier newName
    pure (records, none)
  | .added ids _, some pair =>
    let records ← announceAddition backend config current snapshot ids pair identifier
    pure (records, none)
  | .removed ids, _ => announceRemoval backend config current snapshot ids identifier
  | .added .., none | .unchanged, _ => pure ([], none)

/-- Records and announces a change whose roster is written. -/
def publish (backend : Backend σ) (config : Config) (current : StoredGroup)
    (snapshot : GroupSnapshot) (change : Change) (pair : Option KeyPair) :
    Act σ EditReport := do
  match change.announcement? with
  | none =>
    Act.ledger (backend.commit snapshot.id)
    pure ⟨change, none, [], none⟩
  | some announcement =>
    let sentAt ← Act.outside backend.now
    let notice ← recordNotice backend config snapshot.id announcement config.account sentAt
      (some ⟨snapshot.expiration, current.timer, false⟩)
    let (records, rotation) ← announce backend config current snapshot change pair notice.id
    Act.ledger (backend.commit snapshot.id)
    pure ⟨change, some notice, records, rotation⟩

/-- **Applies a local edit** of the name and the members of a group. The
current name or the current members leave them as they are. -/
def edit (backend : Backend σ) (config : Config) (group : Identifier)
    (name : String) (members : List Identifier) : Act σ EditReport := do
  if group.isKeyed then throw (.preconditionFailed .keyedGroup)
  else
    match ← Act.ledger (backend.loadGroup group) with
    | none => throw (.notFound (.group group))
    | some current =>
      if ExpirationKind.ofSettings current.mode current.timer = .deleteAfterRead then
        throw (.preconditionFailed .readExpiration)
      else
        let activeAt ← Act.outside backend.now
        let snapshot := current.edited group name members activeAt
        let change := Change.between current snapshot
        let pair ← vet backend config current snapshot change
        let _ ← upsert backend snapshot
        publish backend config current snapshot change pair

end Service

end SealedGroup
