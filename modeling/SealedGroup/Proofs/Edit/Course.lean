import SealedGroup.Proofs.Rotation.Steps
import SealedGroup.Service.Edit

/-!
# The course of an edit, in memory

An edit of a group is refused, or it writes the new roster, records a notice and sends its
messages. `Service.refusal` says which edits are refused and why, in the order in which the
reasons are looked at; a refused edit changes nothing (`Service.exec_edit_of_refusal`), and one
that is not refused goes on to `Service.publish` over the written ledgers
(`Service.exec_edit_of_allowed`).

## Reasons

The reasons come in two parts. Some are about the group and the request as such: its identifier
is no keyed one, there is a group stored under it, and the messages of the group do not expire
after reading. The others are objections to the change that the edit would make
(`Service.objection`): new members need a key that they can be given, and neither we nor the
primary administrator may be removed, the latter unless the group is emptied. The primary
administrator is the first of those that are stored.

An objection is looked for in the change as it is classified, and not in the rosters. What a
change hides meets no objection.

## What is known of an edit that goes on

An edit that is not refused passed all of this, and `Service.Allowed` keeps what was found on
the way, for the group that is stored. The roster is written before anything is announced, and
so everything after it runs over `Ledgers.written`, in which the edited group has the members
that were given and its old administrators, and all other groups are as they were.
-/

namespace SealedGroup

variable {ε : Type}

/-- No member is listed exactly if none was given. -/
theorem Roster.toList_ofList_eq_nil {ids : List Identifier} :
    (ofList ids).toList = [] ↔ ids = [] := by
  rw [List.eq_nil_iff_forall_not_mem, List.eq_nil_iff_forall_not_mem]
  exact forall_congr' fun id => not_congr mem_ofList

/-- The messages of a group expire after reading exactly if that is its mode
and its timer is set. -/
theorem ExpirationKind.ofSettings_eq_deleteAfterRead {mode : ExpirationMode} {timer : UInt64} :
    ofSettings mode timer = .deleteAfterRead ↔ mode = .deleteAfterRead ∧ timer ≠ 0 := by
  unfold ofSettings
  by_cases htimer : timer = 0
  · rw [if_pos htimer]
    exact ⟨nofun, fun h => absurd htimer h.2⟩
  · rw [if_neg htimer]
    cases mode <;> simp [htimer]

/-- **The change that an edit of a stored group makes.** -/
def StoredGroup.changeOf (current : StoredGroup) (name : String) (members : List Identifier) :
    Change :=
  Change.between current (current.edited current.id name members 0)

/-- The change does not depend on when the edit is made. -/
theorem StoredGroup.between_edited (current : StoredGroup) (id : Identifier) (name : String)
    (members : List Identifier) (activeAt : Int64) :
    Change.between current (current.edited id name members activeAt) =
      current.changeOf name members := rfl

/-- **The state that a snapshot makes** of the group that it is for, which is created if it is
missing. -/
def Ledgers.stateOf (ledgers : Ledgers) (snapshot : GroupSnapshot) : StoredGroup :=
  ((ledgers.groups.get? snapshot.id).getD
    (StoredGroup.create snapshot.id snapshot.name [])).updated snapshot

/-- The ledgers after a snapshot is written. -/
def Ledgers.upserted (ledgers : Ledgers) (snapshot : GroupSnapshot) : Ledgers :=
  { ledgers with groups := (ledgers.groups.put (ledgers.stateOf snapshot)).committed snapshot.id }

/-- The ledgers after the roster of an edited group is written. -/
def Ledgers.written (ledgers : Ledgers) (current : StoredGroup) (group : Identifier)
    (name : String) (members : List Identifier) (activeAt : Int64) : Ledgers :=
  { ledgers with
    groups := (ledgers.groups.put
      (current.updated (current.edited group name members activeAt))).committed group }

/-- An edit stores just the members that are given. -/
theorem StoredGroup.members_updated_edited (current : StoredGroup) (group : Identifier)
    (name : String) (members : List Identifier) (activeAt : Int64) :
    (current.updated (current.edited group name members activeAt)).members =
      Roster.ofList members :=
  Roster.ofList_toList _

/-- An edit leaves the administrators as they are. -/
theorem StoredGroup.admins_updated_edited (current : StoredGroup) (group : Identifier)
    (name : String) (members : List Identifier) (activeAt : Int64) :
    (current.updated (current.edited group name members activeAt)).admins = current.admins :=
  ite_self current.admins

/-- The edited group is stored as it was written. -/
theorem Ledgers.get?_written (ledgers : Ledgers) {current : StoredGroup} {group : Identifier}
    {name : String} {members : List Identifier} {activeAt : Int64} (hid : current.id = group) :
    (ledgers.written current group name members activeAt).groups.get? group =
      some (current.updated (current.edited group name members activeAt)) := by
  show (ledgers.groups.put (current.updated _)).get? group = _
  exact GroupLedger.get?_put_self ledgers.groups hid

/-- A legacy group goes by an identifier that is no keyed one. -/
theorem Ledgers.Sound.not_isKeyed {ledgers : Ledgers} (h : ledgers.Sound) {group : Identifier}
    {current : StoredGroup} (hstored : ledgers.groups.get? group = some current)
    (hlegacy : current.isLegacy = true) : group.isKeyed = false := by
  rw [← h.filed hstored]
  simpa [StoredGroup.isLegacy] using hlegacy

/-- The other groups are stored as they were. -/
theorem Ledgers.get?_written_of_ne (ledgers : Ledgers) {current : StoredGroup}
    {group other : Identifier} {name : String} {members : List Identifier} {activeAt : Int64}
    (hid : current.id = group) (hother : other ≠ group) :
    (ledgers.written current group name members activeAt).groups.get? other =
      ledgers.groups.get? other := by
  show (ledgers.groups.put (current.updated _)).get? other = _
  rw [GroupLedger.get?_put]
  exact if_neg fun h => hother (h.trans hid)

namespace Service

variable (config : Config) (ledgers : Ledgers)

/-- Why a change must not be made, if it must not. -/
def objection (current : StoredGroup) (members : List Identifier) :
    Change → Option ServiceError
  | .removed ids =>
    if config.account ∈ ids then some (.preconditionFailed .selfRemoval)
    else if (∃ primary ∈ current.admins.head?, primary ∈ ids) ∧ members ≠ [] then
      some (.preconditionFailed .primaryAdminRemoval)
    else none
  | .added .. =>
    match ledgers.keys.latest current.id with
    | .ok none => some (.notFound (.keyPair current.id))
    | _ => none
  | .renamed _ | .unchanged => none

/-- **Why an edit is refused**, if it is: the first of the reasons that
holds. -/
def refusal (group : Identifier) (name : String) (members : List Identifier) :
    Option ServiceError :=
  if group.isKeyed then some (.preconditionFailed .keyedGroup)
  else
    match ledgers.groups.get? group with
    | none => some (.notFound (.group group))
    | some current =>
      if current.mode = .deleteAfterRead ∧ current.timer ≠ 0 then
        some (.preconditionFailed .readExpiration)
      else objection config ledgers current members (current.changeOf name members)

/-- We may remove the only other member of our group. -/
theorem refusal_sampleWithKey :
    refusal Config.sample Ledgers.sampleWithKey StoredGroup.sample.id "friends"
      [Config.sample.account] = none := by decide +kernel

variable (environment : Environment ε) (r : InFlight) (e : ε)

/-! ## Vetting -/

variable {config ledgers}

/-- The guard of the primary administrator, as the service computes it. -/
theorem removesPrimary_iff {current : StoredGroup} {group : Identifier} {name : String}
    {members ids : List Identifier} {activeAt : Int64} :
    ((current.primaryAdmin?.any fun primary => decide (primary ∈ ids)) &&
        !(current.edited group name members activeAt).members.isEmpty) = true ↔
      (∃ primary ∈ current.admins.head?, primary ∈ ids) ∧ members ≠ [] := by
  have hmembers : (current.edited group name members activeAt).members.isEmpty = true ↔
      members = [] := by
    rw [List.isEmpty_iff]
    exact Roster.toList_ofList_eq_nil
  rw [Bool.and_eq_true, Option.any_eq_true, Bool.not_eq_true', ← Bool.not_eq_true, hmembers]
  exact and_congr_left' (exists_congr fun primary => and_congr_right fun _ => decide_eq_true_iff)

/-- **A change that meets an objection** is refused. -/
theorem exec_vet_of_objection {current : StoredGroup} {group : Identifier} {name : String}
    {members : List Identifier} {activeAt : Int64} {change : Change} {error : ServiceError}
    (h : objection config ledgers current members change = some error) :
    (vet (Ledgers.backend environment) config current
        (current.edited group name members activeAt) change).exec ⟨r, ⟨ledgers, e⟩⟩ =
      (.error error, ⟨r, ⟨ledgers, e⟩⟩) := by
  cases change with
  | removed ids =>
    unfold objection at h
    unfold vet
    dsimp only at h ⊢
    by_cases hself : config.account ∈ ids
    · rw [if_pos hself] at h ⊢
      cases h
      rfl
    · rw [if_neg hself] at h ⊢
      by_cases hprimary : (∃ primary ∈ current.admins.head?, primary ∈ ids) ∧ members ≠ []
      · rw [if_pos hprimary] at h
        cases h
        rw [if_pos (removesPrimary_iff.mpr hprimary)]
        rfl
      · rw [if_neg hprimary] at h
        cases h
  | added ids withHistory =>
    unfold objection at h
    dsimp only at h
    split at h
    · next hlatest =>
      cases h
      unfold vet
      dsimp only
      rw [Act.exec_bind_of_ok (Ledgers.exec_currentPair environment r ledgers e hlatest)]
      rfl
    · cases h
  | renamed newName => cases h
  | unchanged => cases h

/-- The pair that comes with a change that was vetted: an addition needs the
latest one, and nothing else needs any. -/
def Vetted (ledgers : Ledgers) (current : StoredGroup) : Change → Option KeyPair → Prop
  | .added .., pair => pair ≠ none ∧ ledgers.keys.latest current.id = .ok pair
  | .removed _, pair | .renamed _, pair | .unchanged, pair => pair = none

/-- **A change without objection** is let pass. -/
theorem exec_vet_of_none (hsound : ledgers.Sound) {current : StoredGroup} (group : Identifier)
    (name : String) {members : List Identifier} (activeAt : Int64) {change : Change}
    (h : objection config ledgers current members change = none) :
    ∃ pair, Vetted ledgers current change pair ∧
      (vet (Ledgers.backend environment) config current
          (current.edited group name members activeAt) change).exec ⟨r, ⟨ledgers, e⟩⟩ =
        (.ok pair, ⟨r, ⟨ledgers, e⟩⟩) := by
  cases change with
  | removed ids =>
    unfold objection at h
    dsimp only at h
    by_cases hself : config.account ∈ ids
    · rw [if_pos hself] at h
      cases h
    rw [if_neg hself] at h
    by_cases hprimary : (∃ primary ∈ current.admins.head?, primary ∈ ids) ∧ members ≠ []
    · rw [if_pos hprimary] at h
      cases h
    refine ⟨none, rfl, ?_⟩
    unfold vet
    dsimp only
    rw [if_neg hself, if_neg fun hyes => hprimary (removesPrimary_iff.mp hyes)]
    rfl
  | added ids withHistory =>
    rcases hsound.latest current.id with ⟨_, hlatest⟩ | ⟨pair, _, hlatest⟩
    · unfold objection at h
      rw [hlatest] at h
      cases h
    · refine ⟨some pair, ⟨nofun, hlatest⟩, ?_⟩
      unfold vet
      dsimp only
      rw [Act.exec_bind_of_ok (Ledgers.exec_currentPair environment r ledgers e hlatest)]
      rfl
  | renamed newName => exact ⟨none, rfl, rfl⟩
  | unchanged => exact ⟨none, rfl, rfl⟩

/-! ## Writing -/

/-- **A snapshot is written**, and its group is committed. -/
theorem exec_upsert (snapshot : GroupSnapshot)
    (hid : (ledgers.stateOf snapshot).id = snapshot.id) :
    (upsert (Ledgers.backend environment) snapshot).exec ⟨r, ⟨ledgers, e⟩⟩ =
      (.ok (ledgers.stateOf snapshot), ⟨r, ⟨ledgers.upserted snapshot, e⟩⟩) := by
  unfold upsert
  rw [Act.exec_bind_of_ok (Ledgers.exec_loadGroup environment r ledgers e _),
    Act.exec_bind_of_ok (Ledgers.exec_saveGroup environment r ledgers e _),
    Act.exec_bind_of_ok (Ledgers.exec_commit environment r _ e
      (GroupLedger.get?_put_self ledgers.groups hid))]
  rfl

/-- **The roster of an edited group is written**, and the group is committed. -/
theorem exec_upsert_edited {current : StoredGroup} {group : Identifier} (name : String)
    (members : List Identifier) (activeAt : Int64)
    (hstored : ledgers.groups.get? group = some current) (hid : current.id = group) :
    (upsert (Ledgers.backend environment)
        (current.edited group name members activeAt)).exec ⟨r, ⟨ledgers, e⟩⟩ =
      (.ok (current.updated (current.edited group name members activeAt)),
        ⟨r, ⟨ledgers.written current group name members activeAt, e⟩⟩) := by
  have hstate : ledgers.stateOf (current.edited group name members activeAt) =
      current.updated (current.edited group name members activeAt) := by
    unfold Ledgers.stateOf
    rw [show (current.edited group name members activeAt).id = group from rfl, hstored]
    rfl
  rw [exec_upsert environment r e _ (hstate ▸ hid), Ledgers.upserted, hstate]
  rfl

/-! ## The way up to the announcement -/

variable {group : Identifier} {name : String} {members : List Identifier}

/-- **A refused edit changes nothing** and sends nothing. -/
theorem exec_edit_of_refusal {error : ServiceError}
    (h : refusal config ledgers group name members = some error) :
    ∃ e', environment.Quiet e e' ∧
      (edit (Ledgers.backend environment) config group name members).exec ⟨r, ⟨ledgers, e⟩⟩ =
        (.error error, ⟨r, ⟨ledgers, e'⟩⟩) := by
  unfold refusal at h
  unfold edit
  by_cases hkeyed : group.isKeyed = true
  · rw [if_pos hkeyed] at h ⊢
    cases h
    exact ⟨e, .refl e, rfl⟩
  rw [if_neg hkeyed] at h ⊢
  rw [Act.exec_bind_of_ok (Ledgers.exec_loadGroup environment r ledgers e group)]
  cases hstored : ledgers.groups.get? group with
  | none =>
    rw [hstored] at h
    cases h
    exact ⟨e, .refl e, rfl⟩
  | some current =>
    rw [hstored] at h
    dsimp only at h ⊢
    by_cases hread : current.mode = .deleteAfterRead ∧ current.timer ≠ 0
    · rw [if_pos hread] at h
      cases h
      rw [if_pos (ExpirationKind.ofSettings_eq_deleteAfterRead.mpr hread)]
      exact ⟨e, .refl e, rfl⟩
    · -- only the clock is read before the change is vetted
      rw [if_neg hread] at h
      rw [if_neg fun hyes => hread (ExpirationKind.ofSettings_eq_deleteAfterRead.mp hyes),
        Act.exec_bind_of_ok (Ledgers.exec_now environment r ledgers e)]
      refine ⟨_, (Environment.Quiet.refl e).now, ?_⟩
      exact Act.exec_bind_of_error (exec_vet_of_objection environment r _ h)

/-- What is known of an edit that is not refused. -/
structure Allowed (config : Config) (ledgers : Ledgers) (group : Identifier)
    (current : StoredGroup) (name : String) (members : List Identifier) : Prop where
  stored : ledgers.groups.get? group = some current
  notKeyed : group.isKeyed = false
  notRead : ¬(current.mode = .deleteAfterRead ∧ current.timer ≠ 0)
  noObjection : objection config ledgers current members (current.changeOf name members) = none

/-- An edit that is not refused is allowed for the group that is stored. -/
theorem refusal_eq_none_iff :
    refusal config ledgers group name members = none ↔
      ∃ current, Allowed config ledgers group current name members := by
  unfold refusal
  constructor
  · intro h
    by_cases hkeyed : group.isKeyed = true
    · rw [if_pos hkeyed] at h
      cases h
    rw [if_neg hkeyed] at h
    cases hstored : ledgers.groups.get? group with
    | none =>
      rw [hstored] at h
      cases h
    | some current =>
      rw [hstored] at h
      dsimp only at h
      by_cases hread : current.mode = .deleteAfterRead ∧ current.timer ≠ 0
      · rw [if_pos hread] at h
        cases h
      · rw [if_neg hread] at h
        exact ⟨current, hstored, Bool.eq_false_iff.mpr hkeyed, hread, h⟩
  · rintro ⟨current, hstored, hkeyed, hread, h⟩
    rw [hkeyed, hstored]
    dsimp only
    rw [if_neg Bool.false_ne_true, if_neg hread]
    exact h

/-- **An edit that is not refused** writes the roster and goes on to the
announcement. -/
theorem exec_edit_of_allowed (hsound : ledgers.Sound) {current : StoredGroup}
    (h : Allowed config ledgers group current name members) :
    ∃ pair, Vetted ledgers current (current.changeOf name members) pair ∧
      (edit (Ledgers.backend environment) config group name members).exec ⟨r, ⟨ledgers, e⟩⟩ =
        (publish (Ledgers.backend environment) config current
          (current.edited group name members (environment.now e).1)
          (current.changeOf name members) pair).exec
            ⟨r, ⟨ledgers.written current group name members (environment.now e).1,
              (environment.now e).2⟩⟩ := by
  obtain ⟨pair, hpair, hvet⟩ := exec_vet_of_none environment r (environment.now e).2 hsound
    group name (environment.now e).1 h.noObjection
  refine ⟨pair, hpair, ?_⟩
  unfold edit
  rw [h.notKeyed, if_neg Bool.false_ne_true,
    Act.exec_bind_of_ok (Ledgers.exec_loadGroup environment r ledgers e group), h.stored]
  dsimp only
  rw [if_neg fun hyes => h.notRead (ExpirationKind.ofSettings_eq_deleteAfterRead.mp hyes),
    Act.exec_bind_of_ok (Ledgers.exec_now environment r ledgers e)]
  dsimp only [StoredGroup.between_edited]
  rw [Act.exec_bind_of_ok hvet,
    Act.exec_bind_of_ok (exec_upsert_edited environment r _ name members _ h.stored
      (hsound.filed h.stored))]

end Service

end SealedGroup
