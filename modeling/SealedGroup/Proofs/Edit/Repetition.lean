import SealedGroup.Proofs.Edit.Announcement
import SealedGroup.Proofs.Edit.Classes

/-!
# Making an edit twice

An edit stores what it is given: the name, the members, and of the zombies those that are still
members. So a group that was just edited holds nobody else, and whoever edits it in the same way
again finds nothing to change, in whatever order the members are listed then. The second edit
writes the group once more and commits it, and that is all (`Service.edit_again_is_unchanged`).

## Between the two edits

The second edit may be made at another time, over another transport, and with another registry:
nothing of what it does depends on them but the time of activity that it writes. What it depends
on is what the first one left, `StoredGroup.LeftBy`, and that the first one was not refused. Of
the reasons for a refusal none can have come up meanwhile (`Allowed.repeated`). The settings of
the group are untouched, and there is no change to object to.

The rotation that follows a removal does not matter either, though it comes between the two
edits and may have stored a key. It concerns the pairs of the group, and whether a group is
changed is told from its name and from whom it holds.

An edit that was made again is not quite as if it had not been made: the group has a new time of
activity, by which it also counts as left or not (`StoredGroup.touched`), and its counts are
higher.
-/

namespace SealedGroup

variable {ε : Type} {members again : List Identifier}

/-- Lists of the same members make one roster. -/
theorem Roster.ofList_congr (h : ∀ id, id ∈ again ↔ id ∈ members) :
    ofList again = ofList members :=
  ext fun id => by rw [mem_ofList, mem_ofList, h id]

namespace StoredGroup

/-- **The group was left as an edit leaves it**: with the name and the members that were
given, and without zombies of any other name. -/
structure LeftBy (state : StoredGroup) (name : String) (given : List Identifier) : Prop where
  name_eq : state.name = name
  members_eq : state.members = Roster.ofList given
  zombies_given : ∀ id ∈ state.zombies, id ∈ given

/-- An edit keeps those zombies that are still members. -/
theorem zombies_updated_edited (current : StoredGroup) (group : Identifier) (name : String)
    (members : List Identifier) (activeAt : Int64) :
    (current.updated (current.edited group name members activeAt)).zombies =
      current.zombies.intersection (Roster.ofList members) :=
  Roster.ofList_toList _

/-- An edit leaves the group so. -/
theorem leftBy_updated_edited (current : StoredGroup) (group : Identifier) (name : String)
    (members : List Identifier) (activeAt : Int64) :
    (current.updated (current.edited group name members activeAt)).LeftBy name members where
  name_eq := rfl
  members_eq := current.members_updated_edited group name members activeAt
  zombies_given := fun id hid => by
    rw [zombies_updated_edited, Roster.mem_intersection, Roster.mem_ofList] at hid
    exact hid.2

variable {state : StoredGroup} {name : String}

/-- Whoever is present in such a group was given as a member. -/
theorem LeftBy.mem_present (h : state.LeftBy name members) {id : Identifier} :
    id ∈ Change.present state ↔ id ∈ members := by
  rw [Change.mem_present, h.members_eq, Roster.mem_ofList]
  exact or_iff_left_of_imp (h.zombies_given id)

/-- **The same edit changes nothing.** -/
theorem LeftBy.changeOf (h : state.LeftBy name members) (hagain : ∀ id, id ∈ again ↔ id ∈ members) :
    state.changeOf name again = .unchanged := by
  rcases state.changeOf_cases name again with ⟨hname, _⟩ | ⟨_, ids, hne, _, hids⟩ |
    ⟨_, _, ids, hne, _, hids⟩ | ⟨_, hchange, _, _⟩
  · exact absurd h.name_eq.symm hname
  · obtain ⟨id, hid⟩ := List.exists_mem_of_ne_nil ids hne
    obtain ⟨hgiven, hnot, _⟩ := (hids id).mp hid
    exact absurd (h.mem_present.mpr ((hagain id).mp hgiven)) hnot
  · obtain ⟨id, hid⟩ := List.exists_mem_of_ne_nil ids hne
    obtain ⟨hpresent, hnot, _⟩ := (hids id).mp hid
    exact absurd ((hagain id).mpr (h.mem_present.mp hpresent)) hnot
  · exact hchange

/-- The group with its activity marked at a time; at time zero it counts as left. -/
def touched (state : StoredGroup) (activeAt : Int64) : StoredGroup :=
  { state with activeAt := activeAt, left := activeAt == 0 }

/-- **The same edit marks the activity of the group**, and writes all else as it is. -/
theorem LeftBy.updated_edited (h : state.LeftBy name members)
    (hagain : ∀ id, id ∈ again ↔ id ∈ members) (group : Identifier) (activeAt : Int64) :
    state.updated (state.edited group name again activeAt) = state.touched activeAt := by
  have hmembers := state.members_updated_edited group name again activeAt
  have hzombies := state.zombies_updated_edited group name again activeAt
  have hadmins := state.admins_updated_edited group name again activeAt
  have hkept : state.zombies.intersection (Roster.ofList again) = state.zombies := by
    refine Roster.ext fun id => ?_
    rw [Roster.mem_intersection, Roster.mem_ofList, hagain]
    exact and_iff_left_of_imp (h.zombies_given id)
  rw [Roster.ofList_congr hagain, ← h.members_eq] at hmembers
  rw [hkept] at hzombies
  -- what the snapshot decides is what is stored; the rest is not touched at all
  unfold updated touched at *
  dsimp only at hmembers hzombies hadmins
  rw [hmembers, hzombies, hadmins, h.name_eq]
  rfl

end StoredGroup

namespace Service

variable {config : Config} {ledgers after : Ledgers} {group : Identifier} {name : String}
  {current : StoredGroup}

/-- **An edit that was allowed is allowed again**: the conversation mode and the timer are what
they were, and a change that is none meets no objection. -/
theorem Allowed.repeated (h : Allowed config ledgers group current name members)
    (hid : current.id = group) (hagain : ∀ id, id ∈ again ↔ id ∈ members) {activeAt : Int64}
    (hafter : after.groups.get? group =
      (ledgers.written current group name members activeAt).groups.get? group) :
    Allowed config after group (current.updated (current.edited group name members activeAt))
      name again where
  stored := hafter.trans (ledgers.get?_written hid)
  notKeyed := h.notKeyed
  notRead := h.notRead
  noObjection := by
    rw [(current.leftBy_updated_edited group name members activeAt).changeOf hagain]
    rfl

variable (environment : Environment ε) (r : InFlight) (e : ε)

/-- **An edit that changes nothing** writes the group and commits it twice, once with the roster
and once in place of an announcement. -/
theorem exec_edit_of_unchanged (hsound : ledgers.Sound)
    (h : Allowed config ledgers group current name members)
    (hchange : current.changeOf name members = .unchanged) :
    (edit (Ledgers.backend environment) config group name members).exec ⟨r, ⟨ledgers, e⟩⟩ =
      let written := ledgers.written current group name members (environment.now e).1
      (.ok ⟨.unchanged, none, [], none⟩,
        ⟨r, ⟨{ written with groups := written.groups.committed group },
          (environment.now e).2⟩⟩) := by
  obtain ⟨pair, _, hedit⟩ := exec_edit_of_allowed environment r e hsound h
  rw [hedit, hchange]
  unfold publish
  rw [show Change.unchanged.announcement? = none from rfl]
  dsimp only
  rw [show (current.edited group name members (environment.now e).1).id = group from rfl,
    Act.exec_bind_of_ok (Ledgers.exec_commit environment r _ _
      (ledgers.get?_written (hsound.filed h.stored)))]
  rfl

/-- **Making an edit again does nothing.** Whenever an edit gives a report, the same edit made
next, with the same members in any order, reports no change, no notice, no sends and no
rotation, at whatever time and over whatever transport it is made. Nothing is sent, no secret
is drawn, the registry, the keys and the notices stay, and of the groups just this one has its
activity marked. -/
theorem edit_again_is_unchanged {δ : Type} (later : Environment δ) (hledgers : ledgers.Reachable)
    {report : EditReport} {world : World (Local ε)}
    (hfirst : (edit (Ledgers.backend environment) config group name members).exec
      ⟨r, ⟨ledgers, e⟩⟩ = (.ok report, world))
    (hagain : ∀ id, id ∈ again ↔ id ∈ members) (r' : InFlight) (e' : Recorded δ) :
    ∃ after, (edit (Ledgers.backend later.recorded) config group name again).exec
        ⟨r', ⟨world.outside.ledgers, e'⟩⟩ = (.ok ⟨.unchanged, none, [], none⟩, after) ∧
      after.outside.environment.sends = e'.sends ∧
      after.outside.environment.secrets = e'.secrets ∧
      after.inFlight = r' ∧
      after.outside.ledgers.keys = world.outside.ledgers.keys ∧
      after.outside.ledgers.groups.log = world.outside.ledgers.groups.log ∧
      (∃ state, world.outside.ledgers.groups.get? group = some state ∧
        after.outside.ledgers.groups.get? group =
          some (state.touched (later.recorded.now e').1)) ∧
      ∀ other ≠ group, after.outside.ledgers.groups.get? other =
        world.outside.ledgers.groups.get? other := by
  obtain ⟨current, hallowed, _, hgroups⟩ :=
    allowed_of_exec_edit environment config hledgers.sound hfirst
  have hid := hledgers.sound.filed hallowed.stored
  have hafter := (hledgers.of_exec_edit hfirst).sound
  -- the second edit finds the group as the first one left it
  have hleft := current.leftBy_updated_edited group name members (environment.now e).1
  have hallowed' := hallowed.repeated hid hagain (hgroups group)
  have hsecond := exec_edit_of_unchanged later.recorded r' e' hafter hallowed'
    (hleft.changeOf hagain)
  refine ⟨_, hsecond, rfl, rfl, rfl, rfl, rfl, ⟨_, hallowed'.stored, ?_⟩, fun other hother => ?_⟩
  · rw [← hleft.updated_edited hagain group]
    exact Ledgers.get?_written _ (hafter.filed hallowed'.stored)
  · exact Ledgers.get?_written_of_ne _ (hafter.filed hallowed'.stored) hother

/-- Whoever removes the only other member, with the key changed after it, and then does so again
with themselves listed twice, changes nothing the second time. -/
theorem edit_again_is_unchanged_of_removal :
    Ledgers.sampleWithKey.Reachable ∧ ∃ report world,
      (edit (Ledgers.backend Environment.still) Config.sample StoredGroup.sample.id "friends"
        [Config.sample.account]).exec ⟨InFlight.empty, ⟨Ledgers.sampleWithKey, ()⟩⟩ =
          (.ok report, world) ∧
      (∀ id, id ∈ [Config.sample.account, Config.sample.account] ↔
        id ∈ [Config.sample.account]) ∧
      ∃ after, (edit (Ledgers.backend Environment.still.recorded) Config.sample
          StoredGroup.sample.id "friends" [Config.sample.account, Config.sample.account]).exec
            ⟨world.inFlight, ⟨world.outside.ledgers, Recorded.start ()⟩⟩ =
          (.ok ⟨.unchanged, none, [], none⟩, after) ∧
        after.outside.environment.sends = [] := by
  have hagain : ∀ id, id ∈ [Config.sample.account, Config.sample.account] ↔
      id ∈ [Config.sample.account] := fun id => by
    rw [List.mem_cons, or_iff_right_of_imp fun h => List.mem_singleton.mpr h]
  obtain ⟨current, hallowed⟩ := refusal_eq_none_iff.mp refusal_sampleWithKey
  obtain ⟨report, world, hfirst, _⟩ := exec_edit_ok Environment.still Config.sample
    (r := InFlight.empty) (e := ()) Ledgers.sampleWithKey_reachable.sound hallowed
  obtain ⟨after, hsecond, hsends, _⟩ := edit_again_is_unchanged Environment.still
    InFlight.empty () Environment.still Ledgers.sampleWithKey_reachable hfirst hagain world.inFlight
    (Recorded.start ())
  exact ⟨Ledgers.sampleWithKey_reachable, report, world, hfirst, hagain, after, hsecond, hsends⟩

end Service

end SealedGroup
