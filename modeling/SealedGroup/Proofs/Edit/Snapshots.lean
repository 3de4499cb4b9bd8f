import SealedGroup.Proofs.Edit.Classification
import SealedGroup.Proofs.Edit.Independence
import SealedGroup.Proofs.Edit.Silence

/-!
# What a snapshot stores

A snapshot is stored as it is given, with its lists made sets, and with three exceptions: the
administrators stay if it names none, and how messages expire is never taken from it
(`StoredGroup.Follows`). This says all about the stored state, so that there is one such state;
and a state that follows a snapshot still does if it was stored before.

So it makes no difference whether a snapshot is written once or again, except to the counts; and
what is stored differs from the snapshot in nothing that would be announced
(`Service.upsert_stores_snapshot`).

## Groups that are new

A group that was not stored before is created, and then what is not taken from the snapshot is
that of a new group: it has no expiration, and if the snapshot names no administrators, none. So
the condition on the stored state is given the state before as an option, and the two cases are
one statement.

## No difference

Why a stored snapshot differs in nothing from itself is seen best by sets. The classification
compares names and everyone who is present, members and zombies together; a state that follows a
snapshot has its name, and the same are present in both (`StoredGroup.Follows.everyone_eq`). It
does not matter for this that someone may be listed twice, or both as a member and as a zombie,
nor that lists have an order and sets have none.

A write concerns one group and is committed with it (`Ledgers.WrittenOnce`); the other groups,
the notices and the keys are untouched.
-/

namespace SealedGroup

/-- Nobody joins who was there. -/
theorem Identifier.joining_self (all : Set Identifier) : joining all all = ∅ := by
  unfold joining
  rw [Set.sdiff_self]
  exact Set.sep_empty _

/-- **The state follows a snapshot** of a group that was stored so before, if it was. -/
structure StoredGroup.Follows (state : StoredGroup) (snapshot : GroupSnapshot)
    (before : Option StoredGroup) : Prop where
  id_eq : state.id = snapshot.id
  name_eq : state.name = snapshot.name
  mem_members : ∀ id, id ∈ state.members ↔ id ∈ snapshot.members
  mem_zombies : ∀ id, id ∈ state.zombies ↔ id ∈ snapshot.zombies
  activeAt_eq : state.activeAt = snapshot.activeAt
  left_iff : state.left = true ↔ snapshot.activeAt = 0
  admins_named : snapshot.admins ≠ [] → state.admins = snapshot.admins
  admins_kept : snapshot.admins = [] → state.admins = before.elim [] StoredGroup.admins
  mode_kept : state.mode = before.elim .off StoredGroup.mode
  timer_kept : state.timer = before.elim 0 StoredGroup.timer

namespace StoredGroup.Follows

variable {state state' : StoredGroup} {snapshot : GroupSnapshot} {before : Option StoredGroup}

/-- **One state follows a snapshot.** -/
theorem unique (h : state.Follows snapshot before) (h' : state'.Follows snapshot before) :
    state = state' := by
  have hmembers : state.members = state'.members :=
    Roster.ext fun id => (h.mem_members id).trans (h'.mem_members id).symm
  have hzombies : state.zombies = state'.zombies :=
    Roster.ext fun id => (h.mem_zombies id).trans (h'.mem_zombies id).symm
  have hleft : state.left = state'.left :=
    Bool.eq_iff_iff.mpr (h.left_iff.trans h'.left_iff.symm)
  have hadmins : state.admins = state'.admins := by
    by_cases hnamed : snapshot.admins = []
    · rw [h.admins_kept hnamed, h'.admins_kept hnamed]
    · rw [h.admins_named hnamed, h'.admins_named hnamed]
  have hid := h.id_eq.trans h'.id_eq.symm
  have hname := h.name_eq.trans h'.name_eq.symm
  have hactive := h.activeAt_eq.trans h'.activeAt_eq.symm
  have hmode := h.mode_kept.trans h'.mode_kept.symm
  have htimer := h.timer_kept.trans h'.timer_kept.symm
  cases state
  cases state'
  simp_all only

/-- **A state that follows a snapshot** follows it again. -/
theorem again (h : state.Follows snapshot before) : state.Follows snapshot (some state) :=
  { h with
    admins_kept := fun _ => rfl
    mode_kept := rfl
    timer_kept := rfl }

/-- The same are present in the state and in the snapshot. -/
theorem everyone_eq (h : state.Follows snapshot before) : state.everyone = snapshot.everyone :=
  Set.ext fun id => or_congr (h.mem_members id) (h.mem_zombies id)

/-- **The state and the snapshot differ in nothing** that is announced. -/
theorem between_eq (h : state.Follows snapshot before) :
    Change.between state snapshot = .unchanged := by
  have hnone := Identifier.joining_self snapshot.everyone
  refine (Change.classifies_between state snapshot).unique (.unchanged h.name_eq.symm ?_ ?_)
  · rw [h.everyone_eq, hnone]
  · rw [h.everyone_eq, hnone]

end StoredGroup.Follows

namespace Ledgers

/-- **The ledgers after one write of a group**, which is committed with it: the group is stored
with the given state, and nothing else is changed. -/
structure WrittenOnce (ledgers : Ledgers) (group : Identifier) (state : StoredGroup)
    (after : Ledgers) : Prop where
  stored : after.groups.get? group = some state
  others : ∀ other ≠ group, after.groups.get? other = ledgers.groups.get? other
  writes : after.groups.writes = ledgers.groups.writes + 1
  commits : after.groups.commitsOf group = ledgers.groups.commitsOf group + 1
  commits_others : ∀ other ≠ group,
    after.groups.commitsOf other = ledgers.groups.commitsOf other
  log : after.groups.log = ledgers.groups.log
  keys : after.keys = ledgers.keys

variable {ledgers : Ledgers} (snapshot : GroupSnapshot)

/-- **The state that a snapshot makes** follows it. -/
theorem follows_stateOf (hsound : ledgers.Sound) :
    (ledgers.stateOf snapshot).Follows snapshot (ledgers.groups.get? snapshot.id) := by
  have hid := stateOf_id hsound snapshot
  unfold stateOf at hid ⊢
  generalize ledgers.groups.get? snapshot.id = before at hid ⊢
  refine ⟨hid, rfl, fun _ => Roster.mem_ofList, fun _ => Roster.mem_ofList, rfl, beq_iff_eq,
    fun hnamed => ?_, fun hnamed => ?_, ?_, ?_⟩
  · exact if_neg fun hempty => hnamed (List.isEmpty_iff.mp hempty)
  · refine (if_pos (List.isEmpty_iff.mpr hnamed)).trans ?_
    cases before <;> rfl
  · cases before <;> rfl
  · cases before <;> rfl

/-- **A snapshot is one write** of its group. -/
theorem writtenOnce_upserted (hsound : ledgers.Sound) :
    ledgers.WrittenOnce snapshot.id (ledgers.stateOf snapshot) (ledgers.upserted snapshot) where
  stored := by rw [get?_upserted hsound, if_pos rfl]
  others := fun other hother => by rw [get?_upserted hsound, if_neg hother.symm]
  writes := rfl
  commits := by
    show (GroupLedger.committed _ snapshot.id).commitsOf snapshot.id = _
    rw [GroupLedger.commitsOf_committed, if_pos rfl]
    rfl
  commits_others := fun other hother => by
    show (GroupLedger.committed _ snapshot.id).commitsOf other = _
    rw [GroupLedger.commitsOf_committed, if_neg hother]
    rfl
  log := rfl
  keys := rfl

end Ledgers

namespace Service

variable {ε : Type} {environment : Environment ε} {ledgers : Ledgers} {snapshot : GroupSnapshot}
  {r : InFlight} {e : ε} {result : Except ServiceError StoredGroup} {after : World (Local ε)}

/-- **What becomes of a snapshot** that is written, once more or for the first time. -/
theorem exec_upsert_follows (hledgers : ledgers.Reachable)
    (hexec : (upsert (Ledgers.backend environment) snapshot).exec ⟨r, ⟨ledgers, e⟩⟩ =
      (result, after)) :
    ∃ state ledgers', result = .ok state ∧ after = ⟨r, ⟨ledgers', e⟩⟩ ∧ ledgers'.Reachable ∧
      state.Follows snapshot (ledgers.groups.get? snapshot.id) ∧
      ledgers.WrittenOnce snapshot.id state ledgers' := by
  have hid := Ledgers.stateOf_id hledgers.sound snapshot
  cases hexec.symm.trans (exec_upsert environment r e snapshot hid)
  exact ⟨_, _, rfl, rfl, hledgers.upserted snapshot,
    Ledgers.follows_stateOf snapshot hledgers.sound,
    Ledgers.writtenOnce_upserted snapshot hledgers.sound⟩

/-- **A snapshot is stored as it is given, and agrees with what is stored.** Writing it never
fails, whatever was stored before. It gives the state that is stored from then on: the name, the
members, the zombies and the time of activity are those of the snapshot, and so are the
administrators unless it names none; these, and how messages expire, are then those that were
stored before, if the group was. The group is written and committed once, and nothing else is
touched. The stored state does not differ from the snapshot in anything that would be announced,
and whoever writes the snapshot again stores the same state, with one more write and one more
commit. -/
theorem upsert_stores_snapshot (hledgers : ledgers.Reachable)
    (hexec : (upsert (Ledgers.backend environment) snapshot).exec ⟨r, ⟨ledgers, e⟩⟩ =
      (result, after)) :
    ∃ state, result = .ok state ∧
      state.Follows snapshot (ledgers.groups.get? snapshot.id) ∧
      ledgers.WrittenOnce snapshot.id state after.outside.ledgers ∧
      after.inFlight = r ∧ after.outside.environment = e ∧
      Change.between state snapshot = .unchanged ∧
      ∀ {δ : Type} {environment' : Environment δ} {r' : InFlight} {e' : δ}
        {result' : Except ServiceError StoredGroup} {after' : World (Local δ)},
        (upsert (Ledgers.backend environment') snapshot).exec ⟨r', ⟨after.outside.ledgers, e'⟩⟩ =
          (result', after') →
        result' = .ok state ∧
          after.outside.ledgers.WrittenOnce snapshot.id state after'.outside.ledgers ∧
          after'.inFlight = r' ∧ after'.outside.environment = e' := by
  obtain ⟨state, ledgers', rfl, rfl, hledgers', hfollows, hwritten⟩ :=
    exec_upsert_follows hledgers hexec
  refine ⟨state, rfl, hfollows, hwritten, rfl, rfl, hfollows.between_eq, fun hagain => ?_⟩
  obtain ⟨state', _, rfl, rfl, -, hfollows', hwritten'⟩ := exec_upsert_follows hledgers' hagain
  -- what was stored first is what the snapshot makes of it
  rw [hwritten.stored] at hfollows'
  obtain rfl := hfollows'.unique hfollows.again
  exact ⟨rfl, hwritten', rfl, rfl⟩

/-- A snapshot that lists someone twice, as a member and as a zombie, names no administrators
and has a timer of its own. It leaves the administrator and the timer of the group alone. -/
theorem upsert_stores_snapshot_of_overlap :
    let expiring : StoredGroup := { StoredGroup.sample with mode := .legacy, timer := 3600 }
    let ledgers : Ledgers := { Ledgers.sampleWithKey with groups := GroupLedger.empty.put expiring }
    let snapshot : GroupSnapshot :=
      { id := expiring.id
        name := "strangers"
        members := [Identifier.stranger, Identifier.sample, Identifier.stranger]
        zombies := [Identifier.stranger, Config.sample.account]
        activeAt := 0
        admins := []
        expiration := .deleteAfterRead
        timer := 7 }
    ledgers.Reachable ∧ ∃ state after,
      (upsert (Ledgers.backend Environment.still) snapshot).exec ⟨InFlight.empty, ⟨ledgers, ()⟩⟩ =
        (.ok state, after) ∧
      after.outside.ledgers.groups.get? expiring.id = some state ∧
      (∀ id, id ∈ state.zombies ↔ id ∈ [Identifier.stranger, Config.sample.account]) ∧
      state.left = true ∧ state.admins = [Config.sample.account] ∧ state.mode = .legacy ∧
      state.timer = 3600 ∧ Change.between state snapshot = .unchanged ∧
      after.outside.ledgers.groups.writes = 2 ∧
      after.outside.ledgers.keys = Ledgers.sampleWithKey.keys := by
  intro expiring ledgers snapshot
  have hledgers : ledgers.Reachable := (Ledgers.Reachable.empty.put expiring).add _ _
  have hbefore : ledgers.groups.get? snapshot.id = some expiring :=
    GroupLedger.get?_put_self _ rfl
  rcases hexec : (upsert (Ledgers.backend Environment.still) snapshot).exec
    ⟨InFlight.empty, ⟨ledgers, ()⟩⟩ with ⟨result, after⟩
  obtain ⟨state, rfl, hfollows, hwritten, -, -, hsame, -⟩ := upsert_stores_snapshot hledgers hexec
  rw [hbefore] at hfollows
  exact ⟨hledgers, state, after, rfl, hwritten.stored, hfollows.mem_zombies,
    hfollows.left_iff.mpr rfl, hfollows.admins_kept rfl, hfollows.mode_kept, hfollows.timer_kept,
    hsame, hwritten.writes, hwritten.keys⟩

end Service

end SealedGroup
