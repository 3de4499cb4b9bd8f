import SealedGroup.Proofs.Edit.Independence
import SealedGroup.Proofs.Edit.Repetition

/-!
# What an edit stores

An edit that gives a report wrote its group once, before anything was recorded or sent. What it
wrote comes from the group that was stored before, from what the edit was given, and from one
reading of the clock (`StoredGroup.Edited`), and nothing that follows changes it: not the
notice, not the messages and their answers, and not the rotation after a removal, however that
ends. So the group is stored so in the end, with one write more and at least one commit more
(`Service.edit_stores_what_is_given`).

`StoredGroup.Edited` is complete: it has a clause for each field of a stored group, and so two
groups that an edit leaves in the same way are one. The members and the name are those that were
given, the zombies those that are still members, and the administrators and the settings those
that were stored. The time of activity is the reading of the clock, and a group that is edited
at time zero counts as left.

## Counting writes and commits

The ledger counts what is done to it. An edit writes its group once and commits it with that;
every step afterwards may commit, and none writes. A removal that is followed by a rotation
commits the group once more than one that is not, which is why the number of commits is bounded
from below. No commit is taken back, so the bound holds of any edit that gives a report.
-/

namespace SealedGroup

variable {ε : Type}

/-- **The group as an edit leaves it**: with the name and the members that it was given, with
the zombies that are still members, marked as active at the reading of the clock, and in all
else as it was. -/
structure StoredGroup.Edited (before : StoredGroup) (name : String) (members : List Identifier)
    (reading : Int64) (state : StoredGroup) : Prop where
  id_eq : state.id = before.id
  name_eq : state.name = name
  mem_members : ∀ id, id ∈ state.members ↔ id ∈ members
  mem_zombies : ∀ id, id ∈ state.zombies ↔ id ∈ before.zombies ∧ id ∈ members
  admins_eq : state.admins = before.admins
  mode_eq : state.mode = before.mode
  timer_eq : state.timer = before.timer
  activeAt_eq : state.activeAt = reading
  left_iff : state.left = true ↔ reading = 0

/-- What an edit writes is edited so. -/
theorem StoredGroup.edited_updated_edited (before : StoredGroup) (group : Identifier)
    (name : String) (members : List Identifier) (reading : Int64) :
    before.Edited name members reading
      (before.updated (before.edited group name members reading)) where
  id_eq := rfl
  name_eq := rfl
  mem_members := fun id => by rw [members_updated_edited, Roster.mem_ofList]
  mem_zombies := fun id => by
    rw [zombies_updated_edited, Roster.mem_intersection, Roster.mem_ofList]
  admins_eq := before.admins_updated_edited group name members reading
  mode_eq := rfl
  timer_eq := rfl
  activeAt_eq := rfl
  left_iff := beq_iff_eq

namespace Ledgers

/-- **No group is written** but by writing one, and no commit is taken back. -/
theorem keeps_counts (environment : Environment ε) :
    (backend environment).Keeps fun s t =>
      t.ledgers.groups.writes = s.ledgers.groups.writes ∧
      ∀ id, s.ledgers.groups.commitsOf id ≤ t.ledgers.groups.commitsOf id where
  refl := fun _ => ⟨rfl, fun _ => le_rfl⟩
  trans := fun h h' => ⟨h'.1.trans h.1, fun id => (h.2 id).trans (h'.2 id)⟩
  loadGroup := fun _ _ => ⟨rfl, fun _ => le_rfl⟩
  commit := fun id s => by
    cases hcommit : s.ledgers.groups.commit id with
    | error error =>
      rw [commit_of_error environment hcommit]
      exact ⟨rfl, fun _ => le_rfl⟩
    | ok groups =>
      rw [commit_of_ok environment hcommit]
      refine ⟨GroupLedger.writes_of_commit hcommit, fun other => ?_⟩
      show s.ledgers.groups.commitsOf other ≤ groups.commitsOf other
      rw [GroupLedger.commitsOf_of_commit hcommit]
      split
      · next heq =>
        rw [heq]
        exact Nat.le_succ _
      · exact le_rfl
  appendNotice := fun _ _ => ⟨rfl, fun _ => le_rfl⟩
  currentPair := fun _ _ => ⟨rfl, fun _ => le_rfl⟩
  appendPair := fun _ _ _ => ⟨rfl, fun _ => le_rfl⟩
  now := fun _ => ⟨rfl, fun _ => le_rfl⟩
  drawUuid := fun _ => ⟨rfl, fun _ => le_rfl⟩
  drawSecret := fun _ => ⟨rfl, fun _ => le_rfl⟩
  drawCoins := fun _ => ⟨rfl, fun _ => le_rfl⟩
  send := fun _ _ => ⟨rfl, fun _ => le_rfl⟩

/-- The roster is written once, and committed. -/
theorem counts_written (ledgers : Ledgers) (current : StoredGroup) (group : Identifier)
    (name : String) (members : List Identifier) (activeAt : Int64) :
    let written := ledgers.written current group name members activeAt
    written.groups.writes = ledgers.groups.writes + 1 ∧
      written.groups.commitsOf group = ledgers.groups.commitsOf group + 1 := by
  refine ⟨rfl, ?_⟩
  show (GroupLedger.committed _ group).commitsOf group = _
  rw [GroupLedger.commitsOf_committed, if_pos rfl]
  rfl

end Ledgers

namespace Service

variable {environment : Environment ε} {config : Config} {ledgers : Ledgers} {group : Identifier}
  {name : String} {members : List Identifier} {r : InFlight} {e : ε} {report : EditReport}
  {after : World (Local ε)}

/-- **What an edit stores.** Whenever an edit gives a report, whatever was sent and however the
rotation ended, the group is stored with the name and the members that were given, with those of
its zombies that are still members, with its administrators and its expiration as they were, and
as active when the edit read the clock. The group was written just once, and committed. -/
theorem edit_stores_what_is_given (hledgers : ledgers.Reachable)
    (hexec : (edit (Ledgers.backend environment) config group name members).exec
      ⟨r, ⟨ledgers, e⟩⟩ = (.ok report, after)) :
    ∃ before state, ledgers.groups.get? group = some before ∧
      after.outside.ledgers.groups.get? group = some state ∧
      before.Edited name members (environment.now e).1 state ∧
      after.outside.ledgers.groups.writes = ledgers.groups.writes + 1 ∧
      ledgers.groups.commitsOf group + 1 ≤ after.outside.ledgers.groups.commitsOf group := by
  obtain ⟨before, hallowed, -, hgroups⟩ :=
    allowed_of_exec_edit environment config hledgers.sound hexec
  have hid := hledgers.sound.filed hallowed.stored
  obtain ⟨pair, -, hedit⟩ := exec_edit_of_allowed environment r e hledgers.sound hallowed
  have hcounts := (Ledgers.keeps_counts environment).publish config before
    (before.edited group name members (environment.now e).1) (before.changeOf name members) pair
    ⟨r, ⟨ledgers.written before group name members (environment.now e).1, (environment.now e).2⟩⟩
  rw [← hedit, hexec] at hcounts
  obtain ⟨hwrites, hcommits⟩ := hcounts
  obtain ⟨hwritten, hcommitted⟩ :=
    ledgers.counts_written before group name members (environment.now e).1
  exact ⟨before, _, hallowed.stored, (hgroups group).trans (ledgers.get?_written hid),
    before.edited_updated_edited group name members _, hwrites.trans hwritten,
    hcommitted.symm.trans_le (hcommits group)⟩

/-- Whoever removes the only other member stores a group of one. -/
theorem edit_stores_what_is_given_of_removal :
    ∃ report after before state,
      (edit (Ledgers.backend Environment.still) Config.sample StoredGroup.sample.id "friends"
        [Config.sample.account]).exec ⟨InFlight.empty, ⟨Ledgers.sampleWithKey, ()⟩⟩ =
          (.ok report, after) ∧
      Ledgers.sampleWithKey.groups.get? StoredGroup.sample.id = some before ∧
      after.outside.ledgers.groups.get? StoredGroup.sample.id = some state ∧
      before.Edited "friends" [Config.sample.account] 0 state := by
  obtain ⟨current, hallowed⟩ := refusal_eq_none_iff.mp refusal_sampleWithKey
  obtain ⟨report, after, hexec, -⟩ := exec_edit_ok Environment.still Config.sample
    (r := InFlight.empty) (e := ()) Ledgers.sampleWithKey_reachable.sound hallowed
  obtain ⟨before, state, hbefore, hstate, hedited, -⟩ :=
    edit_stores_what_is_given Ledgers.sampleWithKey_reachable hexec
  exact ⟨report, after, before, state, hexec, hbefore, hstate, hedited⟩

end Service

end SealedGroup
