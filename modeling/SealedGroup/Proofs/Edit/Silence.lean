import SealedGroup.Proofs.Edit.Administrators
import SealedGroup.Proofs.Edit.Repetition

/-!
# Editing a group with what is stored

An edit that is given the name and the members that are stored has nothing to say, it seems. But
it drops the zombies that are not members, and whoever is dropped was present: so these
*leftovers* are removed by the edit, and the removal is announced, followed by a rotation, or
refused, as any other is (`Service.stored_edit_removes_leftover`).

What a group has left over is decided by the last call that wrote it. An edit leaves nothing,
and a snapshot leaves what it lists. `Service.stored_edit_is_silent_iff` says so of any number
of writes, and that an edit with what is stored is silent exactly if nothing is left over.

## Leftovers

Of the zombies only those count that would be announced: whoever is a member as well is not
dropped, and an identifier that is no standard one is never named by a change. With these set
aside, an edit with what is stored is a removal of what is left over, and of nobody else
(`StoredGroup.changeOf_stored`).

Such a removal is subject to the guards. If we are left over ourselves, or the primary
administrator is while there are members, the edit is refused (`Service.refusal_stored`); these
are the only reasons that what is stored can give.

## Runs of writes

A `WriteCall` is a snapshot that is written, or an edit with its result. What the last of them
left over in a group is what is left over in it (`Writes.leftovers`), because each write makes
the zombies anew and keeps none of those before.
-/

namespace SealedGroup

/-- Who is new depends on nothing but who is in the one roster and not in the other. -/
theorem Change.newcomers_congr {after before after' before' : Roster}
    (h : ∀ id, (id ∈ after ∧ id ∉ before) ↔ (id ∈ after' ∧ id ∉ before')) :
    newcomers after before = newcomers after' before' := by
  have hrosters : after.difference before = after'.difference before' :=
    Roster.ext fun id => by rw [Roster.mem_difference, Roster.mem_difference, h id]
  rw [newcomers, hrosters]
  rfl

/-! ## What is left over -/

/-- **The zombies of a snapshot** that it does not list as members, of those that are announced. -/
def GroupSnapshot.leftovers (snapshot : GroupSnapshot) : List Identifier :=
  Change.newcomers (Roster.ofList snapshot.zombies) (Roster.ofList snapshot.members)

namespace StoredGroup

/-- **The zombies of a group** that are not members of it, of those that are announced. -/
def leftovers (g : StoredGroup) : List Identifier :=
  Change.newcomers g.zombies g.members

variable {g : StoredGroup} {members : List Identifier}

theorem mem_leftovers {id : Identifier} :
    id ∈ g.leftovers ↔ id ∈ g.zombies ∧ id ∉ g.members ∧ id.isStandard = true :=
  Change.mem_newcomers

/-- A snapshot leaves what it lists. -/
theorem leftovers_updated (g : StoredGroup) (snapshot : GroupSnapshot) :
    (g.updated snapshot).leftovers = snapshot.leftovers := rfl

/-- **An edit leaves nothing.** -/
theorem leftovers_updated_edited (current : StoredGroup) (group : Identifier) (name : String)
    (members : List Identifier) (activeAt : Int64) :
    (current.updated (current.edited group name members activeAt)).leftovers = [] := by
  have hleft := current.leftBy_updated_edited group name members activeAt
  refine List.eq_nil_iff_forall_not_mem.mpr fun id hid => ?_
  obtain ⟨hzombie, hnot, _⟩ := mem_leftovers.mp hid
  rw [hleft.members_eq, Roster.mem_ofList] at hnot
  exact hnot (hleft.zombies_given id hzombie)

/-- **An edit with what is stored** removes what is left over. -/
theorem changeOf_stored (hmembers : ∀ id, id ∈ members ↔ id ∈ g.members) :
    g.changeOf g.name members =
      if g.leftovers = [] then .unchanged else .removed g.leftovers := by
  have hadded : Change.newcomers (Change.proposed (g.edited g.id g.name members 0))
      (Change.present g) = [] := by
    refine List.eq_nil_iff_forall_not_mem.mpr fun id hid => ?_
    obtain ⟨hgiven, hnot, _⟩ := Change.mem_newcomers.mp hid
    rw [Change.mem_proposed_edited, hmembers] at hgiven
    exact hnot (Change.mem_present.mpr (.inl hgiven))
  have hremoved : Change.newcomers (Change.present g)
      (Change.proposed (g.edited g.id g.name members 0)) = g.leftovers := by
    -- whoever is present and is not given is a zombie, and no member
    refine Change.newcomers_congr fun id => ?_
    rw [Change.mem_present, Change.mem_proposed_edited, hmembers]
    tauto
  unfold changeOf Change.between
  rw [if_neg fun hname => hname rfl]
  simp only [hadded, hremoved]
  cases g.leftovers <;> rfl

end StoredGroup

/-- What is left over in the group that is stored. -/
def Ledgers.leftovers (ledgers : Ledgers) (group : Identifier) : List Identifier :=
  (ledgers.groups.get? group).elim [] StoredGroup.leftovers

/-! ## Writes -/

/-- **A call that may write a group**: it is given a snapshot, or edits it. -/
inductive WriteCall where
  | upsert (snapshot : GroupSnapshot)
  | edit (call : EditCall)

namespace WriteCall

/-- What the call leaves over in a group, if it wrote it. -/
def leaves? (group : Identifier) : WriteCall → Option (List Identifier)
  | upsert snapshot => if snapshot.id = group then some snapshot.leftovers else none
  | edit call => if call.edits group then some [] else none

/-- What the last of the calls that wrote a group left over in it. -/
def lastLeft? (group : Identifier) (calls : List WriteCall) : Option (List Identifier) :=
  (calls.filterMap (leaves? group)).getLast?

theorem lastLeft?_concat (group : Identifier) (calls : List WriteCall) (call : WriteCall) :
    lastLeft? group (calls ++ [call]) = (call.leaves? group).or (lastLeft? group calls) := by
  unfold lastLeft?
  rw [List.filterMap_append]
  cases h : call.leaves? group <;> simp [h]

end WriteCall

namespace Ledgers

variable {ledgers : Ledgers}

/-- A snapshot makes a state of the group that it is for. -/
theorem stateOf_id (hsound : ledgers.Sound) (snapshot : GroupSnapshot) :
    (ledgers.stateOf snapshot).id = snapshot.id := by
  unfold stateOf
  cases hstored : ledgers.groups.get? snapshot.id with
  | none => rfl
  | some state =>
    have hid : state.id = snapshot.id := hsound.filed hstored
    exact hid

/-- What a snapshot makes of each group. -/
theorem get?_upserted (hsound : ledgers.Sound) (snapshot : GroupSnapshot) (id : Identifier) :
    (ledgers.upserted snapshot).groups.get? id =
      if snapshot.id = id then some (ledgers.stateOf snapshot) else ledgers.groups.get? id := by
  show (ledgers.groups.put (ledgers.stateOf snapshot)).get? id = _
  rw [GroupLedger.get?_put, stateOf_id hsound]
  simp only [eq_comm]

/-- Writing a snapshot is one of the operations of the ledgers. -/
theorem Reachable.upserted (h : ledgers.Reachable) (snapshot : GroupSnapshot) :
    (ledgers.upserted snapshot).Reachable := by
  have hput := GroupLedger.get?_put_self ledgers.groups (stateOf_id h.sound snapshot)
  exact (h.put (ledgers.stateOf snapshot)).commit (GroupLedger.commit_of_stored hput)

end Ledgers

namespace Service

/-- **A run of writes** over ledgers in memory. Each call is made by whomever, with the
registry that they have, in an environment of any kind. -/
inductive Writes (start : Ledgers) : List WriteCall → Ledgers → Prop where
  | nil : Writes start [] start
  | upsert {calls : List WriteCall} {ledgers : Ledgers} (h : Writes start calls ledgers)
      {ε : Type} {environment : Environment ε} {r : InFlight} {e : ε} {snapshot : GroupSnapshot}
      {result : Except ServiceError StoredGroup} {world : World (Local ε)}
      (hexec : (Service.upsert (Ledgers.backend environment) snapshot).exec ⟨r, ⟨ledgers, e⟩⟩ =
        (result, world)) :
      Writes start (calls ++ [.upsert snapshot]) world.outside.ledgers
  | edit {calls : List WriteCall} {ledgers : Ledgers} (h : Writes start calls ledgers)
      {ε : Type} {environment : Environment ε} {config : Config} {r : InFlight} {e : ε}
      {group : Identifier} {name : String} {members : List Identifier}
      {result : Except ServiceError EditReport} {world : World (Local ε)}
      (hexec : (Service.edit (Ledgers.backend environment) config group name members).exec
        ⟨r, ⟨ledgers, e⟩⟩ = (result, world)) :
      Writes start (calls ++ [.edit ⟨group, name, members, result⟩]) world.outside.ledgers

section

variable {ε : Type} {environment : Environment ε} {config : Config} {ledgers : Ledgers}
  {r : InFlight} {e : ε} (group : Identifier)

/-- **What a snapshot leaves over.** -/
theorem leftovers_of_exec_upsert (hledgers : ledgers.Reachable) {snapshot : GroupSnapshot}
    {result : Except ServiceError StoredGroup} {world : World (Local ε)}
    (hexec : (upsert (Ledgers.backend environment) snapshot).exec ⟨r, ⟨ledgers, e⟩⟩ =
      (result, world)) :
    world.outside.ledgers.Reachable ∧ world.outside.ledgers.leftovers group =
      ((WriteCall.upsert snapshot).leaves? group).getD (ledgers.leftovers group) := by
  have hsound := hledgers.sound
  cases hexec.symm.trans (exec_upsert environment r e snapshot (Ledgers.stateOf_id hsound snapshot))
  refine ⟨hledgers.upserted snapshot, ?_⟩
  unfold Ledgers.leftovers WriteCall.leaves?
  dsimp only
  rw [Ledgers.get?_upserted hsound]
  by_cases hid : snapshot.id = group
  · rw [if_pos hid, if_pos hid]
    exact StoredGroup.leftovers_updated _ snapshot
  · rw [if_neg hid, if_neg hid]
    rfl

/-- **What the call of an edit leaves over.** -/
theorem leftovers_of_exec_edit (hledgers : ledgers.Reachable) {edited : Identifier}
    {name : String} {members : List Identifier} {result : Except ServiceError EditReport}
    {world : World (Local ε)}
    (hexec : (edit (Ledgers.backend environment) config edited name members).exec
      ⟨r, ⟨ledgers, e⟩⟩ = (result, world)) :
    world.outside.ledgers.Reachable ∧ world.outside.ledgers.leftovers group =
      ((WriteCall.edit ⟨edited, name, members, result⟩).leaves? group).getD
        (ledgers.leftovers group) := by
  refine ⟨hledgers.of_exec_edit hexec, ?_⟩
  unfold WriteCall.leaves? EditCall.edits
  cases result with
  | error error =>
    obtain ⟨_, _, _, rfl⟩ := refusal_of_exec_edit environment config hledgers.sound hexec
    simp [Except.isOk, Except.toBool]
  | ok report =>
    obtain ⟨current, hallowed, _, hgroups⟩ :=
      allowed_of_exec_edit environment config hledgers.sound hexec
    have hid := hledgers.sound.filed hallowed.stored
    unfold Ledgers.leftovers
    rw [hgroups]
    by_cases hsame : edited = group
    · subst hsame
      rw [Ledgers.get?_written ledgers hid]
      have hnone := current.leftovers_updated_edited edited name members (environment.now e).1
      simpa [Except.isOk, Except.toBool] using hnone
    · rw [Ledgers.get?_written_of_ne ledgers hid (Ne.symm hsame)]
      simp [hsame]

/-- **What is left over after a run**, by induction on the calls: what the last call that wrote
the group left over. -/
theorem Writes.leftovers {start : Ledgers} {calls : List WriteCall} (hstart : start.Reachable)
    (h : Writes start calls ledgers) :
    ledgers.Reachable ∧ ledgers.leftovers group =
      (WriteCall.lastLeft? group calls).getD (start.leftovers group) := by
  induction h with
  | nil => exact ⟨hstart, rfl⟩
  | upsert _ hexec ih =>
    obtain ⟨hreachable, hleft⟩ := ih
    obtain ⟨hreachable', hleft'⟩ := leftovers_of_exec_upsert group hreachable hexec
    refine ⟨hreachable', ?_⟩
    rw [hleft', hleft, WriteCall.lastLeft?_concat, Option.getD_or]
  | edit _ hexec ih =>
    obtain ⟨hreachable, hleft⟩ := ih
    obtain ⟨hreachable', hleft'⟩ := leftovers_of_exec_edit group hreachable hexec
    refine ⟨hreachable', ?_⟩
    rw [hleft', hleft, WriteCall.lastLeft?_concat, Option.getD_or]

end

section

variable {ε : Type} {config : Config} {ledgers : Ledgers} {group : Identifier}
  {current : StoredGroup} {members : List Identifier}

/-- **When an edit with what is stored is refused**: if we are left over, or the primary
administrator is while there are members. -/
theorem refusal_stored (config : Config) (hstored : ledgers.groups.get? group = some current)
    (hkeyed : group.isKeyed = false)
    (hread : ¬(current.mode = .deleteAfterRead ∧ current.timer ≠ 0))
    (hmembers : ∀ id, id ∈ members ↔ id ∈ current.members) :
    refusal config ledgers group current.name members =
      if config.account ∈ current.leftovers then some (.preconditionFailed .selfRemoval)
      else if (∃ primary ∈ current.admins.head?, primary ∈ current.leftovers) ∧ members ≠ [] then
        some (.preconditionFailed .primaryAdminRemoval)
      else none := by
  unfold refusal
  rw [hkeyed, if_neg Bool.false_ne_true, hstored]
  dsimp only
  rw [if_neg hread, current.changeOf_stored hmembers]
  by_cases hleft : current.leftovers = []
  · rw [if_pos hleft, hleft]
    simp [objection]
  · rw [if_neg hleft]
    rfl

/-- **An edit says nothing**: it reports no change, no notice, no message and no rotation, nothing
is handed to the transport, no secret is drawn, and the registry, the keys and the notices are what
they were. -/
structure Silent (before : World (Local (Recorded ε))) (result : Except ServiceError EditReport)
    (after : World (Local (Recorded ε))) : Prop where
  report : result = .ok ⟨.unchanged, none, [], none⟩
  sends : after.outside.environment.sends = before.outside.environment.sends
  secrets : after.outside.environment.secrets = before.outside.environment.secrets
  inFlight : after.inFlight = before.inFlight
  keys : after.outside.ledgers.keys = before.outside.ledgers.keys
  notices : after.outside.ledgers.groups.log = before.outside.ledgers.groups.log

variable {environment : Environment ε} {r : InFlight} {e : Recorded ε}
  {result : Except ServiceError EditReport} {world : World (Local (Recorded ε))}

/-- **An edit that gives a report is silent** exactly if it changes nothing. -/
theorem silent_iff_unchanged (hsound : ledgers.Sound) {name : String} {report : EditReport}
    (hexec : (edit (Ledgers.backend environment.recorded) config group name members).exec
      ⟨r, ⟨ledgers, e⟩⟩ = (.ok report, world)) :
    Silent ⟨r, ⟨ledgers, e⟩⟩ (.ok report) world ↔ report.change = .unchanged := by
  constructor
  · intro h
    rw [Except.ok.inj h.report]
  · intro hunchanged
    obtain ⟨current, hallowed, hchange, _⟩ :=
      allowed_of_exec_edit environment.recorded config hsound hexec
    cases hexec.symm.trans (exec_edit_of_unchanged environment.recorded r e hsound hallowed
      (hchange.symm.trans hunchanged))
    exact ⟨rfl, rfl, rfl, rfl, rfl, rfl⟩

/-- **Whatever an edit with what is stored does**, the members and the administrators are those
that are stored. -/
theorem roster_of_stored_edit (hsound : ledgers.Sound)
    (hstored : ledgers.groups.get? group = some current)
    (hmembers : ∀ id, id ∈ members ↔ id ∈ current.members)
    (hexec : (edit (Ledgers.backend environment.recorded) config group current.name members).exec
      ⟨r, ⟨ledgers, e⟩⟩ = (result, world)) :
    ∃ after, world.outside.ledgers.groups.get? group = some after ∧
      after.members = current.members ∧ after.admins = current.admins := by
  cases result with
  | error error =>
    obtain ⟨_, _, _, rfl⟩ := refusal_of_exec_edit environment.recorded config hsound hexec
    exact ⟨current, hstored, rfl, rfl⟩
  | ok report =>
    obtain ⟨_, _, hgroups⟩ := allowed_of_stored environment.recorded config hsound hstored hexec
    refine ⟨_, (hgroups group).trans (Ledgers.get?_written ledgers (hsound.filed hstored)), ?_,
      current.admins_updated_edited group current.name members _⟩
    rw [StoredGroup.members_updated_edited]
    exact Roster.ext fun id => by rw [Roster.mem_ofList, hmembers]

/-- **An edit with what is stored is silent exactly if nothing is left over**, and what is left
over is decided by the last call that wrote the group: an edit that gave a report leaves nothing,
and a snapshot leaves the zombies that it does not list as members. If something is left over then
the edit removes it. It is refused, without any effect on the ledgers and without a message, if we
are left over, or if the primary administrator is while there are members; otherwise it reports the
removal of just what is left over. In no case are the members or the administrators changed. -/
theorem stored_edit_is_silent_iff {start : Ledgers} {calls : List WriteCall} {e : ε}
    (hstart : start.Reachable) (hwrites : Writes start calls ledgers)
    (hstored : ledgers.groups.get? group = some current) (hlegacy : current.isLegacy = true)
    (hread : ¬(current.mode = .deleteAfterRead ∧ current.timer ≠ 0))
    (hmembers : ∀ id, id ∈ members ↔ id ∈ current.members)
    (hexec : (edit (Ledgers.backend environment.recorded) config group current.name members).exec
      ⟨r, ⟨ledgers, .start e⟩⟩ = (result, world)) :
    current.leftovers = (WriteCall.lastLeft? group calls).getD (start.leftovers group) ∧
    (Silent ⟨r, ⟨ledgers, .start e⟩⟩ result world ↔ current.leftovers = []) ∧
    (∀ error, result = .error error ↔
      (if config.account ∈ current.leftovers then some (.preconditionFailed .selfRemoval)
        else if (∃ primary ∈ current.admins.head?, primary ∈ current.leftovers) ∧
            members ≠ [] then
          some (.preconditionFailed .primaryAdminRemoval)
        else none) = some error) ∧
    (∀ error, result = .error error →
      world.outside.ledgers = ledgers ∧ world.outside.environment.sends = []) ∧
    (∀ report, result = .ok report → current.leftovers ≠ [] →
      report.change = .removed current.leftovers) ∧
    ∃ after, world.outside.ledgers.groups.get? group = some after ∧
      after.members = current.members ∧ after.admins = current.admins := by
  obtain ⟨hreachable, hleft⟩ := hwrites.leftovers group hstart
  have hsound := hreachable.sound
  have hrefusal := refusal_stored config hstored (hsound.not_isKeyed hstored hlegacy) hread
    hmembers
  unfold Ledgers.leftovers at hleft
  rw [hstored] at hleft
  have hroster := roster_of_stored_edit hsound hstored hmembers hexec
  cases result with
  | error error =>
    obtain ⟨hrefused, _, hquiet, rfl⟩ :=
      refusal_of_exec_edit environment.recorded config hsound hexec
    have hnonempty : current.leftovers ≠ [] := fun hnil => by simp [hrefusal, hnil] at hrefused
    refine ⟨hleft, iff_of_false (fun h => ?_) hnonempty, fun other => ?_,
      fun _ _ => ⟨rfl, hquiet.recorded.1⟩, fun report hreport => ?_, hroster⟩
    · cases h.report
    · rw [← hrefusal, hrefused, Except.error.injEq, Option.some.injEq]
    · cases hreport
  | ok report =>
    obtain ⟨hallowed, hchange, _⟩ :=
      allowed_of_stored environment.recorded config hsound hstored hexec
    rw [current.changeOf_stored hmembers] at hchange
    refine ⟨hleft, ?_, fun other => ?_, fun error herror => ?_, fun _ hreport hnonempty => ?_,
      hroster⟩
    · rw [silent_iff_unchanged hsound hexec, hchange]
      simp
    · rw [← hrefusal, refusal_eq_none_iff.mpr ⟨current, hallowed⟩]
      simp
    · cases herror
    · rw [← Except.ok.inj hreport, hchange, if_neg hnonempty]

end

end Service

/-! ## A zombie that a snapshot lists -/

/-- A snapshot of our group with nobody else in it, which lists someone as a zombie. -/
def GroupSnapshot.haunted : GroupSnapshot where
  id := StoredGroup.sample.id
  name := "friends"
  members := [Config.sample.account]
  zombies := [Identifier.sample]
  activeAt := 1
  admins := [Config.sample.account]
  expiration := .unknown
  timer := 0

/-- The ledgers after that snapshot was written. -/
def Ledgers.haunted : Ledgers := Ledgers.empty.upserted GroupSnapshot.haunted

theorem Ledgers.haunted_reachable : Ledgers.haunted.Reachable :=
  Reachable.empty.upserted GroupSnapshot.haunted

/-- The group that is stored then. -/
def StoredGroup.haunted : StoredGroup := Ledgers.empty.stateOf GroupSnapshot.haunted

theorem Ledgers.get?_haunted :
    Ledgers.haunted.groups.get? StoredGroup.sample.id = some StoredGroup.haunted :=
  (get?_upserted sound_empty GroupSnapshot.haunted _).trans (if_pos rfl)

namespace Service

theorem writes_haunted :
    Writes Ledgers.empty [.upsert GroupSnapshot.haunted] Ledgers.haunted :=
  Writes.nil.upsert (exec_upsert Environment.still InFlight.empty () GroupSnapshot.haunted
    (Ledgers.stateOf_id Ledgers.sound_empty GroupSnapshot.haunted))

/-- We may edit that group with what is stored. -/
theorem allowed_haunted : Allowed Config.sample Ledgers.haunted StoredGroup.sample.id
    StoredGroup.haunted "friends" [Config.sample.account] where
  stored := Ledgers.get?_haunted
  notKeyed := by decide
  notRead := by decide
  noObjection := by decide +kernel

/-- **An edit with what is stored removes the zombie**, though neither the name nor the members
are changed. -/
theorem stored_edit_removes_leftover :
    ∃ report world, Writes Ledgers.empty [.upsert GroupSnapshot.haunted] Ledgers.haunted ∧
      Ledgers.haunted.groups.get? StoredGroup.sample.id = some StoredGroup.haunted ∧
      StoredGroup.haunted.isLegacy = true ∧
      ¬(StoredGroup.haunted.mode = .deleteAfterRead ∧ StoredGroup.haunted.timer ≠ 0) ∧
      (edit (Ledgers.backend Environment.still) Config.sample StoredGroup.sample.id
          StoredGroup.haunted.name StoredGroup.haunted.members.toList).exec
        ⟨InFlight.empty, ⟨Ledgers.haunted, ()⟩⟩ = (.ok report, world) ∧
      report.change = .removed [Identifier.sample] := by
  obtain ⟨report, world, hexec, hchange, _⟩ := exec_edit_ok Environment.still Config.sample
    (r := InFlight.empty) (e := ()) Ledgers.haunted_reachable.sound allowed_haunted
  refine ⟨report, world, writes_haunted, Ledgers.get?_haunted, by decide, by decide, hexec, ?_⟩
  rw [hchange]
  decide +kernel

/-- Once the zombie was removed, the same edit is silent. -/
theorem stored_edit_is_silent_iff_of_removal :
    ∃ report ledgers result after, Ledgers.empty.Reachable ∧
      Writes Ledgers.empty [.upsert GroupSnapshot.haunted,
        .edit ⟨StoredGroup.sample.id, "friends", [Config.sample.account], .ok report⟩] ledgers ∧
      (edit (Ledgers.backend Environment.still.recorded) Config.sample StoredGroup.sample.id
          "friends" [Config.sample.account]).exec
        ⟨InFlight.empty, ⟨ledgers, .start ()⟩⟩ = (result, after) ∧
      Silent ⟨InFlight.empty, ⟨ledgers, .start ()⟩⟩ result after := by
  obtain ⟨report, world, hexec, _, hgroups⟩ := exec_edit_ok Environment.still Config.sample
    (r := InFlight.empty) (e := ()) Ledgers.haunted_reachable.sound allowed_haunted
  have hwrites := writes_haunted.edit hexec
  have hstored : world.outside.ledgers.groups.get? StoredGroup.sample.id =
      some (StoredGroup.haunted.updated (StoredGroup.haunted.edited StoredGroup.sample.id
        "friends" [Config.sample.account] 0)) :=
    (hgroups _).trans (Ledgers.get?_written Ledgers.haunted rfl)
  rcases hagain : (edit (Ledgers.backend Environment.still.recorded) Config.sample
    StoredGroup.sample.id "friends" [Config.sample.account]).exec
      ⟨InFlight.empty, ⟨world.outside.ledgers, .start ()⟩⟩ with ⟨result, after⟩
  obtain ⟨hleft, hsilent, _⟩ := stored_edit_is_silent_iff Ledgers.Reachable.empty hwrites hstored
    (by decide) (by decide) (fun id => by
      rw [StoredGroup.members_updated_edited, Roster.mem_ofList]) hagain
  exact ⟨report, world.outside.ledgers, result, after, Ledgers.Reachable.empty, hwrites, hagain,
    hsilent.mpr hleft⟩

end Service

end SealedGroup
