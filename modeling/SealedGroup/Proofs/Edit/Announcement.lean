import SealedGroup.Proofs.Edit.Course
import SealedGroup.Proofs.Service.Keeping

/-!
# The announcement of an edit, in memory

Once the roster of an edited group is written, the edit is announced: a notice is recorded, the
messages are sent, a removal is followed by a rotation, and the group is committed. None of this
fails, whatever sends fail and however the rotation ends, and none of it changes a stored group
(`Service.exec_publish`). So an edit that is not refused gives a report
(`Service.exec_edit_ok`).

That is the half of an edit that has effects outside. A send that fails is an entry of the
report, and so is a rotation that ends in an error: the text of the error is kept, and the edit
goes on. What is left are calls to the ledgers, which do not fail in memory as long as the group
is stored.

## Reports and refusals

An edit that gives a report cannot have been refused, and one that gives an error must have
been. Both directions are needed often, and from different ends: a statement that begins with
the result of an edit gets from it the group that was stored, together with all that was checked
of it (`Service.allowed_of_stored`); and an edit that gives an error was refused, and changed
nothing (`Service.refusal_of_exec_edit`).

The proofs do not look at what is sent. They use that every step of the announcement succeeds
and keeps the groups, and these two properties pass from steps to sequences of steps.
-/

namespace SealedGroup

variable {ε : Type}

/-- **No stored group is changed.** -/
def Ledgers.KeepGroups (world after : World (Local ε)) : Prop :=
  ∀ id, after.outside.ledgers.groups.get? id = world.outside.ledgers.groups.get? id

namespace Service

open Ledgers (KeepGroups)

section

variable (environment : Environment ε) (config : Config)

theorem succeeds_networkTime :
    Act.Succeeds (config.networkTime (Ledgers.backend environment)) :=
  .bind (.outside _) fun _ => .pure _

theorem succeeds_deliver (dispatch : Dispatch) :
    Act.Succeeds (deliver (Ledgers.backend environment) dispatch) :=
  .bind (.whole _) fun _ => .pure _

theorem succeeds_deliverAll (dispatches : List Dispatch) :
    Act.Succeeds (deliverAll (Ledgers.backend environment) dispatches) := by
  induction dispatches with
  | nil => exact .pure _
  | cons dispatch rest ih =>
    exact .bind (succeeds_deliver environment dispatch) fun _ => .bind ih fun _ => .pure _

variable (current : StoredGroup) (snapshot : GroupSnapshot) (ids : List Identifier)
  (identifier : String)

/-- A removal is announced without error, however its rotation ends. -/
theorem succeeds_announceRemoval :
    Act.Succeeds (announceRemoval (Ledgers.backend environment) config current snapshot ids
      identifier) := by
  refine .bind (succeeds_networkTime environment config) fun _ =>
    .bind (succeeds_deliver environment _) fun record => ?_
  split
  · refine .bind ?_ fun _ => .pure _
    exact .tryCatch _ fun _ => .pure _
  · exact .pure _

/-- **The announcement of a change never fails.** -/
theorem succeeds_announce (change : Change) (pair : Option KeyPair) :
    Act.Succeeds (announce (Ledgers.backend environment) config current snapshot change pair
      identifier) := by
  unfold announce
  split
  · refine .bind ?_ fun _ => .pure _
    exact .bind (succeeds_networkTime environment config) fun _ =>
      .bind (succeeds_deliver environment _) fun _ => .pure _
  · refine .bind ?_ fun _ => .pure _
    exact .bind (succeeds_networkTime environment config) fun _ =>
      .bind (succeeds_deliver environment _) fun _ =>
        .bind (succeeds_networkTime environment config) fun _ =>
          .bind (succeeds_deliverAll environment _) fun _ => .pure _
  · exact succeeds_announceRemoval environment config current snapshot _ identifier
  · exact .pure _
  · exact .pure _

variable {r : InFlight} {ledgers : Ledgers} {e : ε}

/-- A recorded notice goes to the end of its conversation. -/
theorem exec_recordNotice (conversation : Identifier) (announcement : Announcement)
    (sender : Identifier) (sentAt : Int64) (update : Option ExpirationUpdate) :
    (recordNotice (Ledgers.backend environment) config conversation announcement sender sentAt
        update).exec ⟨r, ⟨ledgers, e⟩⟩ =
      let notice := (Notice.create (environment.drawUuid e).1 conversation announcement sender
        config.account sentAt).stamped update
      (.ok notice, ⟨r, ⟨{ ledgers with groups := ledgers.groups.append notice },
        (environment.drawUuid e).2⟩⟩) := by
  unfold recordNotice
  rw [Act.exec_bind_of_ok (Ledgers.exec_drawUuid environment r ledgers e),
    Act.exec_bind_of_ok (Ledgers.exec_appendNotice environment r ledgers _ _)]
  rfl

/-- A message is handed to the transport, and the answer is kept. -/
theorem exec_deliver {dispatch : Dispatch} {answer : Except SendError String} {r' : InFlight}
    {e' : ε} (hsent : environment.transmit dispatch r e = (answer, r', e')) :
    (deliver (Ledgers.backend environment) dispatch).exec ⟨r, ⟨ledgers, e⟩⟩ =
      (.ok (.ofResult dispatch answer), ⟨r', ⟨ledgers, e'⟩⟩) := by
  unfold deliver
  rw [Act.exec_bind_of_ok (Ledgers.exec_send environment r ledgers e dispatch), hsent]
  rfl

/-- **A change that there is something to say about** is published by recording a
notice, announcing the change, and committing the group. -/
theorem exec_publish_of_announcement {change : Change} {announcement : Announcement}
    (hchange : change.announcement? = some announcement) (pair : Option KeyPair)
    {state : StoredGroup} (hstored : ledgers.groups.get? snapshot.id = some state) :
    ∃ notice e', environment.Quiet e e' ∧ ∃ records rotation r' ledgers' e'',
      (announce (Ledgers.backend environment) config current snapshot change pair notice.id).exec
          ⟨r, ⟨{ ledgers with groups := ledgers.groups.append notice }, e'⟩⟩ =
        (.ok (records, rotation), ⟨r', ⟨ledgers', e''⟩⟩) ∧
      (publish (Ledgers.backend environment) config current snapshot change pair).exec
          ⟨r, ⟨ledgers, e⟩⟩ =
        (.ok ⟨change, some notice, records, rotation⟩,
          ⟨r', ⟨{ ledgers' with groups := ledgers'.groups.committed snapshot.id }, e''⟩⟩) ∧
      ∀ id, ledgers'.groups.get? id = ledgers.groups.get? id := by
  unfold publish
  rw [hchange]
  dsimp only
  rw [Act.exec_bind_of_ok (Ledgers.exec_now environment r ledgers e)]
  rw [Act.exec_bind_of_ok (exec_recordNotice environment config _ _ _ _ _), Act.exec_bind]
  generalize Notice.stamped _ _ = notice
  -- the announcement ends well, in a world that has the same groups
  obtain ⟨⟨records, rotation⟩, hok⟩ := succeeds_announce environment config current snapshot
    notice.id change pair ⟨r, ⟨{ ledgers with groups := ledgers.groups.append notice },
      (environment.drawUuid (environment.now e).2).2⟩⟩
  have hkeep := (Ledgers.keeps_groups environment).announce config current snapshot change pair
    notice.id ⟨r, ⟨{ ledgers with groups := ledgers.groups.append notice },
      (environment.drawUuid (environment.now e).2).2⟩⟩
  rcases hannounce : (announce (Ledgers.backend environment) config current snapshot change pair
    notice.id).exec ⟨r, ⟨{ ledgers with groups := ledgers.groups.append notice },
      (environment.drawUuid (environment.now e).2).2⟩⟩ with ⟨result, ⟨r', ⟨ledgers', e'⟩⟩⟩
  rw [hannounce] at hok hkeep
  cases hok
  refine ⟨notice, _, (Environment.Quiet.refl e).now.drawUuid, records, rotation, r', ledgers', e',
    hannounce, ?_, hkeep⟩
  dsimp only
  rw [Act.exec_bind_of_ok (Ledgers.exec_commit environment r' ledgers' e'
    ((hkeep snapshot.id).trans hstored))]
  rfl

/-- **Publishing a change of a stored group never fails**, and leaves the
stored groups as they are. -/
theorem exec_publish (change : Change) (pair : Option KeyPair) {state : StoredGroup}
    (hstored : ledgers.groups.get? snapshot.id = some state) :
    ∃ report world, (publish (Ledgers.backend environment) config current snapshot change
        pair).exec ⟨r, ⟨ledgers, e⟩⟩ = (.ok report, world) ∧
      report.change = change ∧ KeepGroups ⟨r, ⟨ledgers, e⟩⟩ world := by
  cases hchange : change.announcement? with
  | none =>
    unfold publish
    rw [hchange]
    dsimp only
    rw [Act.exec_bind_of_ok (Ledgers.exec_commit environment r ledgers e hstored)]
    exact ⟨_, _, rfl, rfl, fun _ => rfl⟩
  | some announcement =>
    obtain ⟨_, _, _, _, _, _, _, _, _, hpublish, hkeep⟩ := exec_publish_of_announcement
      environment config current snapshot (r := r) (e := e) hchange pair hstored
    exact ⟨_, _, hpublish, rfl, hkeep⟩

/-- **An edit that is not refused gives a report** on the change that it makes,
and leaves the groups as they were written. -/
theorem exec_edit_ok (hsound : ledgers.Sound) {group : Identifier} {current : StoredGroup}
    {name : String} {members : List Identifier}
    (h : Allowed config ledgers group current name members) :
    ∃ report world, (edit (Ledgers.backend environment) config group name members).exec
        ⟨r, ⟨ledgers, e⟩⟩ = (.ok report, world) ∧
      report.change = current.changeOf name members ∧
      ∀ id, world.outside.ledgers.groups.get? id =
        (ledgers.written current group name members (environment.now e).1).groups.get? id := by
  obtain ⟨pair, _, hedit⟩ := exec_edit_of_allowed environment r e hsound h
  obtain ⟨report, world, hpublish, hchange, hkeep⟩ := exec_publish environment config current
    (current.edited group name members (environment.now e).1) (r := r)
    (e := (environment.now e).2) (current.changeOf name members) pair
    (ledgers.get?_written (hsound.filed h.stored))
  exact ⟨report, world, hedit.trans hpublish, hchange, hkeep⟩

/-- **Whatever edit gives a report was not refused.** -/
theorem allowed_of_exec_edit (hsound : ledgers.Sound) {group : Identifier} {name : String}
    {members : List Identifier} {report : EditReport} {world : World (Local ε)}
    (hexec : (edit (Ledgers.backend environment) config group name members).exec
      ⟨r, ⟨ledgers, e⟩⟩ = (.ok report, world)) :
    ∃ current, Allowed config ledgers group current name members ∧
      report.change = current.changeOf name members ∧
      ∀ id, world.outside.ledgers.groups.get? id =
        (ledgers.written current group name members (environment.now e).1).groups.get? id := by
  cases hrefusal : refusal config ledgers group name members with
  | some error =>
    obtain ⟨e', _, hrefused⟩ := exec_edit_of_refusal environment r e hrefusal
    cases hexec.symm.trans hrefused
  | none =>
    obtain ⟨current, hallowed⟩ := refusal_eq_none_iff.mp hrefusal
    obtain ⟨_, _, hok, hchange, hgroups⟩ := exec_edit_ok environment config (r := r) (e := e)
      hsound hallowed
    cases hexec.symm.trans hok
    exact ⟨current, hallowed, hchange, hgroups⟩

/-- An edit of a stored group that gives a report was allowed for this group. -/
theorem allowed_of_stored (hsound : ledgers.Sound) {group : Identifier} {current : StoredGroup}
    {name : String} {members : List Identifier} {report : EditReport} {world : World (Local ε)}
    (hstored : ledgers.groups.get? group = some current)
    (hexec : (edit (Ledgers.backend environment) config group name members).exec
      ⟨r, ⟨ledgers, e⟩⟩ = (.ok report, world)) :
    Allowed config ledgers group current name members ∧
      report.change = current.changeOf name members ∧
      ∀ id, world.outside.ledgers.groups.get? id =
        (ledgers.written current group name members (environment.now e).1).groups.get? id := by
  obtain ⟨current', hallowed, hreport⟩ := allowed_of_exec_edit environment config hsound hexec
  obtain rfl : current' = current := Option.some.inj (hallowed.stored.symm.trans hstored)
  exact ⟨hallowed, hreport⟩

/-- **Whatever edit gives an error was refused**, and did nothing. -/
theorem refusal_of_exec_edit (hsound : ledgers.Sound) {group : Identifier} {name : String}
    {members : List Identifier} {error : ServiceError} {world : World (Local ε)}
    (hexec : (edit (Ledgers.backend environment) config group name members).exec
      ⟨r, ⟨ledgers, e⟩⟩ = (.error error, world)) :
    refusal config ledgers group name members = some error ∧
      ∃ e', environment.Quiet e e' ∧ world = ⟨r, ⟨ledgers, e'⟩⟩ := by
  cases hrefusal : refusal config ledgers group name members with
  | some reason =>
    obtain ⟨e', hquiet, hrefused⟩ := exec_edit_of_refusal environment r e hrefusal
    cases hexec.symm.trans hrefused
    exact ⟨rfl, e', hquiet, rfl⟩
  | none =>
    obtain ⟨current, hallowed⟩ := refusal_eq_none_iff.mp hrefusal
    obtain ⟨_, _, hok, _⟩ := exec_edit_ok environment config (r := r) (e := e) hsound hallowed
    cases hexec.symm.trans hok

end

end Service

end SealedGroup
