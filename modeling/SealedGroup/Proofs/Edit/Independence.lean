import SealedGroup.Proofs.Edit.Announcement
import SealedGroup.Proofs.Rotation.Outcomes

/-!
# What does not depend on delivery

An edit writes its group and records its notice before it sends anything, and nothing that comes
after takes that back. So two runs of one edit from the same state, with the same readings of
the clock and the same identifiers drawn, leave the same on record, whatever becomes of their
messages. Delivery decides on a rotation alone: it follows a removal that was confirmed, and it
changes the keys, the attempt in flight and the commits of the edited group.

`Act.Spares` says of an operation what it leaves as it is: the groups, the notices and the
writes, and outside the groups that it may touch also the commits, the histories and the
attempts. An edit spares all but what a removal does to its own group
(`Service.exec_edit_spared`), and two edits that spare so much of the same end alike
(`Service.edit_ignores_delivery`).

## Two environments

Two runs are compared by the environments that they are in, which are *in step* for as long as
nothing is sent: their clocks read the same, and the identifiers that they draw are the same
(`Environment.InStep`). From the first send on they may do as they please, and so nothing can be
said of the two runs side by side any more.

That is why the comparison has two parts. Up to the first send both runs do the same; and what
each does afterwards is measured against the state at that point, and not against the other run.
-/

namespace SealedGroup

variable {ε δ : Type}

/-- **Two environments in step**: for as long as nothing is sent, their clocks read the same
and the identifiers that they draw are the same. -/
structure Environment.InStep (environment : Environment ε) (environment' : Environment δ)
    (R : ε → δ → Prop) : Prop where
  now : ∀ {e e'}, R e e' → (environment'.now e').1 = (environment.now e).1 ∧
    R (environment.now e).2 (environment'.now e').2
  drawUuid : ∀ {e e'}, R e e' → (environment'.drawUuid e').1 = (environment.drawUuid e).1 ∧
    R (environment.drawUuid e).2 (environment'.drawUuid e').2

/-- An environment like the still one, in which no message arrives. -/
def Environment.offline : Environment Unit :=
  { Environment.still with send := fun _ => pure (.error (.unavailable "offline")) }

theorem Environment.still_inStep_offline :
    Environment.still.InStep Environment.offline fun _ _ => True :=
  ⟨fun _ => ⟨rfl, trivial⟩, fun _ => ⟨rfl, trivial⟩⟩

/-- The groups whose key a change may replace: a removal may replace that of its own group. -/
def Change.MayRekey (change : Change) (group id : Identifier) : Prop :=
  id = group ∧ ∃ ids, change = .removed ids

/-- A commit counts for its own group. -/
theorem GroupLedger.commitsOf_committed (ledger : GroupLedger) (group id : Identifier) :
    (ledger.committed group).commitsOf id =
      if id = group then ledger.commitsOf group + 1 else ledger.commitsOf id := by
  show ((ledger.commits.insert group _).get? id).getD 0 = _
  rw [Table.get?_insert]
  split <;> rfl

namespace Ledgers

/-- **Ledgers that agree on what is recorded**, and outside the touched groups on the commits
and the keys as well. -/
structure Agree (touched : Identifier → Prop) (ledgers ledgers' : Ledgers) : Prop where
  groups : ledgers'.groups.groups = ledgers.groups.groups
  log : ledgers'.groups.log = ledgers.groups.log
  writes : ledgers'.groups.writes = ledgers.groups.writes
  commits : ∀ id, ¬touched id → ledgers'.groups.commitsOf id = ledgers.groups.commitsOf id
  history : ∀ id, ¬touched id → ledgers'.keys.history id = ledgers.keys.history id

variable {touched : Identifier → Prop} {ledgers ledgers' ledgers'' : Ledgers}

theorem Agree.refl (ledgers : Ledgers) : Agree touched ledgers ledgers :=
  ⟨rfl, rfl, rfl, fun _ _ => rfl, fun _ _ => rfl⟩

theorem Agree.symm (h : Agree touched ledgers ledgers') : Agree touched ledgers' ledgers :=
  ⟨h.groups.symm, h.log.symm, h.writes.symm, fun id hid => (h.commits id hid).symm,
    fun id hid => (h.history id hid).symm⟩

theorem Agree.trans (h : Agree touched ledgers ledgers') (h' : Agree touched ledgers' ledgers'') :
    Agree touched ledgers ledgers'' :=
  ⟨h'.groups.trans h.groups, h'.log.trans h.log, h'.writes.trans h.writes,
    fun id hid => (h'.commits id hid).trans (h.commits id hid),
    fun id hid => (h'.history id hid).trans (h.history id hid)⟩

/-- The ledgers with one more commit of a group. -/
def committed (ledgers : Ledgers) (group : Identifier) : Ledgers :=
  { ledgers with groups := ledgers.groups.committed group }

/-- Ledgers that agree do so after one more commit of the same group. -/
theorem Agree.committed (h : Agree touched ledgers ledgers') (group : Identifier) :
    Agree touched (ledgers.committed group) (ledgers'.committed group) where
  groups := h.groups
  log := h.log
  writes := h.writes
  commits := fun id hid => by
    show (ledgers'.groups.committed group).commitsOf id =
      (ledgers.groups.committed group).commitsOf id
    rw [GroupLedger.commitsOf_committed, GroupLedger.commitsOf_committed]
    split
    · next heq => rw [← heq, h.commits id hid]
    · exact h.commits id hid
  history := h.history

/-- The ledgers with a notice recorded, if there is one. -/
def noted (ledgers : Ledgers) : Option Notice → Ledgers
  | none => ledgers
  | some notice => { ledgers with groups := ledgers.groups.append notice }

end Ledgers

open Ledgers (Agree)

/-- **All but the touched groups is spared**: nothing is recorded, and of the other groups
nothing changes, but for the attempts that others do not leave alone. -/
structure Spared (environment : Environment ε) (touched : Identifier → Prop)
    (world after : World (Local ε)) : Prop where
  ledgers : Agree touched world.outside.ledgers after.outside.ledgers
  inFlight : ∀ id, ¬touched id → environment.LeavesAlone id →
    after.inFlight.get? id = world.inFlight.get? id

/-- The operation spares all but the touched groups. -/
def Act.Spares {α : Type} (environment : Environment ε) (touched : Identifier → Prop)
    (act : Act (Local ε) α) : Prop :=
  act.Respects (Spared environment touched)

section

variable {α β : Type} {environment : Environment ε} {touched : Identifier → Prop}

theorem Spared.refl (world : World (Local ε)) : Spared environment touched world world :=
  ⟨.refl _, fun _ _ _ => rfl⟩

theorem Spared.trans {u v w : World (Local ε)} (h : Spared environment touched u v)
    (h' : Spared environment touched v w) : Spared environment touched u w :=
  ⟨h.ledgers.trans h'.ledgers,
    fun id hid halone => (h'.inFlight id hid halone).trans (h.inFlight id hid halone)⟩

theorem Act.Spares.pure (a : α) : Act.Spares environment touched (Pure.pure a) :=
  Act.Respects.pure .refl a

theorem Act.Spares.bind {act : Act (Local ε) α} {next : α → Act (Local ε) β}
    (hact : act.Spares environment touched) (hnext : ∀ a, (next a).Spares environment touched) :
    (act >>= next).Spares environment touched :=
  Act.Respects.bind .trans hact hnext

theorem Act.Spares.tryCatch {act : Act (Local ε) α} {handle : ServiceError → Act (Local ε) α}
    (hact : act.Spares environment touched)
    (hhandle : ∀ e, (handle e).Spares environment touched) :
    (MonadExcept.tryCatch act handle).Spares environment touched :=
  Act.Respects.tryCatch .trans hact hhandle

end

namespace Service

section

variable (environment : Environment ε) (touched : Identifier → Prop) (config : Config)

/-! ## Sending -/

theorem spares_networkTime :
    Act.Spares environment touched (config.networkTime (Ledgers.backend environment)) :=
  fun _ => ⟨.refl _, fun _ _ _ => rfl⟩

/-- A send leaves the attempts to the others. -/
theorem spares_deliver (dispatch : Dispatch) :
    Act.Spares environment touched (deliver (Ledgers.backend environment) dispatch) := by
  rintro ⟨r, ⟨ledgers, e⟩⟩
  rw [exec_deliver environment rfl]
  exact ⟨.refl ledgers, fun id _ halone => halone dispatch r e⟩

theorem spares_deliverAll (dispatches : List Dispatch) :
    Act.Spares environment touched (deliverAll (Ledgers.backend environment) dispatches) := by
  induction dispatches with
  | nil => exact .pure _
  | cons dispatch rest ih =>
    exact .bind (spares_deliver environment touched dispatch) fun _ => .bind ih fun _ => .pure _

/-! ## Rotating -/

/-- However a rotation ends once its message is answered, it touches its own group alone. -/
theorem agree_of_ending {pending : Rotation.Pending} {ledgers ledgers' : Ledgers}
    {sent r' : InFlight} {answer : Except SendError String} {outcome : Rotation.Outcome}
    (h : Rotation.Ending pending ledgers sent answer outcome r' ledgers') :
    Agree (· = pending.groupId) ledgers ledgers' ∧
      ∀ id ≠ pending.groupId, r'.get? id = sent.get? id := by
  cases h with
  | committed _ =>
    refine ⟨⟨rfl, rfl, rfl, fun id hid => ?_, fun id hid => ?_⟩, fun id hid => ?_⟩
    · exact (GroupLedger.commitsOf_committed ..).trans (if_neg hid)
    · exact (KeyLedger.history_add ..).trans (if_neg fun h => hid h.1)
    · exact InFlight.get?_erase_of_ne _ hid
  | superseded _ => exact ⟨.refl ledgers, fun _ _ => rfl⟩
  | outstanding _ => exact ⟨.refl ledgers, fun _ _ => rfl⟩

/-- **A rotation touches its own group alone.** -/
theorem spares_run (group : Identifier) (targets : List Identifier) (requesterIsAdmin : Bool) :
    Act.Spares environment (· = group)
      (Rotation.run (Ledgers.backend environment) config group targets requesterIsAdmin) := by
  rintro ⟨r, ⟨ledgers, e⟩⟩
  cases hobstacle : Rotation.obstacle config.account requesterIsAdmin
    (ledgers.groups.get? group) with
  | some outcome =>
    rw [Rotation.exec_run_of_obstacle environment hobstacle]
    exact .refl _
  | none =>
    cases hfault : Identifier.firstFault targets with
    | some cause =>
      obtain ⟨e', _, hrun⟩ := Rotation.exec_run_of_fault environment (r := r) (e := e) hobstacle
        hfault
      rw [hrun, InFlight.erase_register]
      exact ⟨.refl ledgers, fun id hid _ => InFlight.get?_erase_of_ne _ hid⟩
    | none =>
      obtain ⟨e', _, _, _, _, _, _, sent, _, _, r', ledgers', hsent, hrun, hending⟩ :=
        Rotation.exec_run_of_usable environment (r := r) (e := e) hobstacle
          (Identifier.firstFault_eq_none_iff.mp hfault)
      obtain ⟨hagree, herased⟩ := agree_of_ending hending
      rw [hrun]
      refine ⟨hagree, fun id hid halone => (herased id hid).trans ?_⟩
      cases hsent
      exact (halone _ _ _).trans (InFlight.get?_register_of_ne _ _ _ hid)

/-! ## Announcing -/

variable (current : StoredGroup) (snapshot : GroupSnapshot) (identifier : String)

theorem spares_announceRemoval (ids : List Identifier) :
    Act.Spares environment (· = snapshot.id)
      (announceRemoval (Ledgers.backend environment) config current snapshot ids identifier) := by
  refine .bind (spares_networkTime environment _ config) fun _ =>
    .bind (spares_deliver environment _ _) fun record => ?_
  split
  · refine .bind ?_ fun _ => .pure _
    exact .tryCatch (spares_run environment config _ _ _) fun _ => .pure _
  · exact .pure _

/-- **An announcement touches its group alone**, and only that of a removal does. -/
theorem spares_announce (change : Change) (pair : Option KeyPair) :
    Act.Spares environment (change.MayRekey snapshot.id)
      (announce (Ledgers.backend environment) config current snapshot change pair
        identifier) := by
  unfold announce
  split
  · refine .bind ?_ fun _ => .pure _
    exact .bind (spares_networkTime environment _ config) fun _ =>
      .bind (spares_deliver environment _ _) fun _ => .pure _
  · refine .bind ?_ fun _ => .pure _
    exact .bind (spares_networkTime environment _ config) fun _ =>
      .bind (spares_deliver environment _ _) fun _ =>
        .bind (spares_networkTime environment _ config) fun _ =>
          .bind (spares_deliverAll environment _ _) fun _ => .pure _
  · next ids =>
    have htouched : (Change.removed ids).MayRekey snapshot.id = (· = snapshot.id) :=
      funext fun id => propext ⟨And.left, fun hid => ⟨hid, ids, rfl⟩⟩
    rw [htouched]
    exact spares_announceRemoval environment config current snapshot identifier ids
  · exact .pure _
  · exact .pure _

/-- An announcement ends well, and touches its group alone. -/
theorem exec_announce_spared (change : Change) (pair : Option KeyPair) (world : World (Local ε)) :
    ∃ records rotation after,
      (announce (Ledgers.backend environment) config current snapshot change pair identifier).exec
        world = (.ok (records, rotation), after) ∧
      Spared environment (change.MayRekey snapshot.id) world after := by
  obtain ⟨⟨records, rotation⟩, hok⟩ :=
    succeeds_announce environment config current snapshot identifier change pair world
  exact ⟨records, rotation, _, Prod.ext hok rfl,
    spares_announce environment config current snapshot identifier change pair world⟩

/-! ## Publishing -/

/-- The notice that a change is recorded as, if there is something to say about it. -/
def noticeOf (change : Change) (e : ε) : Option Notice :=
  change.announcement?.map fun announcement =>
    (Notice.create (environment.drawUuid (environment.now e).2).1 snapshot.id announcement
        config.account config.account (environment.now e).1).stamped
      (some ⟨snapshot.expiration, current.timer, false⟩)

/-- Environments in step give the same notice. -/
theorem noticeOf_of_inStep {environment : Environment ε} {environment' : Environment δ}
    {R : ε → δ → Prop} (hstep : environment.InStep environment' R) (change : Change) {e : ε}
    {e' : δ} (he : R e e') :
    noticeOf environment' config current snapshot change e' =
      noticeOf environment config current snapshot change e := by
  obtain ⟨hnow, hnext⟩ := hstep.now he
  unfold noticeOf
  rw [hnow, (hstep.drawUuid hnext).1]

variable {r : InFlight} {ledgers : Ledgers} {e : ε}

/-- **Publishing a change** records its notice and commits the group, and spares all else but
what a removal does to its own group. -/
theorem exec_publish_spared (change : Change) (pair : Option KeyPair) {state : StoredGroup}
    (hstored : ledgers.groups.get? snapshot.id = some state) :
    ∃ records rotation after,
      (publish (Ledgers.backend environment) config current snapshot change pair).exec
          ⟨r, ⟨ledgers, e⟩⟩ =
        (.ok ⟨change, noticeOf environment config current snapshot change e, records, rotation⟩,
          after) ∧
      Spared environment (change.MayRekey snapshot.id)
        ⟨r, ⟨(ledgers.noted (noticeOf environment config current snapshot change e)).committed
          snapshot.id, e⟩⟩ after := by
  unfold publish noticeOf
  cases change.announcement? with
  | none =>
    refine ⟨[], none, _, ?_, .refl _⟩
    dsimp only
    rw [Act.exec_bind_of_ok (Ledgers.exec_commit environment r ledgers e hstored)]
    rfl
  | some announcement =>
    dsimp only [Option.map_some]
    rw [Act.exec_bind_of_ok (Ledgers.exec_now environment r ledgers e),
      Act.exec_bind_of_ok (exec_recordNotice environment config _ _ _ _ _)]
    generalize Notice.stamped _ _ = notice
    obtain ⟨records, rotation, ⟨r', ⟨ledgers', e'⟩⟩, hannounce, hspared⟩ :=
      exec_announce_spared environment config current snapshot notice.id change pair
        ⟨r, ⟨ledgers.noted (some notice), (environment.drawUuid (environment.now e).2).2⟩⟩
    -- the group is still stored when it is committed
    have hstored' : ledgers'.groups.get? snapshot.id = some state :=
      (congrArg (Table.get? · snapshot.id) hspared.ledgers.groups).trans hstored
    refine ⟨records, rotation, ⟨r', ⟨ledgers'.committed snapshot.id, e'⟩⟩, ?_,
      hspared.ledgers.committed snapshot.id, hspared.inFlight⟩
    unfold Ledgers.noted at hannounce
    rw [Act.exec_bind_of_ok hannounce]
    dsimp only
    rw [Act.exec_bind_of_ok (Ledgers.exec_commit environment r' ledgers' e' hstored')]
    rfl

/-! ## A whole edit -/

/-- **What an edit that is not refused leaves on record** is settled before its first send: the
group is written, the notice recorded, and the group committed once for each. All else is
spared but what a removal does to its own group. -/
theorem exec_edit_spared {group : Identifier} {current : StoredGroup} {name : String}
    {members : List Identifier} (hsound : ledgers.Sound)
    (h : Allowed config ledgers group current name members) :
    ∃ notice records rotation after,
      notice = noticeOf environment config current
        (current.edited group name members (environment.now e).1)
        (current.changeOf name members) (environment.now e).2 ∧
      (edit (Ledgers.backend environment) config group name members).exec ⟨r, ⟨ledgers, e⟩⟩ =
        (.ok ⟨current.changeOf name members, notice, records, rotation⟩, after) ∧
      Spared environment ((current.changeOf name members).MayRekey group)
        ⟨r, ⟨((ledgers.written current group name members (environment.now e).1).noted
          notice).committed group, e⟩⟩ after := by
  obtain ⟨pair, _, hedit⟩ := exec_edit_of_allowed environment r e hsound h
  obtain ⟨records, rotation, after, hpublish, hspared⟩ := exec_publish_spared environment config
    current (current.edited group name members (environment.now e).1) (r := r)
    (e := (environment.now e).2) (current.changeOf name members) pair
    (ledgers.get?_written (hsound.filed h.stored))
  exact ⟨_, records, rotation, after, rfl, hedit.trans hpublish, hspared.ledgers,
    hspared.inFlight⟩

end

variable {environment : Environment ε} {environment' : Environment δ} {config : Config}
  {ledgers : Ledgers} {group : Identifier} {name : String} {members : List Identifier}
  {r : InFlight}

/-- **Local state does not depend on delivery.** Two edits of the same kind from the same
state, in environments that are in step but send as they please, give the same error or
reports of the same change with the same notice, and leave the same groups, the same notices
and as many writes. Unless the change is a removal they agree on every commit count, every key
history, and every attempt that nobody else touches; and if it is one, on those of all groups
but the edited one. -/
theorem edit_ignores_delivery (hledgers : ledgers.Reachable) {R : ε → δ → Prop}
    (hstep : environment.InStep environment' R) {e : ε} {e' : δ} (he : R e e')
    {result result' : Except ServiceError EditReport} {after : World (Local ε)}
    {after' : World (Local δ)}
    (hexec : (edit (Ledgers.backend environment) config group name members).exec
      ⟨r, ⟨ledgers, e⟩⟩ = (result, after))
    (hexec' : (edit (Ledgers.backend environment') config group name members).exec
      ⟨r, ⟨ledgers, e'⟩⟩ = (result', after')) :
    (result'.map fun report => (report.change, report.notice)) =
      (result.map fun report => (report.change, report.notice)) ∧
    after'.outside.ledgers.groups.groups = after.outside.ledgers.groups.groups ∧
    after'.outside.ledgers.groups.log = after.outside.ledgers.groups.log ∧
    after'.outside.ledgers.groups.writes = after.outside.ledgers.groups.writes ∧
    ∀ id, (id = group → ∀ report ids, result = .ok report → report.change ≠ .removed ids) →
      after'.outside.ledgers.groups.commitsOf id = after.outside.ledgers.groups.commitsOf id ∧
      after'.outside.ledgers.keys.history id = after.outside.ledgers.keys.history id ∧
      (environment.LeavesAlone id → environment'.LeavesAlone id →
        after'.inFlight.get? id = after.inFlight.get? id) := by
  cases hrefusal : refusal config ledgers group name members with
  | some error =>
    obtain ⟨_, _, hrefused⟩ := exec_edit_of_refusal environment r e hrefusal
    obtain ⟨_, _, hrefused'⟩ := exec_edit_of_refusal environment' r e' hrefusal
    cases hexec.symm.trans hrefused
    cases hexec'.symm.trans hrefused'
    exact ⟨rfl, rfl, rfl, rfl, fun _ _ => ⟨rfl, rfl, fun _ _ => rfl⟩⟩
  | none =>
    obtain ⟨current, hallowed⟩ := refusal_eq_none_iff.mp hrefusal
    obtain ⟨notice, records, rotation, _, hnotice, hedit, hspared⟩ :=
      exec_edit_spared environment config (r := r) (e := e) hledgers.sound hallowed
    obtain ⟨notice', records', rotation', _, hnotice', hedit', hspared'⟩ :=
      exec_edit_spared environment' config (r := r) (e := e') hledgers.sound hallowed
    cases hexec.symm.trans hedit
    cases hexec'.symm.trans hedit'
    -- both runs start from the same written ledgers, with the same notice
    obtain ⟨hnow, hnext⟩ := hstep.now he
    rw [hnow, noticeOf_of_inStep config _ _ hstep _ hnext, ← hnotice] at hnotice'
    rw [hnotice', hnow] at hspared'
    have hagree := hspared.ledgers.symm.trans hspared'.ledgers
    refine ⟨by rw [hnotice']; rfl, hagree.groups, hagree.log, hagree.writes, fun id hid => ?_⟩
    have huntouched : ¬(current.changeOf name members).MayRekey group id :=
      fun ⟨hgroup, ids, hremoved⟩ => hid hgroup _ ids rfl hremoved
    exact ⟨hagree.commits id huntouched, hagree.history id huntouched, fun halone halone' =>
      (hspared'.inFlight id huntouched halone').trans
        (hspared.inFlight id huntouched halone).symm⟩

/-- Whoever removes the only other member reports and records the same whether the message
arrives, and the key changes, or does not. -/
theorem edit_ignores_delivery_of_removal :
    ∃ report report' after after',
      (edit (Ledgers.backend Environment.still) Config.sample StoredGroup.sample.id "friends"
        [Config.sample.account]).exec ⟨InFlight.empty, ⟨Ledgers.sampleWithKey, ()⟩⟩ =
          (.ok report, after) ∧
      (edit (Ledgers.backend Environment.offline) Config.sample StoredGroup.sample.id "friends"
        [Config.sample.account]).exec ⟨InFlight.empty, ⟨Ledgers.sampleWithKey, ()⟩⟩ =
          (.ok report', after') ∧
      (report'.change, report'.notice) = (report.change, report.notice) ∧
      after'.outside.ledgers.groups.log = after.outside.ledgers.groups.log := by
  obtain ⟨current, hallowed⟩ := refusal_eq_none_iff.mp refusal_sampleWithKey
  obtain ⟨report, after, hexec, _⟩ := exec_edit_ok Environment.still Config.sample
    (r := InFlight.empty) (e := ()) Ledgers.sampleWithKey_reachable.sound hallowed
  obtain ⟨report', after', hexec', _⟩ := exec_edit_ok Environment.offline Config.sample
    (r := InFlight.empty) (e := ()) Ledgers.sampleWithKey_reachable.sound hallowed
  obtain ⟨hsaid, _, hlog, _⟩ := edit_ignores_delivery Ledgers.sampleWithKey_reachable
    Environment.still_inStep_offline trivial hexec hexec'
  exact ⟨report, report', after, after', hexec, hexec', Except.ok.inj hsaid, hlog⟩

end Service

end SealedGroup
