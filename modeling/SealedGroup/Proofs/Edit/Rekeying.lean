import SealedGroup.Proofs.Edit.Independence

/-!
# When an edit replaces the key

Whether a removal gives its group a new key depends on the answers of the transport, and on what
others do to the registry meanwhile. In a *steady* environment neither is open: either every
message arrives or none does, and others do nothing. So it can be told beforehand which edits
replace the key of their group (`Service.rekeys_edit`): those that remove someone where messages
arrive, where we are an administrator, and where every member who stays can be encrypted to. Any
other edit leaves the history of the group as it was.

## Steady environments

What makes an environment steady is a condition on its state, which is the condition that
messages arrive (`Environment.Steady`). Nothing that is asked of the environment changes it:
neither readings of the clock, nor draws, nor sends. It passes from an environment to the one
that keeps a record besides (`Environment.Steady.recorded`), so that the drawn secrets can be
spoken of.

## Going on

`Rekeys` says how the history of one group goes on, given whether all is ready for a new key: a
pair that was drawn meanwhile is added, or nothing is. It does not say that the pair is new to
the history. If it is, it is the latest from then on (`Rekeys.exists_latest`); if the group has
had it before, the ledger keeps it where it is.

The conditions are collected from the inside outwards, with one for the rotation, one more for
what decides whether it is made, and the last for the message that it follows.
-/

namespace SealedGroup

variable {ε : Type}

/-- **An environment that can be relied upon**: messages arrive as long as a condition on its state
holds, and only then; nothing that is asked of it changes the condition, and others do nothing. -/
structure Environment.Steady (environment : Environment ε) (Up : ε → Prop) : Prop where
  now : ∀ e, Up (environment.now e).2 ↔ Up e
  drawUuid : ∀ e, Up (environment.drawUuid e).2 ↔ Up e
  drawSecret : ∀ e, Up (environment.drawSecret e).2 ↔ Up e
  drawCoins : ∀ e, Up (environment.drawCoins e).2 ↔ Up e
  send : ∀ dispatch e, Up (environment.send dispatch e).2 ↔ Up e
  arrives : ∀ dispatch e, (∃ messageId, (environment.send dispatch e).1 = .ok messageId) ↔ Up e
  idle : ∀ dispatch r e, environment.meanwhile dispatch r e = (r, e)

namespace Environment.Steady

variable {environment : Environment ε} {Up : ε → Prop}

/-- What is done without sending changes nothing. -/
theorem quiet (h : environment.Steady Up) {e e' : ε} (hquiet : environment.Quiet e e') :
    Up e' ↔ Up e := by
  induction hquiet with
  | refl => exact Iff.rfl
  | now _ ih => exact (h.now _).trans ih
  | drawUuid _ ih => exact (h.drawUuid _).trans ih
  | drawCoins _ ih => exact (h.drawCoins _).trans ih

/-- **The answer to a message can be foretold**, and the registry stays as it is. -/
theorem transmit (h : environment.Steady Up) {dispatch : Dispatch} {r r' : InFlight} {e e' : ε}
    {answer : Except SendError String}
    (hsent : environment.transmit dispatch r e = (answer, r', e')) :
    r' = r ∧ (Up e' ↔ Up e) ∧ ((∃ messageId, answer = .ok messageId) ↔ Up e) := by
  unfold Environment.transmit at hsent
  rw [h.idle] at hsent
  cases hsent
  exact ⟨rfl, h.send dispatch e, h.arrives dispatch e⟩

/-- An environment is as steady with a record. -/
theorem recorded (h : environment.Steady Up) :
    environment.recorded.Steady fun e => Up e.inner where
  now := fun e => h.now e.inner
  drawUuid := fun e => h.drawUuid e.inner
  drawSecret := fun e => h.drawSecret e.inner
  drawCoins := fun e => h.drawCoins e.inner
  send := fun dispatch e => h.send dispatch e.inner
  arrives := fun dispatch e => h.arrives dispatch e.inner
  idle := fun dispatch r e =>
    congrArg (fun turn : InFlight × ε => (turn.1, { e with inner := turn.2 }))
      (h.idle dispatch r e.inner)

end Environment.Steady

/-- **The history of a group goes on**: a new key pair, drawn meanwhile, is added to it exactly if
all is ready for one, and otherwise it stays. -/
inductive Rekeys (ready : Prop) (group : Identifier) (before after : Local (Recorded ε)) : Prop
  | kept (hnot : ¬ready)
      (hhistory : after.ledgers.keys.history group = before.ledgers.keys.history group)
  | replaced (hready : ready) {pair : KeyPair}
      (hdrawn : pair.secret ∈ after.environment.secrets)
      (hhistory : after.ledgers.keys.history group =
        (before.ledgers.keys.add group pair).2.history group)

section

variable {ready : Prop} {group : Identifier} {before after : Local (Recorded ε)}

/-- **The keys alone matter**, and the secrets that were drawn. -/
theorem Rekeys.congr {ready' : Prop} {before' after' : Local (Recorded ε)}
    (h : Rekeys ready group before after) (hready : ready' ↔ ready)
    (hbefore : before'.ledgers.keys = before.ledgers.keys)
    (hafter : after'.ledgers.keys = after.ledgers.keys)
    (hsecrets : after'.environment.secrets = after.environment.secrets) :
    Rekeys ready' group before' after' := by
  cases h with
  | kept hnot hhistory =>
    rw [← hbefore, ← hafter] at hhistory
    exact .kept (fun hyes => hnot (hready.mp hyes)) hhistory
  | replaced hyes hdrawn hhistory =>
    rw [← hbefore, ← hafter] at hhistory
    exact .replaced (hready.mpr hyes) (hsecrets ▸ hdrawn) hhistory

/-- **Nobody has a new key** for the group if nothing was ready for one. -/
theorem Rekeys.latest_eq (h : Rekeys ready group before after) (hnot : ¬ready) :
    after.ledgers.keys.latest group = before.ledgers.keys.latest group := by
  cases h with
  | kept _ hhistory =>
    unfold KeyLedger.latest
    rw [hhistory]
  | replaced hready _ _ => exact absurd hready hnot

/-- **The new key is the latest one**, if the group has not had it before. -/
theorem Rekeys.exists_latest (h : Rekeys ready group before after) (hready : ready)
    (hfresh : ∀ secret ∈ after.environment.secrets, ∀ earlier : KeyPair,
      earlier.toRow ∈ before.ledgers.keys.history group → earlier.secret ≠ secret) :
    ∃ pair, pair.secret ∈ after.environment.secrets ∧
      after.ledgers.keys.latest group = .ok (some pair) := by
  cases h with
  | kept hnot _ => exact absurd hready hnot
  | @replaced _ pair hdrawn hhistory =>
    have hnew : pair.toRow ∉ before.ledgers.keys.history group :=
      fun hmem => hfresh _ hdrawn pair hmem rfl
    rw [KeyLedger.history_add_of_not_mem hnew] at hhistory
    exact ⟨pair, hdrawn, KeyLedger.latest_of_history_eq hhistory⟩

end

variable {environment : Environment ε} {Up : ε → Prop} (hsteady : environment.Steady Up)
  (config : Config) {r : InFlight} {ledgers : Ledgers} {e : Recorded ε}

include hsteady

variable (ledgers) in
/-- **A rotation replaces the key** if its message arrives, nothing stands in its way, and all
targets can be encrypted to. -/
theorem Rotation.rekeys_run (group : Identifier) (targets : List Identifier)
    (requesterIsAdmin : Bool) :
    Rekeys (Up e.inner ∧
        obstacle config.account requesterIsAdmin (ledgers.groups.get? group) = none ∧
        ∀ id ∈ targets, id.Usable) group ⟨ledgers, e⟩
      ((run (Ledgers.backend environment.recorded) config group targets requesterIsAdmin).exec
        ⟨r, ⟨ledgers, e⟩⟩).2.outside := by
  cases hobstacle : obstacle config.account requesterIsAdmin (ledgers.groups.get? group) with
  | some outcome =>
    rw [exec_run_of_obstacle environment.recorded hobstacle]
    exact .kept nofun rfl
  | none =>
    cases hfault : Identifier.firstFault targets with
    | some cause =>
      obtain ⟨e', -, hrun⟩ := exec_run_of_fault environment.recorded (r := r) (e := e) hobstacle
        hfault
      rw [hrun]
      refine .kept (fun ⟨_, _, husable⟩ => ?_) rfl
      rw [Identifier.firstFault_eq_none_iff.mpr husable] at hfault
      cases hfault
    | none =>
      have husable := Identifier.firstFault_eq_none_iff.mp hfault
      obtain ⟨e', _, _, _, hquiet, -, answer, sent, e'', outcome, r', ledgers', hsent, hrun,
        hending⟩ := exec_run_of_usable environment.recorded (r := r) (e := e) hobstacle husable
      obtain ⟨rfl, -, harrives⟩ := hsteady.recorded.transmit hsent
      have hup : Up e'.inner ↔ Up e.inner :=
        (hsteady.recorded.quiet hquiet).trans
          ((hsteady.drawUuid _).trans (hsteady.drawSecret e.inner))
      rw [hup] at harrives
      rw [hrun]
      cases hending with
      | committed _ =>
        refine .replaced ⟨harrives.mp ⟨_, rfl⟩, rfl, husable⟩ ?_ rfl
        rw [(Environment.transmit_recorded hsent).2, hquiet.recorded.2]
        exact List.mem_append_right e.secrets (List.mem_singleton.mpr rfl)
      | superseded hstale =>
        -- nobody else had a turn since the attempt was registered
        have hcurrent := InFlight.isCurrent_register r group
          (nextAttempt environment.recorded e).id (nextAttempt environment.recorded e).pair
        cases hstale.symm.trans hcurrent
      | outstanding error =>
        refine .kept (fun ⟨hyes, _⟩ => ?_) rfl
        obtain ⟨messageId, hanswer⟩ := harrives.mpr hyes
        cases hanswer

namespace Service

/-- **The rotation after a removal** replaces the key only if we are an administrator. -/
theorem rekeys_rotateAfterRemoval {current state : StoredGroup} {snapshot : GroupSnapshot}
    (hstored : ledgers.groups.get? snapshot.id = some state) (hlegacy : state.isLegacy = true)
    (hadmins : state.admins = current.admins) :
    Rekeys (Up e.inner ∧ config.account ∈ current.admins ∧ ∀ id ∈ snapshot.members, id.Usable)
      snapshot.id ⟨ledgers, e⟩
      ((rotateAfterRemoval (Ledgers.backend environment.recorded) config current snapshot).exec
        ⟨r, ⟨ledgers, e⟩⟩).2.outside := by
  have hallowed : Rotation.obstacle config.account (current.isAdmin config.account)
      (ledgers.groups.get? snapshot.id) = none ↔ config.account ∈ current.admins := by
    rw [hstored, obstacle_of_edited config.account hlegacy hadmins]
    split <;> simp [*]
  have hrun := Rotation.rekeys_run hsteady config ledgers (r := r) (e := e)
    snapshot.id snapshot.members (current.isAdmin config.account)
  rw [hallowed] at hrun
  unfold rotateAfterRemoval
  rw [Act.exec_tryCatch]
  -- an error of the rotation is caught, and leaves the world as it was
  generalize (Rotation.run _ _ _ _ _).exec _ = ran at hrun ⊢
  obtain ⟨result, after⟩ := ran
  cases result <;> exact hrun

/-- The announcement of a removal replaces the key just as the rotation after it does. -/
theorem rekeys_announceRemoval {current state : StoredGroup} {snapshot : GroupSnapshot}
    (hstored : ledgers.groups.get? snapshot.id = some state) (hlegacy : state.isLegacy = true)
    (hadmins : state.admins = current.admins) (ids : List Identifier) (identifier : String) :
    Rekeys (Up e.inner ∧ config.account ∈ current.admins ∧ ∀ id ∈ snapshot.members, id.Usable)
      snapshot.id ⟨ledgers, e⟩
      ((announceRemoval (Ledgers.backend environment.recorded) config current snapshot ids
        identifier).exec ⟨r, ⟨ledgers, e⟩⟩).2.outside := by
  unfold announceRemoval
  rw [Act.exec_bind_of_ok (Ledgers.exec_networkTime environment.recorded r ledgers e config)]
  generalize Message.create snapshot.id identifier _ (.removal ids) = announcement
  rcases hsent : environment.recorded.transmit (.toGroup snapshot.id announcement) r
    (environment.recorded.now e).2 with ⟨answer, r', e'⟩
  obtain ⟨-, hup, harrives⟩ := hsteady.recorded.transmit hsent
  have hnow : Up (environment.recorded.now e).2.inner ↔ Up e.inner := hsteady.now e.inner
  rw [hnow] at hup harrives
  rw [Act.exec_bind_of_ok (exec_deliver environment.recorded hsent)]
  cases answer with
  | error error =>
    refine .kept (fun ⟨hyes, _⟩ => ?_) rfl
    obtain ⟨messageId, hanswer⟩ := harrives.mpr hyes
    cases hanswer
  | ok messageId =>
    have hrotate := rekeys_rotateAfterRemoval hsteady config (r := r') (e := e') hstored hlegacy
      hadmins
    rw [hup] at hrotate
    rw [if_pos (Delivery.isConfirmed_ofResult_ok _ messageId), Act.exec_bind]
    generalize (rotateAfterRemoval _ _ _ _).exec _ = ran at hrotate ⊢
    obtain ⟨result, after⟩ := ran
    cases result <;> exact hrotate.congr Iff.rfl rfl rfl rfl

/-- Publishing a removal replaces the key just as its announcement does. -/
theorem rekeys_publish_removal {current state : StoredGroup} (snapshot : GroupSnapshot)
    (hstored : ledgers.groups.get? snapshot.id = some state) (hlegacy : state.isLegacy = true)
    (hadmins : state.admins = current.admins) (ids : List Identifier) (pair : Option KeyPair) :
    Rekeys (Up e.inner ∧ config.account ∈ current.admins ∧ ∀ id ∈ snapshot.members, id.Usable)
      snapshot.id ⟨ledgers, e⟩
      ((publish (Ledgers.backend environment.recorded) config current snapshot (.removed ids)
        pair).exec ⟨r, ⟨ledgers, e⟩⟩).2.outside := by
  have hchange : (Change.removed ids).announcement? = some (.removed ids) := if_neg nofun
  obtain ⟨notice, e', hquiet, _, _, _, _, _, hannounce, hpublish, _⟩ :=
    exec_publish_of_announcement environment.recorded config current snapshot (r := r) (e := e)
      hchange pair hstored
  -- a notice is none of the groups
  have hstill : ({ ledgers with groups := ledgers.groups.append notice } : Ledgers).groups.get?
      snapshot.id = some state := hstored
  have hremoval := rekeys_announceRemoval hsteady config (r := r) (e := e') hstill hlegacy hadmins
    ids notice.id
  unfold announce at hannounce
  rw [hannounce, hsteady.recorded.quiet hquiet] at hremoval
  rw [hpublish]
  exact hremoval.congr Iff.rfl rfl rfl rfl

/-- **Which edits replace the key of their group**, in a steady environment. -/
theorem rekeys_edit (hsound : ledgers.Sound) {group : Identifier} {name : String}
    {members : List Identifier} {report : EditReport} {after : World (Local (Recorded ε))}
    (hexec : (edit (Ledgers.backend environment.recorded) config group name members).exec
      ⟨r, ⟨ledgers, e⟩⟩ = (.ok report, after)) :
    ∃ current, ledgers.groups.get? group = some current ∧
      Rekeys ((∃ ids, report.change = .removed ids) ∧ Up e.inner ∧
          config.account ∈ current.admins ∧ ∀ id ∈ members, id.Usable)
        group ⟨ledgers, e⟩ after.outside := by
  obtain ⟨current, hallowed, hchange, -⟩ :=
    allowed_of_exec_edit environment.recorded config hsound hexec
  refine ⟨current, hallowed.stored, ?_⟩
  rw [hchange]
  by_cases hremoved : ∃ ids, current.changeOf name members = .removed ids
  · obtain ⟨ids, hids⟩ := hremoved
    obtain ⟨pair, -, hedit⟩ := exec_edit_of_allowed environment.recorded r e hsound hallowed
    have hid := hsound.filed hallowed.stored
    generalize (environment.recorded.now e).1 = activeAt at hedit
    have hlegacy : (current.updated (current.edited group name members activeAt)).isLegacy =
        true := by
      show (!current.id.isKeyed) = true
      rw [hid, hallowed.notKeyed]
      rfl
    have hpublish := rekeys_publish_removal hsteady config (r := r)
      (e := (environment.recorded.now e).2) (current.edited group name members activeAt)
      (ledgers.get?_written hid) hlegacy (current.admins_updated_edited group name members _)
      ids pair
    have hready : ((∃ ids, current.changeOf name members = .removed ids) ∧ Up e.inner ∧
        config.account ∈ current.admins ∧ ∀ id ∈ members, id.Usable) ↔
        Up (environment.recorded.now e).2.inner ∧ config.account ∈ current.admins ∧
          ∀ id ∈ (Roster.ofList members).toList, id.Usable := by
      rw [and_iff_right ⟨ids, hids⟩,
        show Up (environment.recorded.now e).2.inner ↔ Up e.inner from hsteady.now e.inner]
      simp only [Roster.mem_toList, Roster.mem_ofList]
    rw [hids] at hedit
    have hran := hexec.symm.trans hedit
    -- the edit has written the group, and none of the keys
    exact hpublish.congr hready rfl (congrArg (·.2.outside.ledgers.keys) hran)
      (congrArg (·.2.outside.environment.secrets) hran)
  · obtain ⟨notice, _, _, _, -, hedit, hspared⟩ :=
      exec_edit_spared environment.recorded config (r := r) (e := e) hsound hallowed
    cases hexec.symm.trans hedit
    have hhistory := hspared.ledgers.history group fun h => hremoved h.2
    -- neither the group nor a notice is a key
    cases notice <;> exact .kept (fun h => hremoved h.1) hhistory

end Service

end SealedGroup
