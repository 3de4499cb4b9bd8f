import SealedGroup.Proofs.Rotation.Confirmation
import SealedGroup.Proofs.Rotation.Outcomes

/-!
# Preparations that fail

A preparation reads the group, and if nothing stands in its way, draws a pair, registers it and
wraps it for the targets. `Rotation.Preparation` lists what this comes to, over any backend.

It fails if the group cannot be read, and then it has not got to the registry. And it fails if
the pair cannot be wrapped for some target. Then its attempt is withdrawn, and since an attempt
that is registered takes the place of the one before it, the group has none afterwards. So a
failed preparation leaves the registry alone exactly if it failed at the ledger, or if the group
had no attempt (`Rotation.failed_preparation_keeps_registry_iff`).

## The latest attempt of a group

A registry has one attempt for each group, the latest, and it has it from the moment of its
registration. Whether the latest attempt will be sent does not matter: an earlier one is
superseded by it from then on, and remains so when the latest one is withdrawn. Whoever was
waiting to confirm the earlier rotation finds it superseded
(`Rotation.failed_preparation_loses_earlier_attempt`). No other group is touched.

That order of things has a reason in the rule that it serves: the latest attempt wins, and a
pair that was superseded must not be committed. If the attempt before could come back, its pair
might be committed after a pair was drawn that was meant to follow it.

The failure is told by its cause. An error of the ledger stands for a preparation that has not
touched the registry, and the error of an encryption names the first target that has no key; the
two are the only errors there are.
-/

namespace SealedGroup

namespace Rotation

variable {σ : Type} {backend : Backend σ} {config : Config} {group : Identifier}
  {targets : List Identifier} {requesterIsAdmin : Bool} {r : InFlight} {s : σ}

/-- **What a preparation draws** if nothing stands in its way: a pair, and an identifier for its
attempt. -/
def drawAttempt (backend : Backend σ) : StateM σ Attempt := fun s =>
  let (secret, s) := backend.drawSecret s
  let (attempt, s) := backend.drawUuid s
  (⟨attempt, KeyPair.ofSecret secret⟩, s)

/-- **What a preparation comes to**: its result, and the world after it. -/
inductive Preparation (backend : Backend σ) (config : Config) (group : Identifier)
    (targets : List Identifier) (requesterIsAdmin : Bool) (r : InFlight) (s : σ) :
    Except ServiceError Rotation.Prepared → World σ → Prop
  /-- The group cannot be read. -/
  | unread {cause : LedgerError} {read : σ}
      (hload : backend.loadGroup group s = (.error cause, read)) :
      Preparation backend config group targets requesterIsAdmin r s (.error (.ledger cause))
        ⟨r, read⟩
  /-- Something stands in the way. -/
  | skipped {stored : Option StoredGroup} {outcome : Outcome} {read : σ}
      (hload : backend.loadGroup group s = (.ok stored, read))
      (hobstacle : obstacle config.account requesterIsAdmin stored = some outcome) :
      Preparation backend config group targets requesterIsAdmin r s (.ok (.skipped outcome))
        ⟨r, read⟩
  /-- The pair cannot be wrapped for some target, and no attempt of the group is left. -/
  | unwrapped {stored : Option StoredGroup} {attempt : Attempt} {cause : KeyPairError}
      {read drawn wrapped : σ} (hload : backend.loadGroup group s = (.ok stored, read))
      (hobstacle : obstacle config.account requesterIsAdmin stored = none)
      (hdraw : drawAttempt backend read = (attempt, drawn))
      (hwrap : Wrapper.wrapAll backend.drawCoins attempt.pair targets drawn =
        (.error cause, wrapped)) :
      Preparation backend config group targets requesterIsAdmin r s (.error (.encryption cause))
        ⟨r.erase group, wrapped⟩
  /-- The attempt is registered, and its message waits to be sent. -/
  | ready {stored : Option StoredGroup} {attempt : Attempt} {wrappers : List Wrapper}
      {identifier : Uuid} {now : Int64} {read drawn wrapped named timed : σ}
      (hload : backend.loadGroup group s = (.ok stored, read))
      (hobstacle : obstacle config.account requesterIsAdmin stored = none)
      (hdraw : drawAttempt backend read = (attempt, drawn))
      (hwrap : Wrapper.wrapAll backend.drawCoins attempt.pair targets drawn =
        (.ok wrappers, wrapped))
      (hname : backend.drawUuid wrapped = (identifier, named))
      (htime : backend.now named = (now, timed)) :
      Preparation backend config group targets requesterIsAdmin r s
        (.ok (.ready ⟨group, attempt.id, attempt.pair, Message.create group identifier.text
          (now + config.networkOffset) (.keyPair wrappers), targets.length⟩))
        ⟨r.register group attempt.id attempt.pair, timed⟩

/-- What stands in the way of a rotation is read off the stored group. -/
theorem exec_refusal_of_read {stored : Option StoredGroup} {read : σ}
    (hload : backend.loadGroup group s = (.ok stored, read)) :
    (refusal backend config group requesterIsAdmin).exec ⟨r, s⟩ =
      (.ok (obstacle config.account requesterIsAdmin stored), ⟨r, read⟩) := by
  unfold refusal
  rw [Act.exec_bind_of_ok (Act.exec_ledger_of_ok hload)]
  cases stored with
  | none => rfl
  | some state =>
    unfold obstacle
    dsimp only
    split
    · rfl
    · split <;> rfl

/-- **The second half of a preparation**, which starts when its attempt is registered: the pair
is wrapped for the targets, or the attempt taken back. -/
def wrapUp (backend : Backend σ) (config : Config) (group : Identifier)
    (targets : List Identifier) (attempt : Attempt) : Act σ Rotation.Prepared := do
  match ← Act.outside (Wrapper.wrapAll backend.drawCoins attempt.pair targets) with
  | .error cause =>
    let _ ← Act.registry fun r => r.withdraw group attempt.id
    throw (.encryption cause)
  | .ok wrappers =>
    let identifier ← Act.outside backend.drawUuid
    let createdAt ← config.networkTime backend
    pure (.ready ⟨group, attempt.id, attempt.pair,
      Message.create group identifier.text createdAt (.keyPair wrappers), targets.length⟩)

/-- The network time is a reading of the clock, shifted. -/
theorem exec_networkTime_of_eq (config : Config) {now : Int64} {s' : σ}
    (htime : backend.now s = (now, s')) :
    (config.networkTime backend).exec ⟨r, s⟩ = (.ok (now + config.networkOffset), ⟨r, s'⟩) := by
  unfold Config.networkTime
  rw [Act.exec_bind_of_ok (Act.exec_outside_of_eq htime)]
  rfl

/-- A preparation that nothing stands in the way of draws its attempt and registers it. -/
theorem exec_prepare_of_drawn {stored : Option StoredGroup} {attempt : Attempt} {read drawn : σ}
    (hload : backend.loadGroup group s = (.ok stored, read))
    (hobstacle : obstacle config.account requesterIsAdmin stored = none)
    (hdraw : drawAttempt backend read = (attempt, drawn)) :
    (prepare backend config group targets requesterIsAdmin).exec ⟨r, s⟩ =
      (wrapUp backend config group targets attempt).exec
        ⟨r.register group attempt.id attempt.pair, drawn⟩ := by
  cases hdraw
  unfold prepare
  rw [Act.exec_bind_of_ok (exec_refusal_of_read hload), hobstacle]
  rfl

/-- An attempt is taken back as long as it is the registered one, and with it the entry of its
group. -/
theorem withdraw_register (r : InFlight) (group : Identifier) (attempt : Attempt) :
    ((r.register group attempt.id attempt.pair).withdraw group attempt.id).2 = r.erase group := by
  unfold InFlight.withdraw
  rw [if_pos (InFlight.isCurrent_register ..)]
  exact InFlight.erase_register r group attempt.id attempt.pair

namespace Preparation

variable {result : Except ServiceError Rotation.Prepared} {after : World σ}

/-- What a preparation comes to is what happens. -/
theorem exec_eq (h : Preparation backend config group targets requesterIsAdmin r s result after) :
    (prepare backend config group targets requesterIsAdmin).exec ⟨r, s⟩ = (result, after) := by
  cases h with
  | unread hload =>
    unfold prepare refusal
    rw [Act.exec_bind_of_error (Act.exec_bind_of_error (Act.exec_ledger_of_error hload))]
  | skipped hload hobstacle =>
    unfold prepare
    rw [Act.exec_bind_of_ok (exec_refusal_of_read hload), hobstacle]
    rfl
  | @unwrapped stored attempt cause read drawn wrapped hload hobstacle hdraw hwrap =>
    rw [exec_prepare_of_drawn hload hobstacle hdraw, ← withdraw_register r group attempt]
    unfold wrapUp
    rw [Act.exec_bind_of_ok (Act.exec_outside_of_eq hwrap)]
    rfl
  | @ready stored attempt wrappers identifier now read drawn wrapped named timed hload hobstacle
      hdraw hwrap hname htime =>
    rw [exec_prepare_of_drawn hload hobstacle hdraw]
    unfold wrapUp
    rw [Act.exec_bind_of_ok (Act.exec_outside_of_eq hwrap)]
    dsimp only
    rw [Act.exec_bind_of_ok (Act.exec_outside_of_eq hname),
      Act.exec_bind_of_ok (exec_networkTime_of_eq config htime)]
    rfl

/-- Every preparation comes to something. -/
theorem total (backend : Backend σ) (config : Config) (group : Identifier)
    (targets : List Identifier) (requesterIsAdmin : Bool) (r : InFlight) (s : σ) :
    ∃ result after, Preparation backend config group targets requesterIsAdmin r s result after := by
  rcases hload : backend.loadGroup group s with ⟨cause | stored, read⟩
  · exact ⟨_, _, .unread hload⟩
  · cases hobstacle : obstacle config.account requesterIsAdmin stored with
    | some outcome => exact ⟨_, _, .skipped hload hobstacle⟩
    | none =>
      rcases hdraw : drawAttempt backend read with ⟨attempt, drawn⟩
      rcases hwrap : Wrapper.wrapAll backend.drawCoins attempt.pair targets drawn with
        ⟨cause | wrappers, wrapped⟩
      · exact ⟨_, _, .unwrapped hload hobstacle hdraw hwrap⟩
      · exact ⟨_, _, .ready hload hobstacle hdraw hwrap rfl rfl⟩

/-- **Every preparation comes to one of these**, and to the one that its calls decide. -/
theorem of_exec {world : World σ}
    (hexec : (prepare backend config group targets requesterIsAdmin).exec world =
      (result, after)) :
    Preparation backend config group targets requesterIsAdmin world.inFlight world.outside result
      after := by
  obtain ⟨result', after', h⟩ :=
    total backend config group targets requesterIsAdmin world.inFlight world.outside
  cases hexec.symm.trans h.exec_eq
  exact h

end Preparation

/-! ## What becomes of an earlier attempt -/

/-- **A failed preparation leaves the registry alone exactly if it did not get so far**, or if
there was no attempt of the group. It ends the rotation that it belongs to, and it never touches
the attempts of other groups. It fails because the group cannot be read, and then an attempt that
was registered for the group still stands; or because some target cannot be encrypted to, and
then that attempt is lost. -/
theorem failed_preparation_keeps_registry_iff {world after : World σ} {error : ServiceError}
    (hexec : (prepare backend config group targets requesterIsAdmin).exec world =
      (.error error, after)) :
    (run backend config group targets requesterIsAdmin).exec world = (.error error, after) ∧
    (∀ other, other ≠ group → after.inFlight.get? other = world.inFlight.get? other) ∧
    ((∃ cause, error = .ledger cause ∧ (backend.loadGroup group world.outside).1 = .error cause) ∨
      ∃ front bad rest cause, targets = front ++ bad :: rest ∧ (∀ id ∈ front, id.Usable) ∧
        bad.publicKey = .error cause ∧ error = .encryption (.invalidRecipient cause)) ∧
    (after.inFlight = world.inFlight ↔
      (∃ cause, error = .ledger cause) ∨ world.inFlight.get? group = none) ∧
    ∀ earlier pair, earlier.groupId = group →
      world.inFlight.get? group = some ⟨earlier.attempt, pair⟩ →
        ((∃ cause, error = .ledger cause) → Stands earlier pair after.inFlight) ∧
        ((∃ cause, error = .encryption cause) → Lost earlier after.inFlight) := by
  have hrun : (run backend config group targets requesterIsAdmin).exec world =
      (.error error, after) := by
    rw [exec_run, hexec]
  refine ⟨hrun, ?_⟩
  cases Preparation.of_exec hexec with
  | @unread cause read hload =>
    refine ⟨fun _ _ => rfl, .inl ⟨cause, rfl, congrArg Prod.fst hload⟩,
      iff_of_true rfl (.inl ⟨cause, rfl⟩), ?_⟩
    rintro earlier pair rfl hcurrent
    exact ⟨fun _ => stands_of_current hcurrent, nofun⟩
  | unwrapped hload hobstacle hdraw hwrap =>
    obtain ⟨cause, hfault, rfl⟩ := Wrapper.firstFault_of_wrapAll hwrap
    obtain ⟨front, bad, rest, htargets, hfront, hbad⟩ := Identifier.exists_of_firstFault hfault
    have hgone : (world.inFlight.erase group).get? group = none := InFlight.get?_erase_self ..
    refine ⟨fun other => InFlight.get?_erase_of_ne _,
      .inr ⟨front, bad, rest, cause, htargets, hfront, hbad, rfl⟩,
      ⟨fun hsame => .inr ?_, ?_⟩, ?_⟩
    · have hkept : world.inFlight.erase group = world.inFlight := hsame
      rwa [hkept] at hgone
    · rintro (⟨_, hledger⟩ | hnone)
      · cases hledger
      · -- the entry that is taken away was not there before
        refine InFlight.ext fun other => ?_
        rw [InFlight.get?_erase]
        split
        · next heq => rw [heq, hnone]
        · rfl
    · rintro earlier pair rfl _
      exact ⟨nofun, fun _ => lost_of_get?_eq_none hgone⟩

/-! ## Two rotations of a group -/

/-- **A rotation of our group is under way when the next one fails**, because it is to reach a
stranger to whom nothing can be encrypted. -/
theorem exec_prepare_twice :
    ∃ (earlier : Rotation.Pending) (before after : World (Local Nat)) (cause : KeyPairError),
      (prepare (Ledgers.backend Environment.counting) Config.sample StoredGroup.sample.id
          [Config.sample.account] true).exec ⟨InFlight.empty, ⟨Ledgers.sample, 0⟩⟩ =
        (.ok (.ready earlier), before) ∧
      (prepare (Ledgers.backend Environment.counting) Config.sample StoredGroup.sample.id
          [Config.sample.account, Identifier.stranger] true).exec before =
        (.error (.encryption cause), after) ∧
      earlier.groupId = StoredGroup.sample.id ∧ before.outside.ledgers = Ledgers.sample ∧
      before.inFlight.get? earlier.groupId = some ⟨earlier.attempt, earlier.pair⟩ ∧
      after.inFlight.get? earlier.groupId = none := by
  have hfaulty : (Identifier.firstFault [Config.sample.account, Identifier.stranger]).isSome =
    true := by decide +kernel
  obtain ⟨cause, hfault⟩ := Option.isSome_iff_exists.mp hfaulty
  obtain ⟨e, wrappers, identifier, createdAt, _, _, hfirst⟩ :=
    exec_prepare_of_usable Environment.counting (r := InFlight.empty) (e := 0)
      obstacle_sample (List.forall_mem_singleton.mpr usable_sample_account)
  obtain ⟨_, _, hsecond⟩ := exec_prepare_of_fault Environment.counting
    (r := InFlight.empty.register StoredGroup.sample.id _ _) (e := e) obstacle_sample hfault
  exact ⟨_, _, _, _, hfirst, hsecond, rfl, rfl, InFlight.get?_register_self ..,
    InFlight.get?_erase_self ..⟩

/-- The later one takes the place of the earlier one before it fails, and the registry is not what
it was: the earlier attempt is lost. -/
theorem failed_preparation_keeps_registry_iff_of_stranger :
    ∃ (earlier : Rotation.Pending) (before after : World (Local Nat)) (cause : KeyPairError),
      (prepare (Ledgers.backend Environment.counting) Config.sample StoredGroup.sample.id
          [Config.sample.account, Identifier.stranger] true).exec before =
        (.error (.encryption cause), after) ∧
      before.inFlight.get? StoredGroup.sample.id = some ⟨earlier.attempt, earlier.pair⟩ ∧
      after.inFlight ≠ before.inFlight ∧ Lost earlier after.inFlight := by
  obtain ⟨earlier, before, after, cause, _, hexec, hgroup, _, hcurrent, _⟩ := exec_prepare_twice
  rw [hgroup] at hcurrent
  obtain ⟨_, _, _, hkeeps, hearlier⟩ := failed_preparation_keeps_registry_iff hexec
  refine ⟨earlier, before, after, cause, hexec, hcurrent, fun hsame => ?_,
    (hearlier earlier _ hgroup hcurrent).2 ⟨cause, rfl⟩⟩
  rcases hkeeps.mp hsame with ⟨_, hledger⟩ | hnone
  · cases hledger
  · cases hcurrent.symm.trans hnone

/-- **A failed preparation can cost the group its earlier attempt**: a confirmation that would
have committed the earlier rotation is told, after the later one has failed, that the earlier one
was superseded. -/
theorem failed_preparation_loses_earlier_attempt :
    ∃ (earlier : Rotation.Pending) (before after : World (Local Nat)) (error : ServiceError),
      (prepare (Ledgers.backend Environment.counting) Config.sample StoredGroup.sample.id
          [Config.sample.account] true).exec ⟨InFlight.empty, ⟨Ledgers.sample, 0⟩⟩ =
        (.ok (.ready earlier), before) ∧
      (prepare (Ledgers.backend Environment.counting) Config.sample StoredGroup.sample.id
          [Config.sample.account, Identifier.stranger] true).exec before = (.error error, after) ∧
      after.inFlight ≠ before.inFlight ∧
      ((confirm (Ledgers.backend Environment.counting) earlier).exec before).1 =
        .ok (.committed earlier.pair.publicText earlier.recipients) ∧
      (confirm (Ledgers.backend Environment.counting) earlier).exec after =
        (.ok .superseded, after) := by
  obtain ⟨earlier, before, after, cause, hfirst, hsecond, hgroup, hledgers, hcurrent, hgone⟩ :=
    exec_prepare_twice
  have hconfirm := exec_confirm_of_current Environment.counting
    (e := before.outside.environment) hcurrent (hgroup ▸ Ledgers.get?_sample)
  rw [← hledgers] at hconfirm
  refine ⟨earlier, before, after, _, hfirst, hsecond, fun hsame => ?_, congrArg Prod.fst hconfirm,
    lost_of_get?_eq_none hgone _ _⟩
  rw [hsame, hcurrent] at hgone
  cases hgone

end Rotation

end SealedGroup
