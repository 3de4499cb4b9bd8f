import Mathlib.Data.List.Nodup
import Mathlib.Logic.Relation
import SealedGroup.Proofs.Rotation.Journal
import SealedGroup.Proofs.Rotation.Steps

/-!
# Interleaved rotations

Rotations of any number of groups run side by side, and so their steps come in any order:
preparations, confirmations (late ones, repeated ones, and some that never come), registrations
and withdrawals made by hand, and sends that take their time. An `Interleaving` is the world
together with what has happened to the registry so far and with every rotation that was ever
prepared, since any of these may be confirmed, and more than once.

Identifiers of attempts are never drawn twice, and a pair is new to the history of its group
when it is registered (`Interleaving.Fresh`). Then only the last attempt of a group can become
its key, no attempt is stored twice, and attempts are stored in the order in which they were
registered (`Interleaving.rotations_safe`).

## Steps and runs

Each step is the operation of the service itself, run on the world as it is, and what it
answered goes into the journal (`Interleaving.after`). The two halves of a rotation are steps of
their own, so that anything may happen between them; a transport that is slow, or answers twice,
or never, makes no difference to what may follow.

The invariant is `Interleaving.Safe`. It is seen from the interleaving that the run started in,
because what is claimed of a history is what was added to it: the pairs of some attempts, in
order, which are a sublist of the registered ones. That the current attempt is not among the
stored ones is what makes the next commit extend the sublist. Every operation preserves the
invariant (`Interleaving.Safe.step`), and so does every run (`Interleaving.Safe.run`).

In the example two rotations of one group are under way, and the first of them is confirmed
late.
-/

namespace SealedGroup

variable {ε : Type}

/-- **The world in the midst of rotations.** The pending ones are those that
were ever prepared. -/
structure Interleaving (ε : Type) where
  world : World (Local ε)
  journal : List InFlight.Event
  pendings : List Rotation.Pending

/-- **A step of some rotation**, or of someone else. -/
inductive Operation (ε : Type) where
  | prepare (group : Identifier) (targets : List Identifier) (requesterIsAdmin : Bool)
  | register (group : Identifier) (pair : KeyPair)
  | withdraw (group : Identifier) (attempt : Uuid)
  | confirm (pending : Rotation.Pending)
  /-- The send of a rotation is answered, and the rotation goes on. -/
  | answer (pending : Rotation.Pending) (sent : Except SendError String)
  /-- Whatever the environment does in between, sends among it. -/
  | wait (environment : ε)

namespace Rotation

variable {σ : Type}

/-- Registers a pair by hand, under a new identifier. -/
def register (backend : Backend σ) (group : Identifier) (pair : KeyPair) : Act σ Uuid := do
  let attempt ← Act.outside backend.drawUuid
  Act.registry fun r => (attempt, r.register group attempt pair)

/-- Withdraws an attempt by hand, and tells whether it was current. -/
def withdraw (group : Identifier) (attempt : Uuid) : Act σ Bool :=
  Act.registry fun r => r.withdraw group attempt

end Rotation

namespace Interleaving

open InFlight (Event LastRegistered Tracks registrations issued commits)

/-- The rows of a group, oldest first. -/
def history (s : Interleaving ε) (group : Identifier) : List KeyRow :=
  s.world.outside.ledgers.keys.history group

variable (environment : Environment ε) (config : Config)

/-- What is entered into the journal when a rotation was settled. -/
def settled (pending : Rotation.Pending) : Except ServiceError Rotation.Outcome → List Event
  | .ok (.committed ..) => [.committed pending.groupId pending.attempt]
  | _ => []

/-- **The interleaving after a step.** Each step is the operation of the service
itself, and what it answered goes into the journal. -/
def after (s : Interleaving ε) : Operation ε → Interleaving ε
  | .prepare group targets requesterIsAdmin =>
    match (Rotation.prepare (Ledgers.backend environment) config group targets
      requesterIsAdmin).exec s.world with
    | (.ok (.ready pending), world) =>
      { world := world
        journal := s.journal ++ [.registered group ⟨pending.attempt, pending.pair⟩]
        pendings := s.pendings ++ [pending] }
    | (.ok (.skipped _), world) => { s with world := world }
    | (.error _, world) =>
      let attempt := Rotation.nextAttempt environment s.world.outside.environment
      { s with
        world := world
        journal := s.journal ++ [.registered group attempt] ++ [.withdrawn group attempt.id] }
  | .register group pair =>
    match (Rotation.register (Ledgers.backend environment) group pair).exec s.world with
    | (.ok id, world) =>
      { s with world := world, journal := s.journal ++ [.registered group ⟨id, pair⟩] }
    | (.error _, world) => { s with world := world }
  | .withdraw group attempt =>
    match (Rotation.withdraw group attempt).exec s.world with
    | (.ok true, world) =>
      { s with world := world, journal := s.journal ++ [.withdrawn group attempt] }
    | (_, world) => { s with world := world }
  | .confirm pending =>
    let (result, world) := (Rotation.confirm (Ledgers.backend environment) pending).exec s.world
    { s with world := world, journal := s.journal ++ settled pending result }
  | .answer pending sent =>
    let (result, world) :=
      (Rotation.resume (Ledgers.backend environment) pending sent).exec s.world
    { s with world := world, journal := s.journal ++ settled pending result }
  | .wait e =>
    { s with world := ⟨s.world.inFlight, ⟨s.world.outside.ledgers, e⟩⟩ }

/-- **A new attempt**: its identifier was never given out, and its pair is not
in the history of its group. -/
def Fresh (s : Interleaving ε) (group : Identifier) (attempt : Attempt) : Prop :=
  attempt.id ∉ issued s.journal ∧ attempt.pair.toRow ∉ s.history group

/-- The steps that may be taken: what is drawn is new, and what is confirmed
was prepared. -/
def Allows (s : Interleaving ε) : Operation ε → Prop
  | .prepare group _ requesterIsAdmin =>
    Rotation.obstacle config.account requesterIsAdmin
        (s.world.outside.ledgers.groups.get? group) = none →
      s.Fresh group (Rotation.nextAttempt environment s.world.outside.environment)
  | .register .. => (environment.drawUuid s.world.outside.environment).1 ∉ issued s.journal
  | .withdraw .. | .wait _ => True
  | .confirm pending | .answer pending _ => pending ∈ s.pendings

/-- **One step of the interleaving.** -/
def Step (s s' : Interleaving ε) : Prop :=
  ∃ operation, Allows environment config s operation ∧ s' = s.after environment config operation

/-- **Before the first step**: the ledgers hold whatever they may hold, and no
rotation was ever made. -/
structure Initial (s : Interleaving ε) : Prop where
  reachable : s.world.outside.ledgers.Reachable
  idle : s.world.inFlight = InFlight.empty
  journal : s.journal = []
  pendings : s.pendings = []

/-! ## What every step preserves -/

/-- **What holds in the midst of rotations**, seen from the interleaving that
they started in. -/
structure Safe (start s : Interleaving ε) : Prop where
  sound : s.world.outside.ledgers.Sound
  distinct : (issued s.journal).Nodup
  tracks : Tracks s.world.inFlight s.journal
  prepared : ∀ pending ∈ s.pendings,
    .registered pending.groupId ⟨pending.attempt, pending.pair⟩ ∈ s.journal ∧
      ∃ state, s.world.outside.ledgers.groups.get? pending.groupId = some state
  fresh : ∀ pending ∈ s.pendings,
    s.world.inFlight.get? pending.groupId = some ⟨pending.attempt, pending.pair⟩ →
      pending.pair.toRow ∉ s.history pending.groupId
  ordered : ∀ group, ∃ stored : List Attempt,
    s.history group = start.history group ++ stored.map (fun attempt => attempt.pair.toRow) ∧
      stored.map Attempt.id = commits group s.journal ∧
      stored.Sublist (registrations group s.journal) ∧
      ∀ attempt, s.world.inFlight.get? group = some attempt → attempt ∉ stored

variable {environment config}
variable {start : Interleaving ε} {r : InFlight} {ledgers : Ledgers} {e : ε}
  {journal : List Event} {pendings : List Rotation.Pending}

/-- Nothing has happened yet, and everything is as it should be. -/
theorem Initial.safe (h : Initial start) : Safe start start := by
  obtain ⟨⟨r, ⟨ledgers, e⟩⟩, journal, pendings⟩ := start
  obtain ⟨hreachable, hidle, hjournal, hpendings⟩ := h
  dsimp only at hreachable hidle hjournal hpendings
  subst hidle hjournal hpendings
  exact {
    sound := hreachable.sound
    distinct := List.nodup_nil
    tracks := InFlight.tracks_empty
    prepared := fun pending hmem => absurd hmem List.not_mem_nil
    fresh := fun pending hmem => absurd hmem List.not_mem_nil
    ordered := fun group =>
      ⟨[], (List.append_nil _).symm, rfl, .slnil, fun _ _ => List.not_mem_nil⟩ }

/-- What the environment does is of no concern. -/
theorem Safe.wait (h : Safe start ⟨⟨r, ⟨ledgers, e⟩⟩, journal, pendings⟩) (e' : ε) :
    Safe start ⟨⟨r, ⟨ledgers, e'⟩⟩, journal, pendings⟩ where
  sound := h.sound
  distinct := h.distinct
  tracks := h.tracks
  prepared := h.prepared
  fresh := h.fresh
  ordered := h.ordered

/-- One more prepared rotation is kept, if it is the one that was registered. -/
theorem Safe.keep (h : Safe start ⟨⟨r, ⟨ledgers, e⟩⟩, journal, pendings⟩)
    {pending : Rotation.Pending} {state : StoredGroup}
    (hmem : .registered pending.groupId ⟨pending.attempt, pending.pair⟩ ∈ journal)
    (hstored : ledgers.groups.get? pending.groupId = some state)
    (hnew : pending.pair.toRow ∉ ledgers.keys.history pending.groupId) :
    Safe start ⟨⟨r, ⟨ledgers, e⟩⟩, journal, pendings ++ [pending]⟩ where
  sound := h.sound
  distinct := h.distinct
  tracks := h.tracks
  prepared := by
    intro other hother
    rcases List.mem_append.mp hother with hold | hlast
    · exact h.prepared other hold
    · rw [List.mem_singleton.mp hlast]
      exact ⟨hmem, state, hstored⟩
  fresh := by
    intro other hother hget
    rcases List.mem_append.mp hother with hold | hlast
    · exact h.fresh other hold hget
    · rw [List.mem_singleton.mp hlast]
      exact hnew
  ordered := h.ordered

/-- An attempt that was never registered was never stored either. -/
theorem not_mem_of_not_issued {stored : List Attempt} {group : Identifier} {attempt : Attempt}
    (hstored : stored.Sublist (registrations group journal)) (hid : attempt.id ∉ issued journal) :
    attempt ∉ stored := fun hmem =>
  hid (InFlight.mem_issued.mpr
    ⟨group, attempt, InFlight.mem_registrations.mp (hstored.subset hmem), rfl⟩)

/-- A registration leaves the attempts of other groups, and no prepared one is
the new one. -/
theorem get?_of_get?_register {group : Identifier} {id : Uuid} {pair : KeyPair}
    {pending : Rotation.Pending} (hid : id ∉ issued journal)
    (hmem : .registered pending.groupId ⟨pending.attempt, pending.pair⟩ ∈ journal)
    (hget : (r.register group id pair).get? pending.groupId =
      some ⟨pending.attempt, pending.pair⟩) :
    r.get? pending.groupId = some ⟨pending.attempt, pending.pair⟩ := by
  rw [InFlight.get?_register] at hget
  by_cases hgroup : pending.groupId = group
  · rw [if_pos hgroup] at hget
    cases hget
    exact absurd (InFlight.mem_issued.mpr ⟨_, _, hmem, rfl⟩) hid
  · rwa [if_neg hgroup] at hget

/-- **A new attempt is registered.** -/
theorem Safe.register (h : Safe start ⟨⟨r, ⟨ledgers, e⟩⟩, journal, pendings⟩)
    (group : Identifier) {id : Uuid} (pair : KeyPair) (hid : id ∉ issued journal) :
    Safe start ⟨⟨r.register group id pair, ⟨ledgers, e⟩⟩,
      journal ++ [.registered group ⟨id, pair⟩], pendings⟩ where
  sound := h.sound
  distinct := by
    show (issued (journal ++ [.registered group ⟨id, pair⟩])).Nodup
    rw [InFlight.issued_append]
    refine List.nodup_append.mpr ⟨h.distinct, List.nodup_singleton id, fun a ha b hb hab => ?_⟩
    rw [hab, List.mem_singleton.mp hb] at ha
    exact hid ha
  tracks := h.tracks.register group id pair
  prepared := fun pending hmem =>
    ⟨List.mem_append_left _ (h.prepared pending hmem).1, (h.prepared pending hmem).2⟩
  fresh := fun pending hmem hget =>
    h.fresh pending hmem (get?_of_get?_register hid (h.prepared pending hmem).1 hget)
  ordered := by
    intro other
    obtain ⟨stored, hhistory, hcommits, hsublist, hcurrent⟩ := h.ordered other
    refine ⟨stored, hhistory, ?_, ?_, ?_⟩
    · rw [InFlight.commits_concat]
      exact hcommits.trans (List.append_nil _).symm
    · rw [InFlight.registrations_concat]
      exact hsublist.trans (List.sublist_append_left _ _)
    · intro attempt hget
      rw [show (r.register group id pair).get? other = _ from InFlight.get?_register ..] at hget
      by_cases hother : other = group
      · -- the attempt is the new one, and none by its name was ever stored
        rw [if_pos hother] at hget
        cases hget
        exact not_mem_of_not_issued hsublist hid
      · rw [if_neg hother] at hget
        exact hcurrent attempt hget

/-- **The current attempt is withdrawn.** -/
theorem Safe.withdraw (h : Safe start ⟨⟨r, ⟨ledgers, e⟩⟩, journal, pendings⟩)
    {group : Identifier} {id : Uuid} {pair : KeyPair} (hget : r.get? group = some ⟨id, pair⟩) :
    Safe start ⟨⟨r.erase group, ⟨ledgers, e⟩⟩, journal ++ [.withdrawn group id], pendings⟩ where
  sound := h.sound
  distinct := by
    show (issued (journal ++ [.withdrawn group id])).Nodup
    rw [InFlight.issued_append]
    exact (List.append_nil (issued journal)).symm ▸ h.distinct
  tracks := h.tracks.end hget (fun _ _ => Iff.rfl) (fun _ _ => nofun)
  prepared := fun pending hmem =>
    ⟨List.mem_append_left _ (h.prepared pending hmem).1, (h.prepared pending hmem).2⟩
  fresh := fun pending hmem hother =>
    h.fresh pending hmem (InFlight.get?_of_get?_erase hother)
  ordered := by
    intro other
    obtain ⟨stored, hhistory, hcommits, hsublist, hcurrent⟩ := h.ordered other
    refine ⟨stored, hhistory, ?_, ?_, fun attempt hother => ?_⟩
    · rw [InFlight.commits_concat]
      exact hcommits.trans (List.append_nil _).symm
    · rw [InFlight.registrations_concat]
      exact hsublist.trans (List.sublist_append_left _ _)
    · exact hcurrent attempt (InFlight.get?_of_get?_erase hother)

/-- The current attempt of a group was the last one registered for it, so that
it may follow the attempts that were stored. -/
theorem sublist_concat_of_lastRegistered {group : Identifier} {attempt : Attempt}
    {stored : List Attempt} (hlast : LastRegistered journal group attempt)
    (hstored : stored.Sublist (registrations group journal)) (hnot : attempt ∉ stored) :
    (stored ++ [attempt]).Sublist (registrations group journal) := by
  obtain ⟨earlier, hearlier⟩ := hlast.registrations_eq
  rw [hearlier] at hstored ⊢
  obtain ⟨front, back, rfl, hfront, hback⟩ := List.sublist_append_iff.mp hstored
  have hnil : back = [] := by
    rcases List.sublist_singleton.mp hback with hnil | rfl
    · exact hnil
    · exact absurd (List.mem_append_right _ (List.mem_singleton_self _)) hnot
  rw [hnil, List.append_nil]
  exact hfront.append_right [attempt]

/-- **The current attempt is committed**, and its pair is stored. -/
theorem Safe.commit (h : Safe start ⟨⟨r, ⟨ledgers, e⟩⟩, journal, pendings⟩)
    {group : Identifier} {id : Uuid} {pair : KeyPair} (hget : r.get? group = some ⟨id, pair⟩)
    (hnew : pair.toRow ∉ ledgers.keys.history group) :
    Safe start ⟨⟨r.erase group, ⟨⟨ledgers.groups.committed group,
      (ledgers.keys.add group pair).2⟩, e⟩⟩, journal ++ [.committed group id], pendings⟩ where
  sound := (h.sound.add group pair).of_get? fun _ => rfl
  distinct := by
    show (issued (journal ++ [.committed group id])).Nodup
    rw [InFlight.issued_append]
    exact (List.append_nil (issued journal)).symm ▸ h.distinct
  tracks := h.tracks.end hget (fun _ _ => Iff.rfl) (fun _ _ => nofun)
  prepared := fun pending hmem =>
    ⟨List.mem_append_left _ (h.prepared pending hmem).1, (h.prepared pending hmem).2⟩
  fresh := by
    intro pending hmem hother
    have hne : pending.groupId ≠ group := InFlight.ne_of_get?_erase hother
    show _ ∉ (ledgers.keys.add group pair).2.history pending.groupId
    rw [KeyLedger.history_add_of_ne pair hne]
    exact h.fresh pending hmem (InFlight.get?_of_get?_erase hother)
  ordered := by
    intro other
    obtain ⟨stored, hhistory, hcommits, hsublist, hcurrent⟩ := h.ordered other
    rw [InFlight.commits_concat, InFlight.registrations_concat]
    by_cases hother : other = group
    · subst hother
      -- the pair comes last, and its attempt is the last one registered
      refine ⟨stored ++ [⟨id, pair⟩], ?_, ?_, ?_, fun attempt hnone => ?_⟩
      · show (ledgers.keys.add other pair).2.history other = _
        rw [KeyLedger.history_add_of_not_mem hnew, List.map_append, ← List.append_assoc,
          ← hhistory]
        rfl
      · rw [List.map_append, hcommits, InFlight.Event.commit?, if_pos rfl]
        rfl
      · exact (List.append_nil (registrations other journal)).symm ▸
          sublist_concat_of_lastRegistered ((h.tracks _ _).mp hget) hsublist (hcurrent _ hget)
      · exact absurd rfl (InFlight.ne_of_get?_erase hnone)
    · refine ⟨stored, ?_, ?_, ?_, fun attempt hcur => ?_⟩
      · show (ledgers.keys.add group pair).2.history other = _
        rw [KeyLedger.history_add_of_ne pair hother]
        exact hhistory
      · rw [InFlight.Event.commit?, if_neg (Ne.symm hother)]
        exact hcommits.trans (List.append_nil _).symm
      · exact hsublist.trans (List.sublist_append_left _ _)
      · exact hcurrent attempt (InFlight.get?_of_get?_erase hcur)

/-- **A confirmation** stores the pair of the last attempt of its group, and
does nothing for any other attempt. -/
theorem Safe.confirm_cases (h : Safe start ⟨⟨r, ⟨ledgers, e⟩⟩, journal, pendings⟩)
    (environment : Environment ε) {pending : Rotation.Pending} (hmem : pending ∈ pendings) :
    (LastRegistered journal pending.groupId ⟨pending.attempt, pending.pair⟩ ∧
      (Rotation.confirm (Ledgers.backend environment) pending).exec ⟨r, ⟨ledgers, e⟩⟩ =
        (.ok (.committed pending.pair.publicText pending.recipients),
          ⟨r.erase pending.groupId, ⟨⟨ledgers.groups.committed pending.groupId,
            (ledgers.keys.add pending.groupId pending.pair).2⟩, e⟩⟩)) ∨
    (¬LastRegistered journal pending.groupId ⟨pending.attempt, pending.pair⟩ ∧
      (Rotation.confirm (Ledgers.backend environment) pending).exec ⟨r, ⟨ledgers, e⟩⟩ =
        (.ok .superseded, ⟨r, ⟨ledgers, e⟩⟩)) := by
  obtain ⟨hregistered, state, hstored⟩ := h.prepared pending hmem
  cases hcurrent : r.isCurrent pending.groupId pending.attempt with
  | true =>
    obtain ⟨pair, hlast⟩ := h.tracks.isCurrent_iff.mp hcurrent
    -- the registry holds the pair of this very rotation
    obtain ⟨_, heq⟩ := InFlight.eq_of_registered h.distinct hlast.mem hregistered rfl
    cases heq
    exact .inl ⟨hlast, Rotation.exec_confirm_of_current environment
      ((h.tracks _ _).mpr hlast) hstored⟩
  | false =>
    refine .inr ⟨fun hlast => ?_, Rotation.exec_confirm_of_stale environment hcurrent⟩
    have hyes : r.isCurrent pending.groupId pending.attempt = true :=
      h.tracks.isCurrent_iff.mpr ⟨_, hlast⟩
    rw [hcurrent] at hyes
    cases hyes

theorem Safe.after_confirm {s : Interleaving ε} (h : Safe start s)
    (environment : Environment ε) (config : Config) {pending : Rotation.Pending}
    (hmem : pending ∈ s.pendings) :
    Safe start (s.after environment config (.confirm pending)) := by
  obtain ⟨⟨r, ⟨ledgers, e⟩⟩, journal, pendings⟩ := s
  unfold after
  dsimp only
  rcases h.confirm_cases environment hmem with ⟨hlast, hexec⟩ | ⟨_, hexec⟩
  · rw [hexec]
    have hget := (h.tracks _ _).mpr hlast
    exact h.commit hget (h.fresh pending hmem hget)
  · rw [hexec]
    exact (List.append_nil journal).symm ▸ h

theorem Safe.after_withdraw {s : Interleaving ε} (h : Safe start s) (group : Identifier)
    (attempt : Uuid) : Safe start (s.after environment config (.withdraw group attempt)) := by
  obtain ⟨⟨r, ⟨ledgers, e⟩⟩, journal, pendings⟩ := s
  unfold after Rotation.withdraw
  dsimp only
  rw [Act.exec_registry]
  cases hcurrent : r.isCurrent group attempt with
  | true =>
    obtain ⟨pair, hget⟩ := InFlight.isCurrent_iff.mp hcurrent
    rw [InFlight.withdraw, if_pos hcurrent]
    exact h.withdraw hget
  | false =>
    rw [InFlight.withdraw, if_neg (ne_true_of_eq_false hcurrent)]
    exact h

/-- A preparation that can wrap for all targets leaves a registered attempt and
the rotation to be confirmed. -/
theorem after_prepare_of_usable (environment : Environment ε) (journal : List Event)
    (pendings : List Rotation.Pending) {group : Identifier} {targets : List Identifier}
    {requesterIsAdmin : Bool}
    (h : Rotation.obstacle config.account requesterIsAdmin (ledgers.groups.get? group) = none)
    (husable : ∀ id ∈ targets, id.Usable) :
    ∃ e' pending, pending.groupId = group ∧ pending.recipients = targets.length ∧
      ⟨pending.attempt, pending.pair⟩ = Rotation.nextAttempt environment e ∧
      after environment config ⟨⟨r, ⟨ledgers, e⟩⟩, journal, pendings⟩
          (.prepare group targets requesterIsAdmin) =
        ⟨⟨r.register group pending.attempt pending.pair, ⟨ledgers, e'⟩⟩,
          journal ++ [.registered group ⟨pending.attempt, pending.pair⟩],
          pendings ++ [pending]⟩ := by
  obtain ⟨e', wrappers, identifier, createdAt, _, _, hexec⟩ :=
    Rotation.exec_prepare_of_usable environment (r := r) (e := e) h husable
  refine ⟨e', Rotation.nextPending environment e group targets
    (Message.create group identifier createdAt (.keyPair wrappers)), rfl, rfl, rfl, ?_⟩
  unfold after
  dsimp only
  rw [hexec]
  rfl

theorem Safe.after_prepare {s : Interleaving ε} (h : Safe start s) {group : Identifier}
    {targets : List Identifier} {requesterIsAdmin : Bool}
    (hallows : Allows environment config s (.prepare group targets requesterIsAdmin)) :
    Safe start (s.after environment config (.prepare group targets requesterIsAdmin)) := by
  obtain ⟨⟨r, ⟨ledgers, e⟩⟩, journal, pendings⟩ := s
  cases hobstacle : Rotation.obstacle config.account requesterIsAdmin
    (ledgers.groups.get? group) with
  | some outcome =>
    unfold after
    dsimp only
    rw [Rotation.exec_prepare_of_obstacle environment hobstacle]
    exact h
  | none =>
    obtain ⟨hid, hnew⟩ := hallows hobstacle
    have hregister := h.register group (Rotation.nextAttempt environment e).pair hid
    cases hfault : Identifier.firstFault targets with
    | some cause =>
      -- the attempt is registered and taken back at once
      obtain ⟨e', _, hexec⟩ :=
        Rotation.exec_prepare_of_fault environment (r := r) (e := e) hobstacle hfault
      have hget : (r.register group (Rotation.nextAttempt environment e).id
          (Rotation.nextAttempt environment e).pair).get? group =
            some (Rotation.nextAttempt environment e) := InFlight.get?_register_self ..
      unfold after
      dsimp only
      rw [hexec]
      exact (hregister.withdraw hget).wait e'
    | none =>
      obtain ⟨e', pending, rfl, _, hattempt, hafter⟩ :=
        after_prepare_of_usable environment journal pendings (r := r) (e := e) hobstacle
          (Identifier.firstFault_eq_none_iff.mp hfault)
      obtain ⟨state, hstored, _⟩ := Rotation.obstacle_eq_none_iff.mp hobstacle
      rw [← hattempt] at hregister hnew
      rw [hafter]
      exact (hregister.wait e').keep
        (List.mem_append_right _ (List.mem_singleton_self _)) hstored hnew

/-- **Every step preserves safety.** -/
theorem Safe.step {s s' : Interleaving ε} (h : Safe start s)
    (hstep : Step environment config s s') : Safe start s' := by
  obtain ⟨operation, hallows, rfl⟩ := hstep
  cases operation with
  | prepare group targets requesterIsAdmin => exact h.after_prepare hallows
  | register group pair =>
    obtain ⟨⟨r, ⟨ledgers, e⟩⟩, journal, pendings⟩ := s
    exact (h.register group pair hallows).wait _
  | withdraw group attempt => exact h.after_withdraw group attempt
  | confirm pending => exact h.after_confirm environment config hallows
  | answer pending sent =>
    cases sent with
    | ok id => exact h.after_confirm environment config hallows
    | error e =>
      show Safe start { s with journal := s.journal ++ [] }
      rw [List.append_nil]
      exact h
  | wait e =>
    obtain ⟨⟨r, ⟨ledgers, e'⟩⟩, journal, pendings⟩ := s
    exact h.wait e

/-- **Every run preserves safety.** -/
theorem Safe.run {s : Interleaving ε} (h : Safe start start)
    (hrun : Relation.ReflTransGen (Step environment config) start s) : Safe start s := by
  induction hrun with
  | refl => exact h
  | tail _ hstep ih => exact ih.step hstep

/-! ## Every interleaving is safe -/

/-- **Rotations are safe, however they are interleaved.** The pairs that were
added to the history of a group are those of its committed attempts, each
once, in the order in which the attempts were registered. And whichever of the
prepared rotations is confirmed now, a history changes only if its attempt is
the last one registered for the group and was neither withdrawn nor committed
since; it is answered as committed exactly if its pair is added, and what is
reported is then the latest key of the group. -/
theorem rotations_safe {s : Interleaving ε} (hstart : Initial start)
    (hrun : Relation.ReflTransGen (Step environment config) start s) :
    (∀ group, ∃ stored : List Attempt,
      s.history group = start.history group ++ stored.map (fun attempt => attempt.pair.toRow) ∧
        stored.map Attempt.id = commits group s.journal ∧
        stored.Sublist (registrations group s.journal) ∧ (stored.map Attempt.id).Nodup) ∧
    ∀ pending ∈ s.pendings, ∀ result world,
      (Rotation.confirm (Ledgers.backend environment) pending).exec s.world = (result, world) →
        ((∃ group, world.outside.ledgers.keys.history group ≠ s.history group) →
          LastRegistered s.journal pending.groupId ⟨pending.attempt, pending.pair⟩) ∧
        ((∃ publicKey recipients, result = .ok (.committed publicKey recipients)) ↔
          world.outside.ledgers.keys.history pending.groupId =
            s.history pending.groupId ++ [pending.pair.toRow]) ∧
        (∀ publicKey recipients, result = .ok (.committed publicKey recipients) →
          ∃ pair, world.outside.ledgers.keys.latest pending.groupId = .ok (some pair) ∧
            publicKey = pair.publicText) ∧
        ((¬∃ publicKey recipients, result = .ok (.committed publicKey recipients)) →
          result = .ok .superseded ∧ world = s.world) := by
  have h := hstart.safe.run hrun
  refine ⟨fun group => ?_, fun pending hmem result world hexec => ?_⟩
  · obtain ⟨stored, hhistory, hcommits, hsublist, _⟩ := h.ordered group
    refine ⟨stored, hhistory, hcommits, hsublist, h.distinct.sublist ?_⟩
    exact (hsublist.map Attempt.id).trans (InFlight.registrations_sublist group s.journal)
  · obtain ⟨⟨r, ⟨ledgers, e⟩⟩, journal, pendings⟩ := s
    rcases h.confirm_cases environment hmem with ⟨hlast, hyes⟩ | ⟨_, hno⟩
    · obtain ⟨rfl, rfl⟩ := Prod.mk.inj (hexec.symm.trans hyes)
      have hhistory := KeyLedger.history_add_of_not_mem
        (h.fresh pending hmem ((h.tracks _ _).mpr hlast))
      refine ⟨fun _ => hlast, ⟨fun _ => hhistory, fun _ => ⟨_, _, rfl⟩⟩, ?_, ?_⟩
      · rintro publicKey recipients hcommitted
        cases hcommitted
        exact ⟨pending.pair, KeyLedger.latest_of_history_eq hhistory, rfl⟩
      · exact fun hnot => absurd ⟨_, _, rfl⟩ hnot
    · obtain ⟨rfl, rfl⟩ := Prod.mk.inj (hexec.symm.trans hno)
      refine ⟨?_, ⟨?_, fun hgrown => ?_⟩, nofun, fun _ => ⟨rfl, rfl⟩⟩
      · rintro ⟨group, hchanged⟩
        exact absurd rfl hchanged
      · rintro ⟨publicKey, recipients, hcommitted⟩
        cases hcommitted
      · -- nothing was stored, and no history is itself with one more row
        exact absurd (List.self_eq_append_right.mp hgrown) (List.cons_ne_nil _ _)

/-- Others draw until the draws are as many as given, and then one more rotation of the group of
two is prepared. -/
theorem run_prepare_sample (r : InFlight) (journal : List Event)
    (pendings : List Rotation.Pending) (e n : Nat)
    (hid : (Rotation.nextAttempt Environment.counting n).id ∉ issued journal) :
    ∃ e' pending, pending.groupId = StoredGroup.sample.id ∧ pending.recipients = 1 ∧
      pending.attempt = (Rotation.nextAttempt Environment.counting n).id ∧
      pending.pair = (Rotation.nextAttempt Environment.counting n).pair ∧
      Relation.ReflTransGen (Step Environment.counting Config.sample)
        ⟨⟨r, ⟨Ledgers.sample, e⟩⟩, journal, pendings⟩
        ⟨⟨r.register StoredGroup.sample.id pending.attempt pending.pair, ⟨Ledgers.sample, e'⟩⟩,
          journal ++ [.registered StoredGroup.sample.id ⟨pending.attempt, pending.pair⟩],
          pendings ++ [pending]⟩ := by
  obtain ⟨e', pending, hgroup, hrecipients, hattempt, hafter⟩ :=
    after_prepare_of_usable Environment.counting journal pendings (r := r) (e := n)
      Rotation.obstacle_sample (List.forall_mem_singleton.mpr Rotation.usable_sample_account)
  have hwait : Step Environment.counting Config.sample
      ⟨⟨r, ⟨Ledgers.sample, e⟩⟩, journal, pendings⟩
      ⟨⟨r, ⟨Ledgers.sample, n⟩⟩, journal, pendings⟩ := ⟨.wait n, trivial, rfl⟩
  exact ⟨e', pending, hgroup, hrecipients, congrArg Attempt.id hattempt,
    congrArg Attempt.pair hattempt, (Relation.ReflTransGen.single hwait).tail
      ⟨.prepare StoredGroup.sample.id [Config.sample.account] true,
        fun _ => ⟨hid, List.not_mem_nil⟩, hafter.symm⟩⟩

/-- **Two rotations of the group of two are under way**, and the second is the registered one. -/
theorem exists_two_under_way :
    ∃ (late : Interleaving Nat) (first second : Rotation.Pending),
      Relation.ReflTransGen (Step Environment.counting Config.sample)
        ⟨⟨InFlight.empty, ⟨Ledgers.sample, 0⟩⟩, [], []⟩ late ∧
      first ∈ late.pendings ∧ second ∈ late.pendings ∧ second.recipients = 1 ∧
      first.groupId = StoredGroup.sample.id ∧ second.groupId = StoredGroup.sample.id ∧
      first.attempt ≠ second.attempt ∧ first.pair ≠ second.pair ∧
      late.world.outside.ledgers = Ledgers.sample ∧
      late.world.inFlight.get? StoredGroup.sample.id = some ⟨second.attempt, second.pair⟩ := by
  obtain ⟨e₁, first, hgroup₁, _, hid₁, hpair₁, hfirst⟩ :=
    run_prepare_sample InFlight.empty [] [] 0 0 List.not_mem_nil
  have hissued : issued ([] ++ [.registered StoredGroup.sample.id ⟨first.attempt, first.pair⟩]) =
      [first.attempt] := rfl
  have hnew : (Rotation.nextAttempt Environment.counting 2).id ∉
      issued ([] ++ [.registered StoredGroup.sample.id ⟨first.attempt, first.pair⟩]) := by
    rw [hissued, hid₁]
    decide
  obtain ⟨e₂, second, hgroup₂, hrecipients, hid₂, hpair₂, hsecond⟩ := run_prepare_sample
    (InFlight.empty.register StoredGroup.sample.id first.attempt first.pair) _ ([] ++ [first])
    e₁ 2 hnew
  refine ⟨_, first, second, hfirst.trans hsecond, by simp, by simp, hrecipients, hgroup₁, hgroup₂,
    ?_, fun hsame => ?_, rfl, InFlight.get?_register_self ..⟩
  · rw [hid₁, hid₂]
    decide
  · rw [hpair₁, hpair₂] at hsame
    exact absurd (congrArg KeyPair.secret hsame) (by decide)

/-- The first of the two is confirmed late: it is told so, and its pair is never stored. The second
is then confirmed, and its pair alone makes the history of the group. -/
theorem rotations_safe_of_late_confirmation :
    ∃ (start late s : Interleaving Nat) (first second : Rotation.Pending)
      (world : World (Local Nat)) (publicKey : String), Initial start ∧
      Relation.ReflTransGen (Step Environment.counting Config.sample) start late ∧
      first ∈ late.pendings ∧ second ∈ late.pendings ∧ first.groupId = second.groupId ∧
      first.attempt ≠ second.attempt ∧ first.pair ≠ second.pair ∧
      (Rotation.confirm (Ledgers.backend Environment.counting) first).exec late.world =
        (.ok .superseded, late.world) ∧
      s = late.after Environment.counting Config.sample (.confirm first) ∧
      (Rotation.confirm (Ledgers.backend Environment.counting) second).exec s.world =
        (.ok (.committed publicKey 1), world) ∧
      world.outside.ledgers.keys.history second.groupId = [second.pair.toRow] ∧
      ∃ pair, world.outside.ledgers.keys.latest second.groupId = .ok (some pair) ∧
        publicKey = pair.publicText := by
  obtain ⟨late, first, second, hrun, hmem₁, hmem₂, hrecipients, hgroup₁, hgroup₂, hattempts, hpairs,
    hledgers, hcurrent⟩ := exists_two_under_way
  have hstart : Initial (⟨⟨InFlight.empty, ⟨Ledgers.sample, 0⟩⟩, [], []⟩ : Interleaving Nat) :=
    ⟨Ledgers.sample_reachable, rfl, rfl, rfl⟩
  have hsuperseded : late.world.inFlight.isCurrent first.groupId first.attempt = false := by
    refine InFlight.isCurrent_eq_false_iff.mpr fun entry hget => ?_
    rw [hgroup₁, hcurrent] at hget
    cases hget
    exact hattempts.symm
  have hstale : (Rotation.confirm (Ledgers.backend Environment.counting) first).exec late.world =
      (.ok .superseded, late.world) :=
    Rotation.exec_confirm_of_stale Environment.counting hsuperseded
  -- the late confirmation is one more step, which leaves the world as it is
  have hlate : (late.after Environment.counting Config.sample (.confirm first)).world =
      late.world := congrArg Prod.snd hstale
  have hconfirm := Rotation.exec_confirm_of_current Environment.counting
    (e := late.world.outside.environment) (hgroup₂.symm ▸ hcurrent)
    (hledgers ▸ hgroup₂.symm ▸ Ledgers.get?_sample)
  rw [hrecipients] at hconfirm
  obtain ⟨_, hcommitted, hlatest, _⟩ := (rotations_safe hstart
    (hrun.tail ⟨.confirm first, hmem₁, rfl⟩)).2 second hmem₂ _ _ (hlate ▸ hconfirm)
  have hhistory : (late.after Environment.counting Config.sample (.confirm first)).history
      second.groupId = [] := by
    rw [history, hlate, hledgers]
    rfl
  rw [hhistory] at hcommitted
  exact ⟨_, late, _, first, second, _, _, hstart, hrun, hmem₁, hmem₂,
    hgroup₁.trans hgroup₂.symm, hattempts, hpairs, hstale, rfl, hlate ▸ hconfirm,
    hcommitted.mp ⟨_, _, rfl⟩, hlatest _ _ rfl⟩

end Interleaving

end SealedGroup
