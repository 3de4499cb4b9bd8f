import SealedGroup.Proofs.KeyPair.Wrapping
import SealedGroup.Proofs.Service.Memory
import SealedGroup.Service.Rotation

/-!
# The steps of a rotation, in memory

What preparing and confirming a rotation do over ledgers in memory. A preparation is refused, or
fails because some target cannot be wrapped for, or leaves its attempt registered; none of these
touches the ledgers. A confirmation stores the pair of the registered attempt and takes the
attempt out of the registry, or, if the attempt is no longer the registered one, does nothing at
all.

## One equation for each course

Each course of a step is an equation that runs the step to its end: the world before on the
left, and result and world after on the right. Which of them applies is a matter of what is
stored, what is asked for and what is registered (`Rotation.obstacle`, `Identifier.firstFault`,
`InFlight.isCurrent`), and these conditions are complete. So whoever says something of rotations
splits on the conditions, rewrites by the equation, and is left with ledgers and registries.

What a preparation draws from its environment is named by what comes of it: the attempt that it
registers (`Rotation.nextAttempt`) and the rotation that it leaves to be confirmed
(`Rotation.nextPending`). Coins are drawn as well, one set for each target, and of these nothing
need be said but that the wrappers open.

## Two halves

A rotation as a whole is a preparation, a send, and what is done when the send is answered
(`Rotation.exec_run`, `Rotation.resume`). Between the halves the registry may change, and so the
second one is described by the registry that is found then (`Rotation.Ending`).
-/

namespace SealedGroup

variable {ε : Type}

namespace Rotation

variable (environment : Environment ε) (config : Config)

/-- Wrapping over ledgers in memory leaves the ledgers alone. -/
theorem wrapAll_memory (pair : KeyPair) (targets : List Identifier) (ledgers : Ledgers) (e : ε) :
    ∃ e', environment.Quiet e e' ∧
      (Wrapper.wrapAll (Ledgers.backend environment).drawCoins pair targets ⟨ledgers, e⟩).2 =
        ⟨ledgers, e'⟩ := by
  -- all that wrapping does to the state is to draw coins
  have hstate := Wrapper.wrapAll_state (Ledgers.backend environment).drawCoins pair
    (R := fun s s' => s'.ledgers = s.ledgers ∧ environment.Quiet s.environment s'.environment)
    (fun s => ⟨rfl, .refl _⟩) (fun h h' => ⟨h'.1.trans h.1, h.2.trans h'.2⟩)
    (fun s => ⟨rfl, (Environment.Quiet.refl s.environment).drawCoins⟩) targets ⟨ledgers, e⟩
  rcases hwrapped : (Wrapper.wrapAll (Ledgers.backend environment).drawCoins pair targets
    ⟨ledgers, e⟩).2 with ⟨ledgers', e'⟩
  rw [hwrapped] at hstate
  obtain ⟨rfl, hquiet⟩ := hstate
  exact ⟨e', hquiet, rfl⟩

/-! ## Preparing -/

/-- The outcome of a rotation that must not start, read off the stored
group. -/
def obstacle (account : Identifier) (requesterIsAdmin : Bool) :
    Option StoredGroup → Option Rotation.Outcome
  | none => some .notApplicable
  | some state =>
    if !state.isLegacy then some .notApplicable
    else if !requesterIsAdmin || !state.isAdmin account then some .unauthorized
    else none

/-- Nothing stands in the way of a rotation exactly if the group is stored, is
a legacy one, and both the requester and we are its administrators. -/
theorem obstacle_eq_none_iff {account : Identifier} {requesterIsAdmin : Bool}
    {stored : Option StoredGroup} :
    obstacle account requesterIsAdmin stored = none ↔
      ∃ state, stored = some state ∧ state.isLegacy = true ∧ requesterIsAdmin = true ∧
        state.isAdmin account = true := by
  cases stored with
  | none => simp [obstacle]
  | some state =>
    unfold obstacle
    cases hlegacy : state.isLegacy <;> cases requesterIsAdmin <;>
      cases hadmin : state.isAdmin account <;> simp [hlegacy, hadmin]

/-- We are the administrator of the group of two, and nothing stands in our way. -/
theorem obstacle_sample : obstacle Config.sample.account true
    (Ledgers.sample.groups.get? StoredGroup.sample.id) = none := by
  rw [Ledgers.get?_sample]
  exact obstacle_eq_none_iff.mpr ⟨_, rfl, by decide, rfl, by decide⟩

/-- We have a public key. -/
theorem usable_sample_account : Config.sample.account.Usable :=
  Identifier.usable_iff.mpr ⟨_, rfl⟩

variable (r : InFlight) (ledgers : Ledgers) (e : ε)

theorem exec_refusal (group : Identifier) (requesterIsAdmin : Bool) :
    (refusal (Ledgers.backend environment) config group requesterIsAdmin).exec ⟨r, ⟨ledgers, e⟩⟩ =
      (.ok (obstacle config.account requesterIsAdmin (ledgers.groups.get? group)),
        ⟨r, ⟨ledgers, e⟩⟩) := by
  unfold refusal
  rw [Act.exec_bind_of_ok (Ledgers.exec_loadGroup environment r ledgers e group)]
  cases ledgers.groups.get? group with
  | none => rfl
  | some state =>
    simp only [obstacle]
    split
    · rfl
    · split <;> rfl

/-- The attempt that a preparation registers, if it gets so far. -/
def nextAttempt : Attempt where
  id := (environment.drawUuid (environment.drawSecret e).2).1
  pair := KeyPair.ofSecret (environment.drawSecret e).1

/-- The rotation that a preparation gives with its message. -/
def nextPending (group : Identifier) (targets : List Identifier) (message : Message) :
    Rotation.Pending where
  groupId := group
  attempt := (nextAttempt environment e).id
  pair := (nextAttempt environment e).pair
  message := message
  recipients := targets.length

/-- What a preparation draws before it registers its attempt. -/
def afterDraws : ε :=
  (environment.drawUuid (environment.drawSecret e).2).2

variable {config r ledgers e}
variable {group : Identifier} {targets : List Identifier} {requesterIsAdmin : Bool}

/-- A preparation that is refused changes nothing. -/
theorem exec_prepare_of_obstacle {outcome : Rotation.Outcome}
    (h : obstacle config.account requesterIsAdmin (ledgers.groups.get? group) = some outcome) :
    (prepare (Ledgers.backend environment) config group targets requesterIsAdmin).exec
        ⟨r, ⟨ledgers, e⟩⟩ =
      (.ok (.skipped outcome), ⟨r, ⟨ledgers, e⟩⟩) := by
  unfold prepare
  rw [Act.exec_bind_of_ok (exec_refusal environment config r ledgers e group requesterIsAdmin), h]
  rfl

/-- **A preparation that cannot wrap for some target** takes its attempt back,
and whatever attempt of the group was there before is gone with it. -/
theorem exec_prepare_of_fault {cause : IdentifierError}
    (h : obstacle config.account requesterIsAdmin (ledgers.groups.get? group) = none)
    (hfault : Identifier.firstFault targets = some cause) :
    ∃ e', environment.Quiet (afterDraws environment e) e' ∧
      (prepare (Ledgers.backend environment) config group targets requesterIsAdmin).exec
          ⟨r, ⟨ledgers, e⟩⟩ =
        (.error (.encryption (.invalidRecipient cause)),
          ⟨(r.register group (nextAttempt environment e).id
            (nextAttempt environment e).pair).erase group, ⟨ledgers, e'⟩⟩) := by
  have hwrap := Wrapper.wrapAll_eq (Ledgers.backend environment).drawCoins
    (nextAttempt environment e).pair targets ⟨ledgers, afterDraws environment e⟩
  obtain ⟨e', hquiet, hstate⟩ := wrapAll_memory environment (nextAttempt environment e).pair
    targets ledgers (afterDraws environment e)
  rw [hfault] at hwrap
  refine ⟨e', hquiet, ?_⟩
  -- nobody else had a turn since the attempt was registered
  have hcurrent : (r.register group (nextAttempt environment e).id
      (nextAttempt environment e).pair).isCurrent group (nextAttempt environment e).id = true :=
    InFlight.isCurrent_register ..
  unfold prepare
  rw [Act.exec_bind_of_ok (exec_refusal environment config r ledgers e group requesterIsAdmin), h,
    Act.exec_bind_of_ok (Ledgers.exec_drawSecret environment r ledgers e)]
  dsimp only
  rw [Act.exec_bind_of_ok (Ledgers.exec_drawUuid environment r ledgers _),
    Act.exec_bind_of_ok (Act.exec_registry _ _ _), Act.exec_bind_of_ok (Act.exec_outside _ _ _)]
  dsimp only [nextAttempt, afterDraws] at hwrap hstate hcurrent ⊢
  rw [hwrap, hstate]
  dsimp only
  rw [Act.exec_bind_of_ok (Act.exec_registry _ _ _), Act.exec_throw, InFlight.withdraw,
    if_pos hcurrent]

/-- **A preparation that can wrap for all targets** registers a new attempt in
place of any former one, and gives the rotation to be confirmed. -/
theorem exec_prepare_of_usable
    (h : obstacle config.account requesterIsAdmin (ledgers.groups.get? group) = none)
    (husable : ∀ id ∈ targets, id.Usable) :
    ∃ e' wrappers identifier createdAt, environment.Quiet (afterDraws environment e) e' ∧
      List.Forall₂ (Wrapper.Seals (nextAttempt environment e).pair) targets wrappers ∧
      (prepare (Ledgers.backend environment) config group targets requesterIsAdmin).exec
          ⟨r, ⟨ledgers, e⟩⟩ =
        (.ok (.ready (nextPending environment e group targets
            (Message.create group identifier createdAt (.keyPair wrappers)))),
          ⟨r.register group (nextAttempt environment e).id (nextAttempt environment e).pair,
            ⟨ledgers, e'⟩⟩) := by
  have hwrap := Wrapper.wrapAll_eq (Ledgers.backend environment).drawCoins
    (nextAttempt environment e).pair targets ⟨ledgers, afterDraws environment e⟩
  obtain ⟨e', hquiet, hstate⟩ := wrapAll_memory environment (nextAttempt environment e).pair
    targets ledgers (afterDraws environment e)
  rw [Identifier.firstFault_eq_none_iff.mpr husable] at hwrap
  obtain ⟨wrappers, hok, hseals⟩ := hwrap
  refine ⟨_, wrappers, (environment.drawUuid e').1.text,
    (environment.now (environment.drawUuid e').2).1 + config.networkOffset,
    hquiet.drawUuid.now, hseals, ?_⟩
  unfold prepare
  rw [Act.exec_bind_of_ok (exec_refusal environment config r ledgers e group requesterIsAdmin), h,
    Act.exec_bind_of_ok (Ledgers.exec_drawSecret environment r ledgers e)]
  dsimp only
  rw [Act.exec_bind_of_ok (Ledgers.exec_drawUuid environment r ledgers _),
    Act.exec_bind_of_ok (Act.exec_registry _ _ _), Act.exec_bind_of_ok (Act.exec_outside _ _ _)]
  dsimp only [nextAttempt, afterDraws] at hok hstate ⊢
  rw [hok, hstate]
  dsimp only
  rw [Act.exec_bind_of_ok (Ledgers.exec_drawUuid environment _ ledgers _),
    Act.exec_bind_of_ok (Ledgers.exec_networkTime environment _ ledgers _ config), Act.exec_pure]
  rfl

/-! ## Confirming -/

end Rotation

namespace InFlight

variable {m : Type → Type} [Monad m] {η : Type} {r : InFlight} {group : Identifier}
  {attempt : Uuid}

/-- Settling the registered attempt runs the action on it. -/
theorem settle_of_current {pair : KeyPair} (h : r.get? group = some ⟨attempt, pair⟩)
    (commit : Attempt → m (Except η Unit)) :
    r.settle group attempt commit = (do
      match ← commit ⟨attempt, pair⟩ with
      | .ok () => pure (.ok true, r.erase group)
      | .error e => pure (.error e, r)) := by
  unfold settle
  rw [h]
  exact if_pos rfl

/-- Settling any other attempt runs nothing. -/
theorem settle_of_stale (h : r.isCurrent group attempt = false)
    (commit : Attempt → m (Except η Unit)) :
    r.settle group attempt commit = pure (.ok false, r) := by
  unfold settle
  unfold isCurrent at h
  cases hget : r.get? group with
  | none => rfl
  | some entry =>
    rw [hget] at h
    have hne : entry.id ≠ attempt := by simpa using h
    simp only [if_neg hne]

end InFlight

namespace Rotation

variable (environment : Environment ε) {r : InFlight} {ledgers : Ledgers} {e : ε}
  {pending : Rotation.Pending}

theorem exec_settle {σ : Type} (backend : Backend σ) (s : σ) :
    (settle backend pending).exec ⟨r, s⟩ =
      let ((result, r), s) :=
        r.settle pending.groupId pending.attempt (storePair backend pending.groupId) s
      (result.mapError .ledger, ⟨r, s⟩) := rfl

/-- **Confirming the registered attempt** of a stored group stores its pair,
takes it out of the registry and commits the group. -/
theorem exec_confirm_of_current {pair : KeyPair} {state : StoredGroup}
    (h : r.get? pending.groupId = some ⟨pending.attempt, pair⟩)
    (hstored : ledgers.groups.get? pending.groupId = some state) :
    (confirm (Ledgers.backend environment) pending).exec ⟨r, ⟨ledgers, e⟩⟩ =
      (.ok (.committed pending.pair.publicText pending.recipients),
        ⟨r.erase pending.groupId,
          ⟨⟨ledgers.groups.committed pending.groupId,
            (ledgers.keys.add pending.groupId pair).2⟩, e⟩⟩) := by
  have hsettle : (settle (Ledgers.backend environment) pending).exec ⟨r, ⟨ledgers, e⟩⟩ =
      (.ok true, ⟨r.erase pending.groupId,
        ⟨⟨ledgers.groups, (ledgers.keys.add pending.groupId pair).2⟩, e⟩⟩) := by
    rw [exec_settle, InFlight.settle_of_current h]
    rfl
  unfold confirm
  rw [Act.exec_bind_of_ok hsettle, if_pos rfl,
    Act.exec_bind_of_ok (Ledgers.exec_commit environment (r.erase pending.groupId)
      ⟨ledgers.groups, (ledgers.keys.add pending.groupId pair).2⟩ e hstored)]
  rfl

/-- **A confirmation that comes too late** changes nothing. -/
theorem exec_confirm_of_stale (h : r.isCurrent pending.groupId pending.attempt = false) :
    (confirm (Ledgers.backend environment) pending).exec ⟨r, ⟨ledgers, e⟩⟩ =
      (.ok .superseded, ⟨r, ⟨ledgers, e⟩⟩) := by
  have hsettle : (settle (Ledgers.backend environment) pending).exec ⟨r, ⟨ledgers, e⟩⟩ =
      (.ok false, ⟨r, ⟨ledgers, e⟩⟩) := by
    rw [exec_settle, InFlight.settle_of_stale h]
    rfl
  unfold confirm
  rw [Act.exec_bind_of_ok hsettle]
  rfl

/-! ## A whole rotation -/

/-- **The second half of a rotation**, which starts when its send is answered:
a sent message confirms the rotation, a failed send leaves it outstanding. -/
def resume {σ : Type} (backend : Backend σ) (pending : Rotation.Pending) :
    Except SendError String → Act σ Rotation.Outcome
  | .ok _ => confirm backend pending
  | .error _ => pure .outstanding

/-- **How a rotation ends** when its send is answered, given the registry that is found
then, and what the registry and the ledgers are afterwards. -/
inductive Ending (pending : Rotation.Pending) (ledgers : Ledgers) (sent : InFlight) :
    Except SendError String → Rotation.Outcome → InFlight → Ledgers → Prop where
  /-- The message arrived, and the attempt is still the current one. -/
  | committed {messageId : String}
      (hcurrent : sent.get? pending.groupId = some ⟨pending.attempt, pending.pair⟩) :
      Ending pending ledgers sent (.ok messageId)
        (.committed pending.pair.publicText pending.recipients) (sent.erase pending.groupId)
        ⟨ledgers.groups.committed pending.groupId,
          (ledgers.keys.add pending.groupId pending.pair).2⟩
  /-- The message arrived, and another attempt took the place of this one, or none. -/
  | superseded {messageId : String}
      (hstale : sent.isCurrent pending.groupId pending.attempt = false) :
      Ending pending ledgers sent (.ok messageId) .superseded sent ledgers
  /-- The message did not arrive. -/
  | outstanding (error : SendError) :
      Ending pending ledgers sent (.error error) .outstanding sent ledgers

/-- **The second half of a rotation** never fails. -/
theorem exec_resume (pending : Rotation.Pending) (answer : Except SendError String)
    {state : StoredGroup} (hstored : ledgers.groups.get? pending.groupId = some state)
    (hpair : ∀ pair, r.get? pending.groupId = some ⟨pending.attempt, pair⟩ →
      pair = pending.pair) :
    ∃ outcome r' ledgers', (resume (Ledgers.backend environment) pending answer).exec
        ⟨r, ⟨ledgers, e⟩⟩ = (.ok outcome, ⟨r', ⟨ledgers', e⟩⟩) ∧
      Ending pending ledgers r answer outcome r' ledgers' := by
  cases answer with
  | error error => exact ⟨_, _, _, rfl, .outstanding error⟩
  | ok messageId =>
    cases hcurrent : r.isCurrent pending.groupId pending.attempt with
    | true =>
      obtain ⟨pair, hget⟩ := InFlight.isCurrent_iff.mp hcurrent
      obtain rfl := hpair pair hget
      exact ⟨_, _, _, exec_confirm_of_current environment hget hstored, .committed hget⟩
    | false => exact ⟨_, _, _, exec_confirm_of_stale environment hcurrent, .superseded hcurrent⟩

/-- **A whole rotation** is its two halves with the send between them. -/
theorem exec_run {σ : Type} (backend : Backend σ) (config : Config) (group : Identifier)
    (targets : List Identifier) (requesterIsAdmin : Bool) (world : World σ) :
    (run backend config group targets requesterIsAdmin).exec world =
      match (prepare backend config group targets requesterIsAdmin).exec world with
      | (.error e, after) => (.error e, after)
      | (.ok (.skipped outcome), after) => (.ok outcome, after)
      | (.ok (.ready pending), after) =>
        (resume backend pending (backend.send (.toGroup group pending.message) after).1).exec
          (backend.send (.toGroup group pending.message) after).2 := by
  unfold run
  rw [Act.exec_bind]
  rcases (prepare backend config group targets requesterIsAdmin).exec world with
    ⟨e | (pending | outcome), after⟩
  · rfl
  · dsimp only
    rw [Act.exec_bind_of_ok (Act.exec_whole _ _)]
    cases (backend.send (.toGroup group pending.message) after).1 <;> rfl
  · rfl

section

variable {config : Config} {group : Identifier} {targets : List Identifier}
  {requesterIsAdmin : Bool}

/-- A rotation that is refused changes nothing. -/
theorem exec_run_of_obstacle {outcome : Rotation.Outcome}
    (h : obstacle config.account requesterIsAdmin (ledgers.groups.get? group) = some outcome) :
    (run (Ledgers.backend environment) config group targets requesterIsAdmin).exec
        ⟨r, ⟨ledgers, e⟩⟩ =
      (.ok outcome, ⟨r, ⟨ledgers, e⟩⟩) := by
  rw [exec_run, exec_prepare_of_obstacle environment h]

/-- A rotation that cannot wrap for some target sends nothing. -/
theorem exec_run_of_fault {cause : IdentifierError}
    (h : obstacle config.account requesterIsAdmin (ledgers.groups.get? group) = none)
    (hfault : Identifier.firstFault targets = some cause) :
    ∃ e', environment.Quiet (afterDraws environment e) e' ∧
      (run (Ledgers.backend environment) config group targets requesterIsAdmin).exec
          ⟨r, ⟨ledgers, e⟩⟩ =
        (.error (.encryption (.invalidRecipient cause)),
          ⟨(r.register group (nextAttempt environment e).id
            (nextAttempt environment e).pair).erase group, ⟨ledgers, e'⟩⟩) := by
  obtain ⟨e', hquiet, hexec⟩ := exec_prepare_of_fault environment (r := r) (e := e) h hfault
  refine ⟨e', hquiet, ?_⟩
  rw [exec_run, hexec]

/-- **A rotation that can wrap for all targets** sends one message, and then ends as
the answer and the registry have it. -/
theorem exec_run_of_usable
    (h : obstacle config.account requesterIsAdmin (ledgers.groups.get? group) = none)
    (husable : ∀ id ∈ targets, id.Usable) :
    ∃ e' wrappers identifier createdAt, environment.Quiet (afterDraws environment e) e' ∧
      List.Forall₂ (Wrapper.Seals (nextAttempt environment e).pair) targets wrappers ∧
      ∃ answer sent e'' outcome r' ledgers',
        environment.transmit (.toGroup group (Message.create group identifier createdAt
            (.keyPair wrappers)))
          (r.register group (nextAttempt environment e).id (nextAttempt environment e).pair) e' =
            (answer, sent, e'') ∧
        (run (Ledgers.backend environment) config group targets requesterIsAdmin).exec
            ⟨r, ⟨ledgers, e⟩⟩ = (.ok outcome, ⟨r', ⟨ledgers', e''⟩⟩) ∧
        Ending (nextPending environment e group targets (Message.create group identifier createdAt
          (.keyPair wrappers))) ledgers sent answer outcome r' ledgers' := by
  obtain ⟨e', wrappers, identifier, createdAt, hquiet, hseals, hexec⟩ :=
    exec_prepare_of_usable environment (r := r) (e := e) h husable
  obtain ⟨state, hstored, _⟩ := obstacle_eq_none_iff.mp h
  refine ⟨e', wrappers, identifier, createdAt, hquiet, hseals, ?_⟩
  generalize Message.create group identifier createdAt (.keyPair wrappers) = message at hexec ⊢
  rcases hsent : environment.transmit (.toGroup group message) (r.register group
    (nextAttempt environment e).id (nextAttempt environment e).pair) e' with ⟨answer, sent, e''⟩
  have hregistered : (r.register group (nextAttempt environment e).id
      (nextAttempt environment e).pair).get? group = some (nextAttempt environment e) :=
    InFlight.get?_register_self ..
  obtain ⟨outcome, r', ledgers', hresume, hending⟩ := exec_resume environment (r := sent)
    (e := e'') (nextPending environment e group targets message) answer hstored
      fun pair hget => Environment.pair_of_transmit hsent hregistered hget
  refine ⟨answer, sent, e'', outcome, r', ledgers', rfl, ?_, hending⟩
  rw [exec_run, hexec]
  dsimp only [nextPending, Ledgers.backend]
  rw [hsent]
  exact hresume

end

end Rotation

end SealedGroup
