import SealedGroup.Proofs.Edit.Removal

/-!
# What the outcome of a rotation means

A rotation is refused, because there is no legacy group to rotate or because we may not; or it
fails, because some target cannot be encrypted to; or it sends its message, and ends as
outstanding, superseded or committed. Which of these it is depends on the ledgers, the targets,
the answer of the transport, and on what others did to the registry meanwhile. Each has an
effect of its own on the registry, the ledgers and what is sent, and no other one
(`Rotation.OneEffect`); and `Rotation.run_has_one_effect` says so of every rotation.

## Before and after the send

Whether a rotation sends anything is decided before it does, and so by the world before. Its
group is missing, or the rotation is forbidden, or it is permitted (`Rotation.Missing`,
`Rotation.Forbidden`, `Rotation.Permitted`), and these three exclude one another; a permitted
one is then sent if all targets can be encrypted to, and otherwise ends with the first that
cannot.

What becomes of a message that was sent depends on two things more: the answer, and the registry
that is found when the answer comes. While the message is on its way others may register,
withdraw or commit attempts, and `Rotation.Distributed` has that registry as a parameter and not
as a consequence. If nobody disturbs the group (`Environment.LeavesAlone`), the attempt is still
there. A failed send leaves the attempt registered, so that it may be confirmed if the message
has arrived after all.

What the message holds is said by `Service.HandsOut`: one wrapper for each target, in their
order, that opens to the pair of the attempt.
-/

namespace SealedGroup

variable {ε : Type}

/-- Others leave the attempts of a group alone while a message is on its way. -/
def Environment.LeavesAlone (environment : Environment ε) (group : Identifier) : Prop :=
  ∀ dispatch r e, (environment.meanwhile dispatch r e).1.get? group = r.get? group

/-- An attempt that was registered and removed again leaves nothing behind, and nothing of
the attempt before it. -/
theorem InFlight.erase_register (r : InFlight) (group : Identifier) (attempt : Uuid)
    (pair : KeyPair) : (r.register group attempt pair).erase group = r.erase group := by
  refine ext fun other => ?_
  rw [get?_erase, get?_erase, get?_register]
  split <;> rfl

namespace Rotation

open Service (HandsOut handsOut_of_seals)

/-! ## When a rotation is refused -/

section

variable (config : Config) (ledgers : Ledgers) (group : Identifier) (requesterIsAdmin : Bool)

/-- **There is nothing to rotate**: no group is stored, or it is none of the legacy ones. -/
def Missing : Prop :=
  ledgers.groups.get? group = none ∨ group.isKeyed = true

/-- **We may not rotate** the group that there is. -/
def Forbidden : Prop :=
  ∃ state, ledgers.groups.get? group = some state ∧ group.isKeyed = false ∧
    (requesterIsAdmin = false ∨ config.account ∉ state.admins)

/-- **We may rotate** the group that there is. -/
def Permitted : Prop :=
  ∃ state, ledgers.groups.get? group = some state ∧ group.isKeyed = false ∧
    requesterIsAdmin = true ∧ config.account ∈ state.admins

variable {config ledgers group requesterIsAdmin}

theorem Forbidden.not_missing (h : Forbidden config ledgers group requesterIsAdmin) :
    ¬Missing ledgers group := by
  obtain ⟨state, hstored, hkeyed, _⟩ := h
  rintro (hnone | hyes)
  · cases hstored.symm.trans hnone
  · cases hkeyed.symm.trans hyes

theorem Permitted.not_missing (h : Permitted config ledgers group requesterIsAdmin) :
    ¬Missing ledgers group := by
  obtain ⟨state, hstored, hkeyed, _⟩ := h
  rintro (hnone | hyes)
  · cases hstored.symm.trans hnone
  · cases hkeyed.symm.trans hyes

theorem Permitted.not_forbidden (h : Permitted config ledgers group requesterIsAdmin) :
    ¬Forbidden config ledgers group requesterIsAdmin := by
  obtain ⟨state, hstored, _, hrequester, hadmin⟩ := h
  rintro ⟨state', hstored', _, hnot | hnot⟩
  · cases hrequester.symm.trans hnot
  · cases hstored.symm.trans hstored'
    exact hnot hadmin

/-- **What stands in the way of a rotation**, as the rotation finds it. -/
theorem obstacle_cases (config : Config) (hsound : ledgers.Sound) (group : Identifier)
    (requesterIsAdmin : Bool) :
    (Missing ledgers group ∧ obstacle config.account requesterIsAdmin
      (ledgers.groups.get? group) = some .notApplicable) ∨
    (Forbidden config ledgers group requesterIsAdmin ∧ obstacle config.account requesterIsAdmin
      (ledgers.groups.get? group) = some .unauthorized) ∨
    (Permitted config ledgers group requesterIsAdmin ∧ obstacle config.account requesterIsAdmin
      (ledgers.groups.get? group) = none) := by
  cases hstored : ledgers.groups.get? group with
  | none => exact .inl ⟨.inl hstored, rfl⟩
  | some state =>
    have hlegacy : state.isLegacy = !group.isKeyed := by
      unfold StoredGroup.isLegacy
      rw [hsound.filed hstored]
    unfold obstacle StoredGroup.isAdmin
    dsimp only
    rw [hlegacy, Bool.not_not]
    cases hkeyed : group.isKeyed with
    | true => exact .inl ⟨.inr hkeyed, rfl⟩
    | false =>
      cases hrequester : requesterIsAdmin with
      | false => exact .inr (.inl ⟨⟨state, hstored, hkeyed, .inl rfl⟩, rfl⟩)
      | true =>
        by_cases hadmin : config.account ∈ state.admins
        · rw [decide_eq_true hadmin]
          exact .inr (.inr ⟨⟨state, hstored, hkeyed, rfl, hadmin⟩, rfl⟩)
        · rw [decide_eq_false hadmin]
          exact .inr (.inl ⟨⟨state, hstored, hkeyed, .inr hadmin⟩, rfl⟩)

end

/-! ## What a rotation does -/

/-- **The message of a rotation was handed to the transport**: with the pair of the attempt
that was registered for it. What becomes of that depends on the answer, and on the registry
that is found when the answer comes. -/
structure Distributed (environment : Environment ε) (group : Identifier)
    (targets : List Identifier) (attempt : Attempt)
    (before : World (Local (Recorded ε))) (result : Except ServiceError Rotation.Outcome)
    (after : World (Local (Recorded ε))) (dispatch : Dispatch) (wrappers : List Wrapper)
    (answer : Except SendError String) (sent : InFlight) : Prop where
  handsOut : HandsOut group targets attempt.pair wrappers dispatch
  sends : after.outside.environment.sends =
    before.outside.environment.sends ++ [(dispatch, answer)]
  /-- The answer is that of the transport, and the registry that is found is the one with
  the attempt, as the others left it. -/
  found : ∃ e e', environment.meanwhile dispatch
    (before.inFlight.register group attempt.id attempt.pair) e = (sent, e') ∧
      (environment.send dispatch e').1 = answer
  undisturbed : environment.LeavesAlone group → sent.get? group = some attempt
  outstanding_iff : result = .ok .outstanding ↔ ∃ error, answer = .error error
  /-- A failed send leaves the attempt where it is. -/
  outstanding : (∃ error, answer = .error error) →
    after.inFlight = sent ∧ after.outside.ledgers = before.outside.ledgers
  /-- A message that arrived too late changes nothing. -/
  superseded : (∃ messageId, answer = .ok messageId) → sent.isCurrent group attempt.id = false →
    result = .ok .superseded ∧
      after.inFlight = sent ∧ after.outside.ledgers = before.outside.ledgers
  /-- A message that arrived in time makes the pair the last one of the group. -/
  committed : (∃ messageId, answer = .ok messageId) → sent.isCurrent group attempt.id = true →
    result = .ok (.committed attempt.pair.publicText targets.length) ∧
      after.inFlight = sent.erase group ∧
      after.outside.ledgers.groups = before.outside.ledgers.groups.committed group ∧
      after.outside.ledgers.keys.history group =
        before.outside.ledgers.keys.history group ++ [attempt.pair.toRow] ∧
      after.outside.ledgers.keys.latest group = .ok (some attempt.pair) ∧
      ∀ other, other ≠ group → after.outside.ledgers.keys.history other =
        before.outside.ledgers.keys.history other

/-- **The one effect of a rotation**: which outcome it has, and what the world is then. -/
structure OneEffect (environment : Environment ε) (config : Config) (group : Identifier)
    (targets : List Identifier) (requesterIsAdmin : Bool)
    (before : World (Local (Recorded ε))) (result : Except ServiceError Rotation.Outcome)
    (after : World (Local (Recorded ε))) : Prop where
  notApplicable : result = .ok .notApplicable ↔ Missing before.outside.ledgers group
  unauthorized : result = .ok .unauthorized ↔
    Forbidden config before.outside.ledgers group requesterIsAdmin
  /-- A rotation that is refused changes nothing. -/
  refused : result = .ok .notApplicable ∨ result = .ok .unauthorized → after = before
  /-- The first target that cannot be encrypted to ends the rotation, and no attempt of the
  group is left. -/
  unusable : Permitted config before.outside.ledgers group requesterIsAdmin →
    (∃ id ∈ targets, ∀ key, id ≠ Identifier.ofPublicKey key) →
      ∃ front bad rest cause, targets = front ++ bad :: rest ∧
        (∀ id ∈ front, ∃ key, id = Identifier.ofPublicKey key) ∧ bad.publicKey = .error cause ∧
        result = .error (.encryption (.invalidRecipient cause)) ∧
        after.inFlight = before.inFlight.erase group ∧
        after.outside.ledgers = before.outside.ledgers ∧
        after.outside.environment.sends = before.outside.environment.sends
  /-- Otherwise one message is sent. -/
  distributed : Permitted config before.outside.ledgers group requesterIsAdmin →
    (∀ id ∈ targets, ∃ key, id = Identifier.ofPublicKey key) →
      ∃ dispatch wrappers answer sent, Distributed environment group targets
        (nextAttempt environment.recorded before.outside.environment) before result after
        dispatch wrappers answer sent

section

variable {environment : Environment ε} {config : Config} {group : Identifier}
  {targets : List Identifier} {requesterIsAdmin : Bool} {r : InFlight} {ledgers : Ledgers}
  {e : Recorded ε} {result : Except ServiceError Rotation.Outcome}
  {after : World (Local (Recorded ε))}

/-- A rotation that is refused has one effect: none. -/
theorem oneEffect_of_obstacle {outcome : Rotation.Outcome}
    (hnotApplicable : outcome = .notApplicable ↔ Missing ledgers group)
    (hunauthorized : outcome = .unauthorized ↔ Forbidden config ledgers group requesterIsAdmin)
    (hnot : ¬Permitted config ledgers group requesterIsAdmin) :
    OneEffect environment config group targets requesterIsAdmin ⟨r, ⟨ledgers, e⟩⟩ (.ok outcome)
      ⟨r, ⟨ledgers, e⟩⟩ where
  notApplicable := by
    rw [Except.ok.injEq]
    exact hnotApplicable
  unauthorized := by
    rw [Except.ok.injEq]
    exact hunauthorized
  refused := fun _ => rfl
  unusable := fun h => absurd h hnot
  distributed := fun h => absurd h hnot

/-- A rotation that some target ends takes its attempt back. -/
theorem oneEffect_of_fault {cause : IdentifierError}
    (hpermitted : Permitted config ledgers group requesterIsAdmin)
    (hfault : Identifier.firstFault targets = some cause) {e' : Recorded ε}
    (hsends : e'.sends = e.sends) :
    OneEffect environment config group targets requesterIsAdmin ⟨r, ⟨ledgers, e⟩⟩
      (.error (.encryption (.invalidRecipient cause))) ⟨r.erase group, ⟨ledgers, e'⟩⟩ where
  notApplicable := iff_of_false nofun hpermitted.not_missing
  unauthorized := iff_of_false nofun hpermitted.not_forbidden
  refused := nofun
  unusable := fun _ _ => by
    obtain ⟨front, bad, rest, rfl, hfront, hbad⟩ := Identifier.exists_of_firstFault hfault
    exact ⟨front, bad, rest, cause, rfl, fun id hmem => Identifier.usable_iff.mp (hfront id hmem),
      hbad, rfl, rfl, rfl, hsends⟩
  distributed := fun _ husable => by
    have hnone := Identifier.firstFault_eq_none_iff.mpr fun id hmem =>
      Identifier.usable_iff.mpr (husable id hmem)
    rw [hfault] at hnone
    cases hnone

/-- However a rotation that sent its message ends, it is no refusal. -/
theorem Ending.not_refused {pending : Rotation.Pending} {sent r' : InFlight}
    {answer : Except SendError String} {outcome : Rotation.Outcome} {ledgers' : Ledgers}
    (h : Ending pending ledgers sent answer outcome r' ledgers') :
    outcome ≠ .notApplicable ∧ outcome ≠ .unauthorized := by
  cases h with
  | committed _ | superseded _ | outstanding _ => exact ⟨nofun, nofun⟩

/-- **A rotation whose message was sent** ends as its answer and the registry have it. -/
theorem distributed_of_ending {message : Message} {wrappers : List Wrapper}
    {answer : Except SendError String} {sent r' : InFlight} {outcome : Rotation.Outcome}
    {ledgers' : Ledgers} {e' e'' : Recorded ε}
    (hfresh : (nextAttempt environment.recorded e).pair.toRow ∉ ledgers.keys.history group)
    (hpair : HandsOut group targets (nextAttempt environment.recorded e).pair wrappers
      (.toGroup group message))
    (hsends : e'.sends = e.sends)
    (hsent : environment.recorded.transmit (.toGroup group message)
      (r.register group (nextAttempt environment.recorded e).id
        (nextAttempt environment.recorded e).pair) e' = (answer, sent, e''))
    (hending : Ending (nextPending environment.recorded e group targets message) ledgers sent
      answer outcome r' ledgers') :
    Distributed environment group targets (nextAttempt environment.recorded e)
      ⟨r, ⟨ledgers, e⟩⟩ (.ok outcome) ⟨r', ⟨ledgers', e''⟩⟩ (.toGroup group message) wrappers
      answer sent where
  handsOut := hpair
  sends := by
    have hrecorded := (Environment.transmit_recorded hsent).1
    rwa [hsends] at hrecorded
  found := by
    cases hsent
    exact ⟨e'.inner, _, rfl, rfl⟩
  undisturbed := by
    intro halone
    cases hsent
    exact (halone (.toGroup group message) _ e'.inner).trans (InFlight.get?_register_self ..)
  outstanding_iff := by
    cases hending with
    | committed _ | superseded _ => exact iff_of_false nofun nofun
    | outstanding error => exact iff_of_true rfl ⟨error, rfl⟩
  outstanding := by
    rintro ⟨error, rfl⟩
    cases hending
    exact ⟨rfl, rfl⟩
  superseded := by
    rintro ⟨messageId, rfl⟩ hstale
    cases hending with
    | superseded _ => exact ⟨rfl, rfl, rfl⟩
    | committed hcurrent =>
      have hyes := InFlight.isCurrent_iff.mpr ⟨_, hcurrent⟩
      cases hstale.symm.trans hyes
  committed := by
    rintro ⟨messageId, rfl⟩ hcurrent
    cases hending with
    | superseded hstale => cases hstale.symm.trans hcurrent
    | committed _ =>
      have hhistory := KeyLedger.history_add_of_not_mem hfresh
      exact ⟨rfl, rfl, rfl, hhistory, KeyLedger.latest_of_history_eq hhistory,
        fun other hother => KeyLedger.history_add_of_ne _ hother⟩

/-- **Every rotation has one effect**, whatever is stored, registered and asked for,
whatever comes of its send, and whatever others do meanwhile. -/
theorem run_has_one_effect (hledgers : ledgers.Reachable)
    (hfresh : (nextAttempt environment.recorded e).pair.toRow ∉ ledgers.keys.history group)
    (hexec : (run (Ledgers.backend environment.recorded) config group targets
      requesterIsAdmin).exec ⟨r, ⟨ledgers, e⟩⟩ = (result, after)) :
    OneEffect environment config group targets requesterIsAdmin ⟨r, ⟨ledgers, e⟩⟩ result
      after := by
  rcases obstacle_cases config hledgers.sound group requesterIsAdmin with
    ⟨hmissing, hobstacle⟩ | ⟨hforbidden, hobstacle⟩ | ⟨hpermitted, hobstacle⟩
  · cases hexec.symm.trans (exec_run_of_obstacle environment.recorded hobstacle)
    exact oneEffect_of_obstacle (iff_of_true rfl hmissing)
      (iff_of_false nofun fun h => h.not_missing hmissing) fun h => h.not_missing hmissing
  · cases hexec.symm.trans (exec_run_of_obstacle environment.recorded hobstacle)
    exact oneEffect_of_obstacle (iff_of_false nofun hforbidden.not_missing)
      (iff_of_true rfl hforbidden) fun h => h.not_forbidden hforbidden
  · cases hfault : Identifier.firstFault targets with
    | some cause =>
      obtain ⟨e', hquiet, hrun⟩ := exec_run_of_fault environment.recorded (r := r) (e := e)
        hobstacle hfault
      rw [InFlight.erase_register] at hrun
      cases hexec.symm.trans hrun
      exact oneEffect_of_fault hpermitted hfault hquiet.recorded.1
    | none =>
      have husable := Identifier.firstFault_eq_none_iff.mp hfault
      obtain ⟨e', wrappers, identifier, createdAt, hquiet, hseals, answer, sent, e'', outcome, r',
        ledgers', hsent, hrun, hending⟩ :=
        exec_run_of_usable environment.recorded (r := r) (e := e) hobstacle husable
      cases hexec.symm.trans hrun
      refine ⟨iff_of_false ?_ hpermitted.not_missing, iff_of_false ?_ hpermitted.not_forbidden,
        ?_, ?_, fun _ _ => ⟨_, wrappers, answer, sent, distributed_of_ending hfresh
          (handsOut_of_seals group hseals identifier createdAt) hquiet.recorded.1 hsent hending⟩⟩
      · exact fun h => hending.not_refused.1 (Except.ok.inj h)
      · exact fun h => hending.not_refused.2 (Except.ok.inj h)
      · rintro (h | h)
        · exact absurd (Except.ok.inj h) hending.not_refused.1
        · exact absurd (Except.ok.inj h) hending.not_refused.2
      · rintro _ ⟨id, hmem, hnot⟩
        obtain ⟨key, hkey⟩ := Identifier.usable_iff.mp (husable id hmem)
        exact absurd hkey (hnot key)

/-- We give ourselves the first key of our group. -/
theorem run_has_one_effect_of_first :
    ∃ pair after, (run (Ledgers.backend Environment.still.recorded) Config.sample
        StoredGroup.sample.id [Config.sample.account] true).exec
          ⟨InFlight.empty, ⟨Ledgers.sample, .start ()⟩⟩ =
        (.ok (.committed (KeyPair.publicText pair) 1), after) ∧
      after.outside.ledgers.keys.latest StoredGroup.sample.id = .ok (some pair) := by
  rcases hexec : (run (Ledgers.backend Environment.still.recorded) Config.sample
    StoredGroup.sample.id [Config.sample.account] true).exec
      ⟨InFlight.empty, ⟨Ledgers.sample, .start ()⟩⟩ with ⟨result, after⟩
  have heffect := run_has_one_effect Ledgers.sample_reachable List.not_mem_nil hexec
  have hpermitted : Permitted Config.sample Ledgers.sample StoredGroup.sample.id true :=
    ⟨StoredGroup.sample, Ledgers.get?_sample, by decide, rfl, List.mem_singleton.mpr rfl⟩
  have husable : ∀ id ∈ [Config.sample.account], ∃ key, id = Identifier.ofPublicKey key :=
    fun id hmem => ⟨PublicKey.generator, List.mem_singleton.mp hmem⟩
  obtain ⟨dispatch, wrappers, answer, sent, h⟩ := heffect.distributed hpermitted husable
  -- nobody touches the registry, and every message arrives
  obtain ⟨_, _, _, hanswer⟩ := h.found
  have hcurrent := InFlight.isCurrent_iff.mpr ⟨_, h.undisturbed fun _ _ _ => rfl⟩
  obtain ⟨hresult, _, _, _, hlatest, _⟩ := h.committed ⟨"", hanswer.symm⟩ hcurrent
  exact ⟨_, after, Prod.ext hresult rfl, hlatest⟩

end

end Rotation

end SealedGroup
