import SealedGroup.Proofs.Rotation.Steps

/-!
# Traces

Any backend can be made to note which of its operations are called, and what they answer. The
trace of an operation of the service is what was noted while it ran, whatever the backend does
and whichever calls fail. It is how to say that one thing happened before another: worlds have
no memory of that, and results even less.

`Backend.traced` notes what somebody could ask about – groups loaded, written and committed,
notices, pairs read and stored, secrets drawn, messages sent – and leaves out the clock and the
draws of identifiers and coins.

## Triples

A triple says of an operation that, started in a world of one kind, it ends in a world of
another: of one kind if it gives a value, and of another if it fails. The kinds are assertions
about the registry and the trace, and never about the state of the backend, so that a triple
holds for all backends at once. That a trace only ever grows is part of every triple, and so
what lasts as a trace grows can be carried along any operation (`Act.Triple.frame`), without a
word about it in the assertions of each.

The rules of this section take an operation apart; the primitive ones say what one call does to
the trace. For a call of a ledger both endings have to be shown, since any call may fail. The
steps of a rotation are dealt with here as well, once and for any assertions: each module about
the trace of an edit has its own idea of what to look for in it, and instantiates them.
-/

namespace SealedGroup

/-- The message hands a key pair out to a group. -/
def MessageBody.handsKeyOut : MessageBody → Bool
  | keyPair _ => true
  | _ => false

/-- A message with wrappers hands a key pair out. -/
theorem Message.handsKeyOut_of_body {message : Message} {wrappers : List Wrapper}
    (h : message.body = .keyPair wrappers) : message.body.handsKeyOut = true := by
  rw [h]
  rfl

/-- **A call of an operation of the backend**, with the answer that it got. -/
inductive Call where
  | loaded (id : Identifier) (answer : Except LedgerError (Option StoredGroup))
  | saved (state : StoredGroup) (answer : Except LedgerError Unit)
  | committed (id : Identifier) (answer : Except LedgerError Unit)
  | noticed (notice : Notice) (answer : Except LedgerError Unit)
  | pairRead (group : Identifier) (answer : Except LedgerError (Option KeyPair))
  | pairAdded (group : Identifier) (pair : KeyPair) (answer : Except LedgerError Bool)
  /-- A fresh secret was drawn. -/
  | drew (secret : Scalar)
  | sent (dispatch : Dispatch) (answer : Except SendError String)

/-- **An outside state with the trace** of what was done to it. -/
structure Traced (σ : Type) where
  outside : σ
  /-- The calls, oldest first. -/
  calls : List Call

/-- The world before anything is noted. -/
def World.traced {σ : Type} (world : World σ) : World (Traced σ) :=
  ⟨world.inFlight, ⟨world.outside, []⟩⟩

/-- The trace of a world. -/
def World.calls {σ : Type} (world : World (Traced σ)) : List Call :=
  world.outside.calls

namespace Traced

variable {σ α : Type}

/-- An action that leaves no trace. -/
def silently (action : StateM σ α) : StateM (Traced σ) α := fun s =>
  let (a, outside) := action s.outside
  (a, { s with outside := outside })

/-- An action that is entered into the trace, with its answer. -/
def entered (call : α → Call) (action : StateM σ α) : StateM (Traced σ) α := fun s =>
  let (a, outside) := action s.outside
  (a, ⟨outside, s.calls ++ [call a]⟩)

end Traced

/-- **The same backend, leaving a trace.** The clock is read without one, and so are
identifiers and coins drawn. -/
def Backend.traced {σ : Type} (backend : Backend σ) : Backend (Traced σ) where
  loadGroup id := Traced.entered (.loaded id) (backend.loadGroup id)
  saveGroup state := Traced.entered (.saved state) (backend.saveGroup state)
  commit id := Traced.entered (.committed id) (backend.commit id)
  appendNotice notice := Traced.entered (.noticed notice) (backend.appendNotice notice)
  currentPair group := Traced.entered (.pairRead group) (backend.currentPair group)
  appendPair group pair := Traced.entered (.pairAdded group pair) (backend.appendPair group pair)
  now := Traced.silently backend.now
  drawUuid := Traced.silently backend.drawUuid
  drawSecret := Traced.entered .drew backend.drawSecret
  drawCoins := Traced.silently backend.drawCoins
  send dispatch := fun world =>
    let (answer, after) := backend.send dispatch ⟨world.inFlight, world.outside.outside⟩
    (answer, ⟨after.inFlight, ⟨after.outside, world.outside.calls ++ [.sent dispatch answer]⟩⟩)

/-- **A rotation is ready**: its pair was drawn, is registered for the group, and is what
the wrappers of its message hold. -/
structure Rotation.Ready (group : Identifier) (pending : Rotation.Pending) (r : InFlight)
    (calls : List Call) : Prop where
  groupId : pending.groupId = group
  registered : r.get? group = some ⟨pending.attempt, pending.pair⟩
  drawn : .drew pending.pair.secret ∈ calls
  carried : ∃ wrappers, pending.message.body = .keyPair wrappers ∧
    ∀ wrapper ∈ wrappers, Wrapper.Seals pending.pair wrapper.recipient wrapper

namespace Act

variable {σ α β : Type}

/-- A call of a ledger that gave a value is entered with it. -/
theorem ok_of_exec_entered {call : Except LedgerError α → Call}
    {action : StateM σ (Except LedgerError α)} {world after : World (Traced σ)} {a : α}
    (h : (Act.ledger (Traced.entered call action)).exec world = (.ok a, after)) :
    (action world.outside.outside).1 = .ok a ∧ after.calls = world.calls ++ [call (.ok a)] := by
  have hexec : (Act.ledger (Traced.entered call action)).exec world =
      ((action world.outside.outside).1.mapError .ledger, ⟨world.inFlight,
        ⟨(action world.outside.outside).2,
          world.calls ++ [call (action world.outside.outside).1]⟩⟩) := rfl
  rw [hexec] at h
  rcases hanswer : (action world.outside.outside).1 with e | b <;> rw [hanswer] at h
  · cases h
  · cases h
    exact ⟨rfl, rfl⟩

/-- **A triple**: where the first assertion holds of the registry and the trace, the
operation gives a value for which the second one holds, or fails where the third one
does, and its trace goes on from the one before. -/
def Triple (P : InFlight → List Call → Prop) (act : Act (Traced σ) α)
    (Q : α → InFlight → List Call → Prop) (E : InFlight → List Call → Prop) : Prop :=
  ∀ world, P world.inFlight world.calls → world.calls <+: (act.exec world).2.calls ∧
    match act.exec world with
    | (.ok a, after) => Q a after.inFlight after.calls
    | (.error _, after) => E after.inFlight after.calls

namespace Triple

variable {P P' : InFlight → List Call → Prop} {Q Q' : α → InFlight → List Call → Prop}
  {R : β → InFlight → List Call → Prop} {E E' : InFlight → List Call → Prop}
  {act : Act (Traced σ) α}

/-- What a triple says of a run that gave a value. -/
theorem of_ok (h : Triple P act Q E) {world after : World (Traced σ)} {a : α}
    (hexec : act.exec world = (.ok a, after)) (hP : P world.inFlight world.calls) :
    Q a after.inFlight after.calls := by
  have hend := (h world hP).2
  rwa [hexec] at hend

/-- Whatever a run ended in, its trace goes on from the one before. -/
theorem grown (h : Triple P act Q E) {world after : World (Traced σ)}
    {result : Except ServiceError α} (hexec : act.exec world = (result, after))
    (hP : P world.inFlight world.calls) : world.calls <+: after.calls := by
  have hgrown := (h world hP).1
  rwa [hexec] at hgrown

/-- If both endings are of one kind, it does not matter how a run ended. -/
theorem of_exec (h : Triple P act (fun _ => E) E) {world : World (Traced σ)}
    (hP : P world.inFlight world.calls) :
    E (act.exec world).2.inFlight (act.exec world).2.calls := by
  have hend := (h world hP).2
  rcases hexec : act.exec world with ⟨e | a, after⟩ <;> rw [hexec] at hend
  · exact hend
  · exact hend

theorem pure {a : α} (h : ∀ r calls, P r calls → Q a r calls) :
    Triple P (Pure.pure a : Act (Traced σ) α) Q E :=
  fun world hP => ⟨List.prefix_rfl, h world.inFlight world.calls hP⟩

theorem throw {e : ServiceError} (h : ∀ r calls, P r calls → E r calls) :
    Triple P (MonadExcept.throw e : Act (Traced σ) α) Q E :=
  fun world hP => ⟨List.prefix_rfl, h world.inFlight world.calls hP⟩

/-- **One operation after another.** -/
theorem bind {next : α → Act (Traced σ) β} (hact : Triple P act Q E)
    (hnext : ∀ a, Triple (Q a) (next a) R E) : Triple P (act >>= next) R E := by
  intro world hP
  obtain ⟨hgrown, hend⟩ := hact world hP
  rw [exec_bind]
  rcases hexec : act.exec world with ⟨e | a, after⟩ <;> rw [hexec] at hgrown hend
  · exact ⟨hgrown, hend⟩
  · obtain ⟨hgrown', hend'⟩ := hnext a after hend
    exact ⟨hgrown.trans hgrown', hend'⟩

/-- An error that is caught is the beginning of what handles it. -/
theorem tryCatch {handle : ServiceError → Act (Traced σ) α} (hact : Triple P act Q E')
    (hhandle : ∀ e, Triple E' (handle e) Q E) :
    Triple P (MonadExcept.tryCatch act handle) Q E := by
  intro world hP
  obtain ⟨hgrown, hend⟩ := hact world hP
  rw [exec_tryCatch]
  rcases hexec : act.exec world with ⟨e | a, after⟩ <;> rw [hexec] at hgrown hend
  · obtain ⟨hgrown', hend'⟩ := hhandle e after hend
    exact ⟨hgrown.trans hgrown', hend'⟩
  · exact ⟨hgrown, hend⟩

theorem mono (hP : ∀ r calls, P' r calls → P r calls) (h : Triple P act Q E)
    (hQ : ∀ a r calls, Q a r calls → Q' a r calls) (hE : ∀ r calls, E r calls → E' r calls) :
    Triple P' act Q' E' := by
  intro world hworld
  obtain ⟨hgrown, hend⟩ := h world (hP _ _ hworld)
  refine ⟨hgrown, ?_⟩
  rcases hexec : act.exec world with ⟨e | a, after⟩ <;> rw [hexec] at hend
  · exact hE _ _ hend
  · exact hQ a _ _ hend

/-- An operation may start from more than it needs. -/
theorem weaken (h : Triple P act Q E) (hP : ∀ r calls, P' r calls → P r calls) :
    Triple P' act Q E :=
  h.mono hP (fun _ _ _ hQ => hQ) fun _ _ hE => hE

/-- It may be left open where a failure ends. -/
theorem anyhow (h : Triple P act Q E) : Triple P act Q fun _ _ => True :=
  h.mono (fun _ _ hP => hP) (fun _ _ _ hQ => hQ) fun _ _ _ => trivial

/-- **What lasts as a trace grows** can be carried along any operation. -/
theorem frame {F : List Call → Prop} (hF : ∀ {calls calls'}, calls <+: calls' → F calls → F calls')
    (h : Triple P act Q E) :
    Triple (fun r calls => P r calls ∧ F calls) act (fun a r calls => Q a r calls ∧ F calls)
      (fun r calls => E r calls ∧ F calls) := by
  rintro world ⟨hP, hlasts⟩
  obtain ⟨hgrown, hend⟩ := h world hP
  refine ⟨hgrown, ?_⟩
  have hlasts' := hF hgrown hlasts
  rcases hexec : act.exec world with ⟨e | a, after⟩ <;> rw [hexec] at hend hlasts'
  · exact ⟨hend, hlasts'⟩
  · exact ⟨hend, hlasts'⟩

/-! ## One call -/

/-- A ledger is called. -/
theorem ledger {call : Except LedgerError α → Call} {action : StateM σ (Except LedgerError α)}
    (hok : ∀ r calls a, P r calls → Q a r (calls ++ [call (.ok a)]))
    (herror : ∀ r calls e, P r calls → E r (calls ++ [call (.error e)])) :
    Triple P (Act.ledger (Traced.entered call action)) Q E := by
  rintro ⟨r, ⟨s, calls⟩⟩ hP
  have hexec : (Act.ledger (Traced.entered call action)).exec ⟨r, ⟨s, calls⟩⟩ =
      ((action s).1.mapError .ledger, ⟨r, ⟨(action s).2, calls ++ [call (action s).1]⟩⟩) := rfl
  rw [hexec]
  rcases action s with ⟨e | a, s'⟩
  · exact ⟨List.prefix_append .., herror r calls e hP⟩
  · exact ⟨List.prefix_append .., hok r calls a hP⟩

/-- Something is asked for that leaves a trace and cannot fail. -/
theorem entered {call : α → Call} {action : StateM σ α}
    (h : ∀ r calls a, P r calls → Q a r (calls ++ [call a])) :
    Triple P (Act.outside (Traced.entered call action)) Q E :=
  fun ⟨r, ⟨_, calls⟩⟩ hP => ⟨List.prefix_append .., h r calls _ hP⟩

/-- Something is done that leaves no trace. -/
theorem untraced {action : StateM (Traced σ) α} (hsilent : ∀ s, (action s).2.calls = s.calls)
    (h : ∀ r s calls, P r calls → Q (action s).1 r calls) :
    Triple P (Act.outside action) Q E := by
  rintro ⟨r, s⟩ hP
  have hcalls : (⟨r, (action s).2⟩ : World (Traced σ)).calls = s.calls := hsilent s
  show s.calls <+: (⟨r, (action s).2⟩ : World (Traced σ)).calls ∧
    Q (action s).1 r (⟨r, (action s).2⟩ : World (Traced σ)).calls
  rw [hcalls]
  exact ⟨List.prefix_rfl, h r s s.calls hP⟩

/-- The clock is read, or something drawn, without a trace. -/
theorem silently {action : StateM σ α} :
    Triple P (Act.outside (Traced.silently action)) (fun _ => P) E :=
  .untraced (fun _ => rfl) fun _ _ _ hP => hP

/-- The registry is changed. -/
theorem registry {change : InFlight → α × InFlight}
    (h : ∀ r calls, P r calls → Q (change r).1 (change r).2 calls) :
    Triple P (Act.registry change : Act (Traced σ) α) Q E :=
  fun ⟨r, s⟩ hP => ⟨List.prefix_rfl, h r s.calls hP⟩

/-- A message is handed to the transport. -/
theorem send {backend : Backend σ} {dispatch : Dispatch}
    {Q : Except SendError String → InFlight → List Call → Prop}
    (h : ∀ r s calls, P r calls → Q (backend.send dispatch ⟨r, s⟩).1
      (backend.send dispatch ⟨r, s⟩).2.inFlight
      (calls ++ [.sent dispatch (backend.send dispatch ⟨r, s⟩).1])) :
    Triple P (Act.whole (backend.traced.send dispatch)) Q E :=
  fun ⟨r, ⟨s, calls⟩⟩ hP => ⟨List.prefix_append .., h r s calls hP⟩

/-- The network time leaves no trace. -/
theorem networkTime (backend : Backend σ) (config : Config) :
    Triple P (config.networkTime backend.traced) (fun _ => P) E :=
  .bind .silently fun _ => .pure fun _ _ hP => hP

/-! ## The steps of a rotation -/

/-- Whether a rotation is refused is only read. -/
theorem refusal {backend : Backend σ} {id : Identifier}
    (hload : Triple P (Act.ledger (backend.traced.loadGroup id)) (fun _ => P) E) (config : Config)
    (requesterIsAdmin : Bool) :
    Triple P (Rotation.refusal backend.traced config id requesterIsAdmin) (fun _ => P) E := by
  unfold Rotation.refusal
  refine .bind hload fun stored => ?_
  cases stored with
  | none => exact .pure fun _ _ h => h
  | some state =>
    dsimp only
    split
    · exact .pure fun _ _ h => h
    · split <;> exact .pure fun _ _ h => h

/-- **Wrapping leaves no trace**, and each wrapper that it gives holds the pair. -/
theorem wrapAll (backend : Backend σ) (pair : KeyPair) (targets : List Identifier) :
    Triple P (Act.outside (Wrapper.wrapAll backend.traced.drawCoins pair targets))
      (fun result r calls => P r calls ∧ ∀ wrappers, result = .ok wrappers →
        ∀ wrapper ∈ wrappers, Wrapper.Seals pair wrapper.recipient wrapper) E := by
  refine .untraced (Wrapper.wrapAll_state backend.traced.drawCoins pair
    (R := fun s s' => s'.calls = s.calls) (fun _ => rfl) (fun h h' => h'.trans h) (fun _ => rfl)
    targets) fun r s calls hP => ⟨hP, fun wrappers hwrappers => ?_⟩
  exact Wrapper.seals_of_wrapAll (Prod.ext hwrappers rfl)

/-- **Preparing a rotation** reads the group and draws a pair. What holds once the pair is
drawn is not undone by the rest, and the rotation is ready if nothing stood in its way. -/
theorem prepare {backend : Backend σ} {id : Identifier} {D : List Call → Prop}
    (hload : Triple P (Act.ledger (backend.traced.loadGroup id)) (fun _ => P) E)
    (hdrew : ∀ r calls secret, P r calls → D (calls ++ [.drew secret]))
    (herror : ∀ r calls, D calls → E r calls) (config : Config) (targets : List Identifier)
    (requesterIsAdmin : Bool) :
    Triple P (Rotation.prepare backend.traced config id targets requesterIsAdmin)
      (fun prepared r calls => (∀ outcome, prepared = .skipped outcome → P r calls) ∧
        ∀ pending, prepared = .ready pending → D calls ∧ Rotation.Ready id pending r calls) E := by
  unfold Rotation.prepare
  refine .bind (.refusal hload config requesterIsAdmin) fun outcome? => ?_
  cases outcome? with
  | some outcome => exact .pure fun _ _ h => ⟨fun _ _ => h, nofun⟩
  | none =>
    dsimp only
    refine .bind (Q := fun secret _ calls => D calls ∧ .drew secret ∈ calls)
      (.entered fun r calls secret h => ⟨hdrew r calls secret h,
        List.mem_append_right _ (List.mem_singleton.mpr rfl)⟩) fun secret => ?_
    refine .bind .silently fun attempt => ?_
    refine .bind (Q := fun _ r calls => (D calls ∧ .drew secret ∈ calls) ∧
      r.get? id = some ⟨attempt, KeyPair.ofSecret secret⟩)
      (.registry fun r calls h => ⟨h, InFlight.get?_register_self ..⟩) fun _ => ?_
    refine .bind (.wrapAll backend (KeyPair.ofSecret secret) targets) fun result => ?_
    cases result with
    | error cause =>
      exact .bind (Q := fun _ => E) (.registry fun _ _ h => herror _ _ h.1.1.1) fun _ =>
        .throw fun _ _ h => h
    | ok wrappers =>
      refine .bind .silently fun identifier => .bind (.networkTime backend config) fun createdAt =>
        .pure fun r calls h => ⟨nofun, fun pending hpending => ?_⟩
      cases hpending
      exact ⟨h.1.1.1, rfl, h.1.2, h.1.1.2, wrappers, rfl, h.2 wrappers rfl⟩

/-- **A rotation is settled**: the pair of a registered attempt is handed to the ledger,
and a stale attempt changes nothing. -/
theorem settle {backend : Backend σ} {pending : Rotation.Pending}
    {Q : Bool → InFlight → List Call → Prop} (hstale : ∀ r calls, P r calls → Q false r calls)
    (hok : ∀ r calls pair added, P r calls →
      r.get? pending.groupId = some ⟨pending.attempt, pair⟩ →
        Q true (r.erase pending.groupId) (calls ++ [.pairAdded pending.groupId pair (.ok added)]))
    (herror : ∀ r calls pair e, P r calls →
      r.get? pending.groupId = some ⟨pending.attempt, pair⟩ →
        E r (calls ++ [.pairAdded pending.groupId pair (.error e)])) :
    Triple P (Rotation.settle backend.traced pending) Q E := by
  rintro ⟨r, ⟨s, calls⟩⟩ hP
  rw [Rotation.exec_settle]
  cases hcurrent : r.isCurrent pending.groupId pending.attempt with
  | false =>
    rw [InFlight.settle_of_stale hcurrent]
    exact ⟨List.prefix_rfl, hstale r calls hP⟩
  | true =>
    obtain ⟨pair, hget⟩ := InFlight.isCurrent_iff.mp hcurrent
    rw [InFlight.settle_of_current hget]
    have hstored : Rotation.storePair backend.traced pending.groupId ⟨pending.attempt, pair⟩
        ⟨s, calls⟩ = ((backend.appendPair pending.groupId pair s).1.map fun _ => (),
          ⟨(backend.appendPair pending.groupId pair s).2, calls ++
            [.pairAdded pending.groupId pair (backend.appendPair pending.groupId pair s).1]⟩) :=
      rfl
    simp only [Bind.bind, StateT.bind, hstored]
    rcases (backend.appendPair pending.groupId pair s).1 with e | added
    · exact ⟨List.prefix_append .., herror r calls pair e hP hget⟩
    · exact ⟨List.prefix_append .., hok r calls pair added hP hget⟩

/-- A confirmed rotation is settled, and its group committed. -/
theorem confirm {backend : Backend σ} {pending : Rotation.Pending}
    {S : InFlight → List Call → Prop}
    (hsettle : Triple P (Rotation.settle backend.traced pending) (fun _ => S) E)
    (hcommit : Triple S (Act.ledger (backend.traced.commit pending.groupId)) (fun _ => S) E) :
    Triple P (Rotation.confirm backend.traced pending) (fun _ => S) E := by
  unfold Rotation.confirm
  refine .bind hsettle fun settled => ?_
  split
  · exact .bind hcommit fun _ => .pure fun _ _ h => h
  · exact .pure fun _ _ h => h

end Triple

end Act

end SealedGroup
