import SealedGroup.Proofs.Service.Comparison

/-!
# A record changes nothing

Some statements are about what a run has sent or drawn, and a run leaves no account of that:
once a message is handed over, it is gone. So they are proved of an environment that keeps a
record. The environments that the service is run in keep none, however, and the statements are
to hold there.

An environment with a record answers as the one that it is made from, and nobody reads the
record. So an operation cannot tell whether one is kept: it gives the same result, and leaves
the same world, once the record is forgotten (`Ledgers.alike_recorded`). What is proved of an
edit with its record at hand then holds of the same edit without any
(`Service.exec_edit_forget`).

There is next to nothing to prove for this. That two backends which answer alike cannot be told
apart by any operation is `Backend.Alike`, which was made for comparing groups and environments;
here both backends have the same ledgers and the same answers, and the worlds are related by
`Forgets`, that one is the other without its record. Each operation of the environment is either
passed through or noted beside its state, and in both cases the relation is restored by
definition.
-/

namespace SealedGroup

variable {ε : Type}

/-- The world without the record that its environment keeps. -/
def World.forget (world : World (Local (Recorded ε))) : World (Local ε) :=
  ⟨world.inFlight, ⟨world.outside.ledgers, world.outside.environment.inner⟩⟩

/-- **The first world is the second one without its record**, over sound ledgers. -/
structure Forgets (world : World (Local ε)) (world' : World (Local (Recorded ε))) : Prop where
  forget_eq : world = world'.forget
  sound : world.outside.ledgers.Sound

/-- An action of the environment may be recorded. -/
theorem Forgets.environmental {α : Type} {action : StateM ε α} {action' : StateM (Recorded ε) α}
    (hvalue : ∀ e, (action' e).1 = (action e.inner).1)
    (hafter : ∀ e, (action' e).2.inner = (action e.inner).2) :
    Act.Alike Forgets (Act.outside (Local.environmental action))
      (Act.outside (Local.environmental action')) := by
  rintro _ ⟨r, ⟨ledgers, e⟩⟩ ⟨rfl, hsound⟩
  refine ⟨congrArg Except.ok (hvalue e), ?_, hsound⟩
  show (⟨r, ⟨ledgers, (action e.inner).2⟩⟩ : World (Local ε)) = ⟨r, ⟨ledgers, (action' e).2.inner⟩⟩
  rw [hafter]

/-- **The operations of the backend cannot tell** whether a record is kept. -/
theorem Ledgers.alike_recorded (environment : Environment ε) (group : Identifier) :
    (backend environment).Alike (backend environment.recorded) group Forgets where
  loadGroup := by
    rintro _ ⟨r, ⟨ledgers, e⟩⟩ ⟨rfl, hsound⟩
    exact ⟨rfl, rfl, hsound⟩
  filed := fun h _ hload => h.sound.filed (Except.ok.inj hload)
  saveGroup := by
    rintro state - _ ⟨r, ⟨ledgers, e⟩⟩ ⟨rfl, hsound⟩
    exact ⟨rfl, rfl, hsound.put state⟩
  commit := by
    rintro _ ⟨r, ⟨ledgers, e⟩⟩ ⟨rfl, hsound⟩
    unfold World.forget
    rw [Act.exec_outside, Act.exec_outside]
    cases hcommit : ledgers.groups.commit group with
    | error error =>
      rw [commit_of_error environment hcommit, commit_of_error environment.recorded hcommit]
      exact ⟨rfl, rfl, hsound⟩
    | ok groups =>
      rw [commit_of_ok environment hcommit, commit_of_ok environment.recorded hcommit]
      exact ⟨rfl, rfl, hsound.of_get? (GroupLedger.get?_of_commit hcommit)⟩
  appendNotice := by
    rintro notice - _ ⟨r, ⟨ledgers, e⟩⟩ ⟨rfl, hsound⟩
    exact ⟨rfl, rfl, hsound.of_get? fun _ => rfl⟩
  currentPair := by
    rintro _ ⟨r, ⟨ledgers, e⟩⟩ ⟨rfl, hsound⟩
    exact ⟨rfl, rfl, hsound⟩
  appendPair := by
    rintro pair _ ⟨r, ⟨ledgers, e⟩⟩ ⟨rfl, hsound⟩
    exact ⟨rfl, rfl, hsound.add group pair⟩
  now := Forgets.environmental (fun _ => rfl) fun _ => rfl
  drawUuid := Forgets.environmental (fun _ => rfl) fun _ => rfl
  drawSecret := Forgets.environmental (fun _ => rfl) fun _ => rfl
  drawCoins := Forgets.environmental (fun _ => rfl) fun _ => rfl
  send := by
    rintro dispatch _ ⟨r, ⟨ledgers, e⟩⟩ ⟨rfl, hsound⟩
    exact ⟨rfl, rfl, hsound⟩
  attempt := by
    rintro _ world ⟨rfl, -⟩
    rfl
  register := by
    rintro _ world ⟨rfl, hsound⟩ attempt pair
    exact ⟨rfl, hsound⟩
  erase := by
    rintro _ world ⟨rfl, hsound⟩
    exact ⟨rfl, hsound⟩

/-- **An edit does the same without a record** of it. -/
theorem Service.exec_edit_forget {environment : Environment ε} {config : Config}
    {group : Identifier} {name : String} {members : List Identifier}
    {world after : World (Local (Recorded ε))} {result : Except ServiceError EditReport}
    (hsound : world.outside.ledgers.Sound)
    (hexec : (edit (Ledgers.backend environment.recorded) config group name members).exec world =
      (result, after)) :
    (edit (Ledgers.backend environment) config group name members).exec world.forget =
      (result, after.forget) := by
  obtain ⟨hresult, hafter⟩ := (Ledgers.alike_recorded environment group).edit config name members
    world.forget world ⟨rfl, hsound⟩
  rw [hexec] at hresult hafter
  exact Prod.ext hresult.symm hafter.forget_eq

end SealedGroup
