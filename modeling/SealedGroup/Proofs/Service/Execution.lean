import SealedGroup.Service.Edit

/-!
# Executing operations of the service

An operation is a program over the world: the registry of rotations, and whatever the backend
has for a state. It may end in an error, and it may have changed the world by then. `Act.exec`
gives its result and the world after it, and the equations of this module say what that is for
each way of making an operation: one after another, with an error caught, or from a single
action on a part of the world. They are the only place where the monad is opened. Everything
after it rewrites with `Act.exec_bind_of_ok`, or takes a run that ended well apart with
`Act.ok_of_exec_bind`.

That an error keeps the changes that were made before it is a choice with consequences, and
`Act.exec_tryCatch` is where it shows: what is done after an error was caught is done in the
world that the error left.

## Two notions for whole operations

Two notions are closed under all of these ways, and so are proved of a long operation piece by
piece, without looking at what it computes. An operation *respects* a relation if the world
after it is always related to the world before, which is how one says that some part of the
world stays as it is; the relation is asked to be reflexive and transitive where the ways need
it. An operation *succeeds* if no world makes it end in an error. Neither speaks of results.
What an operation gives is a matter of equations in memory, or of triples over a trace.
-/

namespace SealedGroup

namespace Act

variable {σ α β : Type}

/-- **One operation after another**: an error of the first one ends both. -/
theorem exec_bind (act : Act σ α) (next : α → Act σ β) (world : World σ) :
    (act >>= next).exec world =
      match act.exec world with
      | (.ok a, after) => (next a).exec after
      | (.error e, after) => (.error e, after) := by
  show (ExceptT.bind act next : Act σ β) world = _
  unfold ExceptT.bind ExceptT.mk ExceptT.bindCont exec
  simp only [bind, StateT.bind]
  rcases act world with ⟨result, after⟩
  cases result <;> rfl

/-- Once the first operation gave a value, the second one is left. -/
theorem exec_bind_of_ok {act : Act σ α} {next : α → Act σ β} {world after : World σ} {a : α}
    (h : act.exec world = (.ok a, after)) : (act >>= next).exec world = (next a).exec after := by
  rw [exec_bind, h]

/-- Once the first operation failed, nothing is left. -/
theorem exec_bind_of_error {act : Act σ α} {next : α → Act σ β} {world after : World σ}
    {e : ServiceError} (h : act.exec world = (.error e, after)) :
    (act >>= next).exec world = (.error e, after) := by
  rw [exec_bind, h]

/-- What ends in a value gives one at each step. -/
theorem ok_of_exec_bind {act : Act σ α} {next : α → Act σ β} {world after : World σ} {b : β}
    (h : (act >>= next).exec world = (.ok b, after)) :
    ∃ a between, act.exec world = (.ok a, between) ∧ (next a).exec between = (.ok b, after) := by
  rw [exec_bind] at h
  rcases hact : act.exec world with ⟨e | a, between⟩ <;> rw [hact] at h
  · cases h
  · exact ⟨a, between, rfl, h⟩

@[simp] theorem exec_pure (a : α) (world : World σ) :
    (pure a : Act σ α).exec world = (.ok a, world) := rfl

@[simp] theorem exec_throw (e : ServiceError) (world : World σ) :
    (throw e : Act σ α).exec world = (.error e, world) := rfl

/-- **Catching an error** keeps the world that the error left. -/
theorem exec_tryCatch (act : Act σ α) (handle : ServiceError → Act σ α) (world : World σ) :
    (tryCatch act handle).exec world =
      match act.exec world with
      | (.ok a, after) => (.ok a, after)
      | (.error e, after) => (handle e).exec after := by
  show (ExceptT.tryCatch act handle : Act σ α) world = _
  unfold ExceptT.tryCatch ExceptT.mk exec
  simp only [bind, StateT.bind]
  rcases act world with ⟨result, after⟩
  cases result <;> rfl

@[simp] theorem exec_outside (action : StateM σ α) (r : InFlight) (s : σ) :
    (outside action).exec ⟨r, s⟩ = (.ok (action s).1, ⟨r, (action s).2⟩) := rfl

/-- An action on the outside state gives what it does. -/
theorem exec_outside_of_eq {action : StateM σ α} {r : InFlight} {s s' : σ} {a : α}
    (h : action s = (a, s')) : (outside action).exec ⟨r, s⟩ = (.ok a, ⟨r, s'⟩) := by
  rw [exec_outside, h]

/-- A ledger that answers gives the value. -/
theorem exec_ledger_of_ok {action : StateM σ (Except LedgerError α)} {r : InFlight} {s s' : σ}
    {a : α} (h : action s = (.ok a, s')) :
    (ledger action).exec ⟨r, s⟩ = (.ok a, ⟨r, s'⟩) := by
  show ((action s).1.mapError ServiceError.ledger, (⟨r, (action s).2⟩ : World σ)) = _
  rw [h]
  rfl

/-- A ledger that fails ends the operation. -/
theorem exec_ledger_of_error {action : StateM σ (Except LedgerError α)} {r : InFlight}
    {s s' : σ} {cause : LedgerError} (h : action s = (.error cause, s')) :
    (ledger action).exec ⟨r, s⟩ = (.error (.ledger cause), ⟨r, s'⟩) := by
  show ((action s).1.mapError ServiceError.ledger, (⟨r, (action s).2⟩ : World σ)) = _
  rw [h]
  rfl

@[simp] theorem exec_registry (change : InFlight → α × InFlight) (r : InFlight) (s : σ) :
    (registry change).exec ⟨r, s⟩ = (.ok (change r).1, ⟨(change r).2, s⟩) := rfl

@[simp] theorem exec_whole (action : StateM (World σ) α) (world : World σ) :
    (whole action).exec world = (.ok (action world).1, (action world).2) := rfl

/-! ## Relations that an operation respects -/

/-- **The world after the operation is always related to the world before.** -/
def Respects (R : World σ → World σ → Prop) (act : Act σ α) : Prop :=
  ∀ world, R world (act.exec world).2

section Respects

variable {R : World σ → World σ → Prop}

theorem Respects.pure (hrefl : ∀ world, R world world) (a : α) :
    Respects R (Pure.pure a : Act σ α) :=
  fun world => hrefl world

theorem Respects.throw (hrefl : ∀ world, R world world) (e : ServiceError) :
    Respects R (MonadExcept.throw e : Act σ α) :=
  fun world => hrefl world

theorem Respects.bind (htrans : ∀ {u v w}, R u v → R v w → R u w) {act : Act σ α}
    {next : α → Act σ β} (hact : Respects R act) (hnext : ∀ a, Respects R (next a)) :
    Respects R (act >>= next) := by
  intro world
  have hfirst := hact world
  rw [exec_bind]
  rcases h : act.exec world with ⟨result, after⟩
  rw [h] at hfirst
  cases result with
  | error e => exact hfirst
  | ok a => exact htrans hfirst (hnext a after)

theorem Respects.tryCatch (htrans : ∀ {u v w}, R u v → R v w → R u w) {act : Act σ α}
    {handle : ServiceError → Act σ α} (hact : Respects R act)
    (hhandle : ∀ e, Respects R (handle e)) :
    Respects R (MonadExcept.tryCatch act handle) := by
  intro world
  have hfirst := hact world
  rw [exec_tryCatch]
  rcases h : act.exec world with ⟨result, after⟩
  rw [h] at hfirst
  cases result with
  | error e => exact htrans hfirst (hhandle e after)
  | ok a => exact hfirst

end Respects

/-! ## Operations that never fail -/

/-- **No world makes the operation end in an error.** -/
def Succeeds (act : Act σ α) : Prop :=
  ∀ world, ∃ a, (act.exec world).1 = .ok a

theorem Succeeds.pure (a : α) : Succeeds (Pure.pure a : Act σ α) :=
  fun _ => ⟨a, rfl⟩

theorem Succeeds.outside (action : StateM σ α) : Succeeds (Act.outside action) :=
  fun world => ⟨(action world.outside).1, rfl⟩

theorem Succeeds.whole (action : StateM (World σ) α) : Succeeds (Act.whole action) :=
  fun world => ⟨(action world).1, rfl⟩

theorem Succeeds.bind {act : Act σ α} {next : α → Act σ β} (hact : Succeeds act)
    (hnext : ∀ a, Succeeds (next a)) : Succeeds (act >>= next) := by
  intro world
  obtain ⟨a, ha⟩ := hact world
  rcases h : act.exec world with ⟨result, after⟩
  rw [h] at ha
  cases ha
  rw [exec_bind_of_ok h]
  exact hnext a after

/-- An operation whose errors are caught by one that never fails never fails. -/
theorem Succeeds.tryCatch (act : Act σ α) {handle : ServiceError → Act σ α}
    (hhandle : ∀ e, Succeeds (handle e)) : Succeeds (MonadExcept.tryCatch act handle) := by
  intro world
  rw [exec_tryCatch]
  rcases act.exec world with ⟨result, after⟩
  cases result with
  | error e => exact hhandle e after
  | ok a => exact ⟨a, rfl⟩

end Act

end SealedGroup
