import SealedGroup.Service.Backend

/-!
# Faults

A ledger may fail at any call. `Backend.armed` makes the ledgers of a backend
fail on purpose: a fault that is armed for an operation lets some successful
calls of it pass, and then lets one call fail before the ledger is touched. Each
operation has its own fault. The clock, the randomness and the transport are those
of the backend.
-/

namespace SealedGroup

/-- The operations of the ledgers. -/
inductive LedgerOperation where
  | loadGroup
  | saveGroup
  | commit
  | appendNotice
  | currentPair
  | appendPair
  deriving DecidableEq, Repr

/-- **How an operation is to fail**: once, and not at once. -/
structure Fault where
  /-- How many successful calls pass before. -/
  skip : Nat
  error : LedgerError
  deriving DecidableEq, Repr

/-- **An outside state with the faults that are armed**, one at most for an operation. -/
structure Armed (σ : Type) where
  outside : σ
  faults : LedgerOperation → Option Fault

namespace Armed

variable {σ α : Type}

/-- An outside state in which every operation works. -/
def unarmed (outside : σ) : Armed σ := ⟨outside, fun _ => none⟩

/-- The state with the fault of an operation set; the faults of the others stay. -/
def setFault (s : Armed σ) (operation : LedgerOperation) (fault : Option Fault) : Armed σ :=
  { s with faults := fun other => if other = operation then fault else s.faults other }

/-- An action that no fault concerns. -/
def safely (action : StateM σ α) : StateM (Armed σ) α := fun s =>
  let (a, outside) := action s.outside
  (a, { s with outside := outside })

/-- A call of a ledger operation under the fault that is armed for it. -/
def call (operation : LedgerOperation) (action : StateM σ (Except LedgerError α)) :
    StateM (Armed σ) (Except LedgerError α) := fun s =>
  match s.faults operation with
  | none => safely action s
  | some ⟨0, error⟩ => (.error error, s.setFault operation none)
  | some ⟨skip + 1, error⟩ =>
    let (result, after) := safely action s
    (result, if result.toBool then after.setFault operation (some ⟨skip, error⟩) else after)

/-- An action on the world of the backend. -/
def inWorld (action : StateM (World σ) α) : StateM (World (Armed σ)) α := fun world =>
  let (a, inner) := action ⟨world.inFlight, world.outside.outside⟩
  (a, ⟨inner.inFlight, { world.outside with outside := inner.outside }⟩)

end Armed

/-- **The backend with faults.** -/
def Backend.armed {σ : Type} (backend : Backend σ) : Backend (Armed σ) where
  loadGroup id := Armed.call .loadGroup (backend.loadGroup id)
  saveGroup state := Armed.call .saveGroup (backend.saveGroup state)
  commit id := Armed.call .commit (backend.commit id)
  appendNotice notice := Armed.call .appendNotice (backend.appendNotice notice)
  currentPair group := Armed.call .currentPair (backend.currentPair group)
  appendPair group pair := Armed.call .appendPair (backend.appendPair group pair)
  now := Armed.safely backend.now
  drawUuid := Armed.safely backend.drawUuid
  drawSecret := Armed.safely backend.drawSecret
  drawCoins := Armed.safely backend.drawCoins
  send dispatch := Armed.inWorld (backend.send dispatch)

end SealedGroup
