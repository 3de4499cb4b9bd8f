import SealedGroup.Service.Edit
import SealedGroup.Ledger.Groups
import SealedGroup.Ledger.Keys

/-!
# The service over ledgers in memory

The backend over the two ledgers, both kept in memory. The clock, the source
of randomness and the transport are those of an `Environment`. It never touches
the ledgers; but while a message is on its way others have their turn, and these
may register attempts of their own and remove those they find.
-/

namespace SealedGroup

/-- The two ledgers. -/
structure Ledgers where
  groups : GroupLedger
  keys : KeyLedger
  deriving DecidableEq

/-- The ledgers without any entry. -/
def Ledgers.empty : Ledgers := ⟨GroupLedger.empty, KeyLedger.empty⟩

/-- A clock, a source of randomness and a transport, over a state of their
own. -/
structure Environment (ε : Type) where
  now : StateM ε Int64
  drawUuid : StateM ε Uuid
  drawSecret : StateM ε Scalar
  drawCoins : StateM ε Coins
  send : Dispatch → StateM ε (Except SendError String)
  /-- What others do to the registry while a message is on its way. -/
  meanwhile : Dispatch → InFlight → ε → InFlight × ε := fun _ r e => (r, e)
  /-- No attempt of theirs goes by the identifier of another one. -/
  distinct : ∀ {dispatch r e group attempt attempt'}, r.get? group = some attempt →
    (meanwhile dispatch r e).1.get? group = some attempt' → attempt'.id = attempt.id →
      attempt' = attempt := by intros; simp_all

/-- **A message is handed to the transport**: others have their turn, and the answer
comes. -/
def Environment.transmit {ε : Type} (environment : Environment ε) (dispatch : Dispatch)
    (r : InFlight) (e : ε) : Except SendError String × InFlight × ε :=
  let (r, e) := environment.meanwhile dispatch r e
  let (answer, e) := environment.send dispatch e
  (answer, r, e)

/-- The outside state of the service: the ledgers, and what the environment keeps. -/
structure Local (ε : Type) where
  ledgers : Ledgers
  environment : ε

namespace Local

variable {ε α : Type}

/-- An action of the environment. -/
def environmental (action : StateM ε α) : StateM (Local ε) α := fun s =>
  let (a, e) := action s.environment
  (a, { s with environment := e })

/-- An action on the group ledger. -/
def onGroups (action : GroupLedger → α × GroupLedger) : StateM (Local ε) α := fun s =>
  let (a, groups) := action s.ledgers.groups
  (a, { s with ledgers := { s.ledgers with groups := groups } })

/-- An action on the key pair ledger. -/
def onKeys (action : KeyLedger → α × KeyLedger) : StateM (Local ε) α := fun s =>
  let (a, keys) := action s.ledgers.keys
  (a, { s with ledgers := { s.ledgers with keys := keys } })

end Local

/-- **The backend over ledgers in memory.** -/
def Ledgers.backend {ε : Type} (environment : Environment ε) : Backend (Local ε) where
  loadGroup id := Local.onGroups fun ledger => (.ok (ledger.get? id), ledger)
  saveGroup state := Local.onGroups fun ledger => (.ok (), ledger.put state)
  commit id := Local.onGroups fun ledger =>
    match ledger.commit id with
    | .ok ledger => (.ok (), ledger)
    | .error e => (.error e, ledger)
  appendNotice notice := Local.onGroups fun ledger => (.ok (), ledger.append notice)
  currentPair group := Local.onKeys fun ledger => (ledger.latest group, ledger)
  appendPair group pair := Local.onKeys fun ledger =>
    let (added, ledger) := ledger.add group pair
    (.ok added, ledger)
  now := Local.environmental environment.now
  drawUuid := Local.environmental environment.drawUuid
  drawSecret := Local.environmental environment.drawSecret
  drawCoins := Local.environmental environment.drawCoins
  send dispatch := fun world =>
    let (answer, r, e) :=
      environment.transmit dispatch world.inFlight world.outside.environment
    (answer, ⟨r, { world.outside with environment := e }⟩)

end SealedGroup
