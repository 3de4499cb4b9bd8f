import SealedGroup.KeyPair.Basic
import SealedGroup.Ledger.Error
import SealedGroup.Table

/-!
# The key pair ledger

The key pairs that each group has had, the latest last. Pairs are kept as
rows of hexadecimal text and rebuilt when they are read; a pair is added at
most once to the history of a group.

`KeyLedger.history_add` says what an addition does: a pair that is new to its
group goes to the end of that history, and nothing else changes.
-/

namespace SealedGroup

/-- **A ledger of key pair histories.** -/
structure KeyLedger where
  /-- The rows of each group, oldest first. -/
  rows : Table (List KeyRow)
  deriving DecidableEq

namespace KeyLedger

/-- The ledger without key pairs. -/
def empty : KeyLedger := ⟨Table.empty⟩

/-- The rows of a group, oldest first. -/
def history (ledger : KeyLedger) (group : Identifier) : List KeyRow :=
  (ledger.rows.get? group).getD []

/-- **The latest key pair of a group**, rebuilt from its row. -/
def latest (ledger : KeyLedger) (group : Identifier) : Except LedgerError (Option KeyPair) :=
  match (ledger.history group).getLast? with
  | none => .ok none
  | some row =>
    match KeyPair.ofRow row with
    | .ok pair => .ok (some pair)
    | .error e => .error (.serialization e.message)

/-- **The ledger with a pair added to the history of a group**, and whether it
was added: a pair that is already there is left in its place. -/
def add (ledger : KeyLedger) (group : Identifier) (pair : KeyPair) : Bool × KeyLedger :=
  if pair.toRow ∈ ledger.history group then (false, ledger)
  else (true, ⟨ledger.rows.insert group (ledger.history group ++ [pair.toRow])⟩)

/-- A pair is added exactly if the group has not had it. -/
theorem add_fst {ledger : KeyLedger} {group : Identifier} {pair : KeyPair} :
    (ledger.add group pair).1 = true ↔ pair.toRow ∉ ledger.history group := by
  unfold add
  split <;> simp_all

/-- **What an addition changes**: a new pair goes to the end of the history of
its own group. -/
theorem history_add (ledger : KeyLedger) (group other : Identifier) (pair : KeyPair) :
    (ledger.add group pair).2.history other =
      if other = group ∧ pair.toRow ∉ ledger.history group then
        ledger.history group ++ [pair.toRow]
      else ledger.history other := by
  unfold add
  by_cases hmem : pair.toRow ∈ ledger.history group
  · simp [hmem]
  · simp only [if_neg hmem]
    show ((ledger.rows.insert group _).get? other).getD [] = _
    rw [Table.get?_insert]
    by_cases heq : other = group
    · rw [if_pos heq, if_pos ⟨heq, hmem⟩]
      rfl
    · rw [if_neg heq, if_neg fun h => heq h.1]
      rfl

end KeyLedger

end SealedGroup
