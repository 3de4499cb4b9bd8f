import SealedGroup.Ledger.Keys
import SealedGroup.Proofs.Text.Hexadecimal

/-!
# Rows of the key pair ledger

The ledger keeps a pair as two hexadecimal texts, and it compares texts to tell whether a pair
is new. Two questions arise from this. Does the ledger take two different pairs for one, or one
pair for two? And can the latest pair always be got back from its row? A row that was written
for a pair reads back as that pair (`KeyPair.ofRow_toRow`), so that different pairs have
different rows and the latest pair of a group can always be rebuilt.

What is read here is only what was written here, and so the reader may be as strict or as
lenient as it likes about anything else. The rows that a ledger would refuse are described
elsewhere, by `KeyRow.Reads`; a ledger that has been filled by its own additions has none of
them.

The other lemmas say once and for all what an addition does to a history, so that no proof about
rotations has to look into the table of the ledger: a new pair is put at the end
(`KeyLedger.history_add_of_not_mem`), the histories of other groups stay
(`KeyLedger.history_add_of_ne`), and the pair whose row stands last is the latest one
(`KeyLedger.latest_of_history_eq`).
-/

namespace SealedGroup

namespace KeyPair

/-- **A row reads back** as the pair it was written for. -/
theorem ofRow_toRow (pair : KeyPair) : ofRow pair.toRow = .ok pair := by
  unfold ofRow toRow publicText
  rw [Hex.decode_encode, Hex.decode_encode]
  exact ofParts_bytes pair

/-- Different pairs have different rows. -/
theorem toRow_inj {p q : KeyPair} : p.toRow = q.toRow ↔ p = q := by
  constructor
  · intro h
    have hread : (Except.ok p : Except KeyPairError KeyPair) = .ok q := by
      rw [← ofRow_toRow p, ← ofRow_toRow q, h]
    exact Except.ok.inj hread
  · rintro rfl
    rfl

end KeyPair

namespace KeyLedger

/-- The latest pair is the one whose row stands last. -/
theorem latest_of_getLast? {ledger : KeyLedger} {group : Identifier} {pair : KeyPair}
    (h : (ledger.history group).getLast? = some pair.toRow) :
    ledger.latest group = .ok (some pair) := by
  unfold latest
  simp only [h, KeyPair.ofRow_toRow]

/-- A group without history has no latest pair. -/
theorem latest_of_nil {ledger : KeyLedger} {group : Identifier} (h : ledger.history group = []) :
    ledger.latest group = .ok none := by
  unfold latest
  rw [h]
  rfl

/-- **What the addition of a new pair does** to the history of its group. -/
theorem history_add_of_not_mem {ledger : KeyLedger} {group : Identifier} {pair : KeyPair}
    (h : pair.toRow ∉ ledger.history group) :
    (ledger.add group pair).2.history group = ledger.history group ++ [pair.toRow] := by
  rw [history_add, if_pos ⟨rfl, h⟩]

/-- An addition to one group leaves the histories of the others. -/
theorem history_add_of_ne {ledger : KeyLedger} {group other : Identifier} (pair : KeyPair)
    (h : other ≠ group) : (ledger.add group pair).2.history other = ledger.history other := by
  rw [history_add, if_neg fun hboth => h hboth.1]

/-- A pair that was added last is the latest one. -/
theorem latest_of_history_eq {ledger : KeyLedger} {group : Identifier} {pair : KeyPair}
    {rows : List KeyRow} (h : ledger.history group = rows ++ [pair.toRow]) :
    ledger.latest group = .ok (some pair) := by
  refine latest_of_getLast? ?_
  rw [h, List.getLast?_concat]

end KeyLedger

end SealedGroup
