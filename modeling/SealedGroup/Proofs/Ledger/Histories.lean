import Mathlib.Data.List.Nodup
import SealedGroup.Proofs.Ledger.Rows
import SealedGroup.Proofs.Ledger.Transcript

/-!
# Key pair histories are logs

The key pair ledger is told pairs and asked for the latest one. What it says to an addition,
that the pair is new or that it is not, makes a log of each group: the pairs that were accepted
as new, in order. The ledger keeps exactly this log, as rows, and reads the rows back without
fail.

`KeyLedger.histories_are_logs` says so after any calls: a history repeats no pair and only ever
grows at its end, a pair is new exactly if no earlier call added it, and the latest pair is the
one that was accepted last. What is appended can therefore neither be lost nor be moved; an
older pair that is offered again is refused and does not become the latest one by that.

## The log and the rows

The log is read off the transcript, by `KeyLedger.accepted`, and is a list of pairs. The ledger
holds rows of text. `KeyLedger.Remembers` relates the two, and adds what is needed to go on:
that no pair stands in the log twice, and that a pair stands there if it was ever offered,
whatever was answered. The second half is what makes an answer predictable, since it ties it to
the calls and not to earlier answers.

An addition is one of two cases, by whether the row is there, and each has a lemma
(`KeyLedger.Remembers.concat_of_accepted`, `KeyLedger.Remembers.concat_of_not_accepted`). Reads
are instances of the second.
-/

namespace SealedGroup

namespace KeyLedger

open Transcript

/-! ## Calls and answers -/

/-- A call of the ledger. -/
inductive Call where
  | add (group : Identifier) (pair : KeyPair)
  | latest (group : Identifier)
  | count (group : Identifier)
  deriving DecidableEq

/-- What the ledger answers. -/
inductive Answer where
  /-- Whether the pair was new. -/
  | added (new : Bool)
  | latest (result : Except LedgerError (Option KeyPair))
  /-- How many pairs there are in the history. -/
  | count (n : Nat)

/-- **A call is answered**, and may change the ledger. -/
def serve (ledger : KeyLedger) : Call → Answer × KeyLedger
  | .add group pair => (.added (ledger.add group pair).1, (ledger.add group pair).2)
  | .latest group => (.latest (ledger.latest group), ledger)
  | .count group => (.count (ledger.history group).length, ledger)

/-- The pair that an answered call added to the history of a group. -/
def accepted? (group : Identifier) : Call × Answer → Option KeyPair
  | (.add other pair, .added true) => if other = group then some pair else none
  | _ => none

/-- **The pairs that were accepted as new** for a group, the latest one last. -/
def accepted (group : Identifier) (log : List (Call × Answer)) : List KeyPair :=
  log.filterMap (accepted? group)

theorem accepted_concat (group : Identifier) (log : List (Call × Answer))
    (entry : Call × Answer) :
    accepted group (log ++ [entry]) = accepted group log ++ (accepted? group entry).toList :=
  filterMap_concat ..

/-! ## What the ledger remembers -/

/-- A pair that is there already is left in its place. -/
theorem add_of_mem {ledger : KeyLedger} {group : Identifier} {pair : KeyPair}
    (h : pair.toRow ∈ ledger.history group) : ledger.add group pair = (false, ledger) := by
  unfold add
  rw [if_pos h]

/-- An addition leaves every history, or puts a row at the end of one. -/
theorem history_prefix_add (ledger : KeyLedger) (group other : Identifier) (pair : KeyPair) :
    ledger.history other <+: (ledger.add group pair).2.history other := by
  rw [history_add]
  split
  · next h =>
    rw [h.1]
    exact List.prefix_append _ _
  · exact List.prefix_refl _

/-- **A ledger that remembers what was said**: the histories are the accepted pairs, none of
them twice, and a pair was accepted if it was ever offered. -/
structure Remembers (log : List (Call × Answer)) (ledger : KeyLedger) : Prop where
  history : ∀ group, ledger.history group = (accepted group log).map KeyPair.toRow
  nodup : ∀ group, (accepted group log).Nodup
  offered : ∀ group pair, pair ∈ accepted group log ↔ Call.add group pair ∈ log.map Prod.fst

namespace Remembers

variable {log : List (Call × Answer)} {ledger : KeyLedger} (h : Remembers log ledger)

include h

/-- A row stands in a history if its pair was accepted. -/
theorem mem_history {group : Identifier} {pair : KeyPair} :
    pair.toRow ∈ ledger.history group ↔ pair ∈ accepted group log := by
  rw [h.history, List.mem_map]
  constructor
  · rintro ⟨other, hother, hrow⟩
    rwa [← KeyPair.toRow_inj.mp hrow]
  · exact fun hmem => ⟨pair, hmem, rfl⟩

/-- **The latest pair** is the one that was accepted last, and it can be read. -/
theorem latest (group : Identifier) :
    ledger.latest group = .ok (accepted group log).getLast? := by
  cases hlast : (accepted group log).getLast? with
  | none =>
    refine latest_of_nil ?_
    rw [h.history, List.getLast?_eq_none_iff.mp hlast]
    rfl
  | some pair =>
    refine latest_of_getLast? ?_
    rw [h.history, List.getLast?_map, hlast]
    rfl

/-- A call that adds nothing new is remembered. -/
theorem concat_of_not_accepted {call : Call} {answer : Answer}
    (hentry : ∀ group, accepted? group (call, answer) = none)
    (hcall : ∀ group pair, call = .add group pair → pair ∈ accepted group log) :
    Remembers (log ++ [(call, answer)]) ledger := by
  have hsame (group : Identifier) : accepted group (log ++ [(call, answer)]) =
      accepted group log := by
    rw [accepted_concat, hentry]
    exact List.append_nil _
  refine ⟨fun group => ?_, fun group => ?_, fun group pair => ?_⟩
  · rw [hsame]
    exact h.history group
  · rw [hsame]
    exact h.nodup group
  · rw [hsame, h.offered, List.map_append, List.mem_append]
    refine ⟨.inl, ?_⟩
    rintro (hold | hnew)
    · exact hold
    · exact (h.offered group pair).mp (hcall group pair (List.mem_singleton.mp hnew).symm)

/-- A new pair is remembered. -/
theorem concat_of_accepted {group : Identifier} {pair : KeyPair}
    (hnew : pair ∉ accepted group log) :
    Remembers (log ++ [(.add group pair, .added true)]) (ledger.add group pair).2 := by
  have hrow : pair.toRow ∉ ledger.history group := fun hmem => hnew (h.mem_history.mp hmem)
  have hsame {other : Identifier} (hother : other ≠ group) :
      accepted other (log ++ [(.add group pair, .added true)]) = accepted other log := by
    rw [accepted_concat, accepted?, if_neg hother.symm]
    exact List.append_nil _
  have hown : accepted group (log ++ [(.add group pair, .added true)]) =
      accepted group log ++ [pair] := by
    rw [accepted_concat, accepted?, if_pos rfl]
    rfl
  refine ⟨fun other => ?_, fun other => ?_, fun other added => ?_⟩
  · by_cases hother : other = group
    · subst hother
      rw [hown, history_add_of_not_mem hrow, h.history, List.map_append]
      rfl
    · rw [hsame hother, history_add_of_ne pair hother]
      exact h.history other
  · by_cases hother : other = group
    · subst hother
      rw [hown, List.nodup_append]
      refine ⟨h.nodup other, List.nodup_singleton pair, ?_⟩
      rintro p hp q hq rfl
      rw [List.mem_singleton.mp hq] at hp
      exact hnew hp
    · rw [hsame hother]
      exact h.nodup other
  · rw [List.map_append, List.mem_append, ← h.offered]
    by_cases hother : other = group
    · subst hother
      rw [hown, List.mem_append]
      simp
    · rw [hsame hother]
      simp [hother]

/-- **Every call is remembered.** -/
theorem concat (call : Call) :
    Remembers (log ++ [(call, (ledger.serve call).1)]) (ledger.serve call).2 := by
  cases call with
  | add group pair =>
    by_cases hmem : pair ∈ accepted group log
    · have hsame := add_of_mem (h.mem_history.mpr hmem)
      simp only [serve, hsame]
      refine h.concat_of_not_accepted (fun _ => rfl) ?_
      rintro _ _ ⟨⟩
      exact hmem
    · have hnew : (ledger.add group pair).1 = true :=
        add_fst.mpr fun hrow => hmem (h.mem_history.mp hrow)
      simp only [serve, hnew]
      exact h.concat_of_accepted hmem
  | latest group => exact h.concat_of_not_accepted (fun _ => rfl) nofun
  | count group => exact h.concat_of_not_accepted (fun _ => rfl) nofun

end Remembers

theorem remembers_empty : Remembers [] empty where
  history := fun _ => rfl
  nodup := fun _ => List.nodup_nil
  offered := fun _ _ => ⟨nofun, nofun⟩

/-- **Any calls are remembered.** -/
theorem remembers (calls : List Call) :
    Remembers (transcript serve empty calls) (afterwards serve empty calls) :=
  invariant remembers_empty (fun _ _ call h => h.concat call) calls

/-- Later calls only add to the end of a history. -/
theorem history_prefix_afterwards (group : Identifier) (ledger : KeyLedger) (calls : List Call) :
    ledger.history group <+: (afterwards serve ledger calls).history group := by
  refine afterwards_related (R := fun l m => l.history group <+: m.history group)
    (fun _ => List.prefix_refl _) List.IsPrefix.trans (fun ledger call => ?_) ledger calls
  cases call with
  | add other pair => exact history_prefix_add ledger other group pair
  | latest other => exact List.prefix_refl _
  | count other => exact List.prefix_refl _

/-- **The history of a group is a log without repetitions**, after any calls. It holds the
accepted pairs, none of them twice, and the last one can always be read; later calls only add
to its end. A pair is accepted if no earlier call added it, and then it goes to the end; a pair
that is not accepted changes nothing, and no other group is affected. -/
theorem histories_are_logs (calls : List Call) :
    let log := transcript serve empty calls
    let ledger := afterwards serve empty calls
    (∀ group, ledger.history group = (accepted group log).map KeyPair.toRow ∧
      (ledger.history group).Nodup ∧
      ledger.latest group = .ok (accepted group log).getLast? ∧
      ∀ more, ledger.history group <+: (afterwards serve empty (calls ++ more)).history group) ∧
    ∀ group pair new after, ledger.add group pair = (new, after) →
      (new = true ↔ .add group pair ∉ calls) ∧
      (new = true → after.history group = ledger.history group ++ [pair.toRow] ∧
        after.latest group = .ok (some pair)) ∧
      (new = false → after = ledger) ∧
      ∀ other, other ≠ group → after.history other = ledger.history other ∧
        after.latest other = ledger.latest other := by
  intro log ledger
  have hremembers := remembers calls
  refine ⟨fun group => ⟨hremembers.history group, ?_, hremembers.latest group, fun more => ?_⟩, ?_⟩
  · rw [hremembers.history group]
    exact (hremembers.nodup group).map fun _ _ hrow => KeyPair.toRow_inj.mp hrow
  · rw [afterwards_append]
    exact history_prefix_afterwards group ledger more
  · rintro group pair new after hadd
    obtain rfl : (ledger.add group pair).1 = new := congrArg Prod.fst hadd
    obtain rfl : (ledger.add group pair).2 = after := congrArg Prod.snd hadd
    refine ⟨?_, fun hnew => ?_, fun hold => ?_, fun other hother => ?_⟩
    · rw [add_fst, hremembers.mem_history, hremembers.offered, calls_transcript]
    · have hhistory := history_add_of_not_mem (add_fst.mp hnew)
      exact ⟨hhistory, latest_of_history_eq hhistory⟩
    · have hmem : pair.toRow ∈ ledger.history group := by
        by_contra hnot
        cases (add_fst.mpr hnot).symm.trans hold
      rw [add_of_mem hmem]
    · have hhistory : (ledger.add group pair).2.history other = ledger.history other :=
        history_add_of_ne pair hother
      refine ⟨hhistory, ?_⟩
      unfold KeyLedger.latest
      rw [hhistory]

end KeyLedger

end SealedGroup
