import SealedGroup.Ledger.Groups
import SealedGroup.Proofs.Ledger.Transcript

/-!
# The group ledger is a faithful log

The group ledger keeps four things side by side: the groups, the notices, the counts of commits
and the number of writes. Each of them can be told from the calls that were made and the answers
that were given, by a reading of the transcript that knows nothing of the ledger:
`GroupLedger.expected` answers every call from such readings. The state of a group is the last
one that was written for it, the notices of a conversation are those that were added to it, in
order, the commits of a group are counted as they were accepted, and every write counts.

`GroupLedger.answers_are_expected` says that the ledger answers so after any calls, however
groups, commits, notices and reads follow one another, and what comes of a commit: it is
accepted if a state was ever written for the group, and refused otherwise, with nothing changed.

## One invariant for four parts

A call changes two of the four parts at most, as writing a group does, and has to leave the
readings of the others. So `GroupLedger.Remembers` has a field for each part, and
`GroupLedger.Remembers.concat_of` takes a change apart into what it does to each. Most of the
resulting goals are that an entry of one kind is not seen by the reading of another kind; calls
that only read are dealt with at once (`GroupLedger.Remembers.concat_of_idle`).

The counts are natural numbers and have no bound.
-/

namespace SealedGroup

namespace GroupLedger

open Transcript

/-! ## Calls and answers -/

/-- A call of the ledger. -/
inductive Call where
  | put (state : StoredGroup)
  | commit (id : Identifier)
  | append (notice : Notice)
  | get (id : Identifier)
  | commitsOf (id : Identifier)
  | writes
  | notices (conversation : Identifier)
  deriving DecidableEq

/-- What the ledger answers. -/
inductive Answer where
  | done
  | committed (result : Except LedgerError Unit)
  | group (stored : Option StoredGroup)
  | count (n : Nat)
  | notices (notices : List Notice)

/-- **A call is answered**, and may change the ledger. -/
def serve (ledger : GroupLedger) : Call → Answer × GroupLedger
  | .put state => (.done, ledger.put state)
  | .commit id =>
    match ledger.commit id with
    | .ok after => (.committed (.ok ()), after)
    | .error e => (.committed (.error e), ledger)
  | .append notice => (.done, ledger.append notice)
  | .get id => (.group (ledger.get? id), ledger)
  | .commitsOf id => (.count (ledger.commitsOf id), ledger)
  | .writes => (.count ledger.writes, ledger)
  | .notices conversation => (.notices (ledger.notices conversation), ledger)

/-- The call only reads. -/
def Call.Reads : Call → Prop
  | .put _ | .commit _ | .append _ => False
  | .get _ | .commitsOf _ | .writes | .notices _ => True

/-! ## Reading a transcript -/

section

variable (id : Identifier)

/-- The state that a call writes for a group. -/
def written? : Call × Answer → Option StoredGroup
  | (.put state, _) => if state.id = id then some state else none
  | _ => none

/-- The notice that a call adds to a conversation. -/
def noticed? : Call × Answer → Option Notice
  | (.append notice, _) => if notice.conversation = id then some notice else none
  | _ => none

/-- The call is a commit of the group, and was accepted. -/
def isCommit : Call × Answer → Bool
  | (.commit other, .committed (.ok ())) => other == id
  | _ => false

/-- The call writes a group. -/
def isPut : Call × Answer → Bool
  | (.put _, _) => true
  | _ => false

variable (log : List (Call × Answer))

/-- **The last state written** for a group. -/
def lastWritten : Option StoredGroup := (log.filterMap (written? id)).getLast?

/-- **The answer that is due** to a call, by what was called and answered before. -/
def expected : Call → Answer
  | .put _ | .append _ => .done
  | .commit id =>
    .committed (if (lastWritten id log).isSome then .ok () else .error (.groupNotFound id.text))
  | .get id => .group (lastWritten id log)
  | .commitsOf id => .count (log.countP (isCommit id))
  | .writes => .count (log.countP isPut)
  | .notices conversation => .notices (log.filterMap (noticed? conversation))

end

/-- What was written for a group is a state of it. -/
theorem id_of_written? {id : Identifier} {entry : Call × Answer} {state : StoredGroup}
    (h : written? id entry = some state) : entry.1 = .put state ∧ state.id = id := by
  unfold written? at h
  split at h
  · split at h
    · next hid =>
      cases h
      exact ⟨rfl, hid⟩
    · cases h
  · cases h

theorem lastWritten_concat (id : Identifier) (log : List (Call × Answer))
    (entry : Call × Answer) :
    lastWritten id (log ++ [entry]) = (written? id entry).or (lastWritten id log) := by
  unfold lastWritten
  rw [filterMap_concat, List.getLast?_append]
  cases written? id entry <;> rfl

theorem id_of_lastWritten {id : Identifier} {log : List (Call × Answer)} {state : StoredGroup}
    (h : lastWritten id log = some state) : state.id = id := by
  obtain ⟨entry, -, hentry⟩ := List.mem_filterMap.mp (List.mem_of_getLast? h)
  exact (id_of_written? hentry).2

/-- There is a last state if there is any. -/
theorem isSome_lastWritten {id : Identifier} {log : List (Call × Answer)} :
    (lastWritten id log).isSome = true ↔
      ∃ state, Call.put state ∈ log.map Prod.fst ∧ state.id = id := by
  rw [lastWritten, List.getLast?_isSome]
  constructor
  · intro hne
    obtain ⟨state, hmem⟩ := List.exists_mem_of_ne_nil _ hne
    obtain ⟨entry, hentry, hwritten⟩ := List.mem_filterMap.mp hmem
    obtain ⟨hcall, hid⟩ := id_of_written? hwritten
    exact ⟨state, hcall ▸ List.mem_map_of_mem hentry, hid⟩
  · rintro ⟨state, hmem, hid⟩
    obtain ⟨⟨call, answer⟩, hentry, rfl⟩ := List.mem_map.mp hmem
    exact List.ne_nil_of_mem (List.mem_filterMap.mpr ⟨_, hentry, if_pos hid⟩)

/-! ## What the ledger remembers -/

/-- A commit of a stored group is accepted. -/
theorem serve_commit_of_stored {ledger : GroupLedger} {id : Identifier} {state : StoredGroup}
    (h : ledger.get? id = some state) :
    ∃ after, ledger.commit id = .ok after ∧
      ledger.serve (.commit id) = (.committed (.ok ()), after) := by
  cases hcommit : ledger.commit id with
  | ok after => exact ⟨after, rfl, by simp only [serve, hcommit]⟩
  | error e => cases h.symm.trans (commit_eq_error_iff.mp hcommit).1

/-- A commit of a group that is not stored is refused, and changes nothing. -/
theorem serve_commit_of_none {ledger : GroupLedger} {id : Identifier}
    (h : ledger.get? id = none) :
    ledger.serve (.commit id) = (.committed (.error (.groupNotFound id.text)), ledger) := by
  have hcommit : ledger.commit id = .error (.groupNotFound id.text) :=
    commit_eq_error_iff.mpr ⟨h, rfl⟩
  simp only [serve, hcommit]

/-- **A ledger that remembers what was said**: each of its parts is a reading of the
transcript. -/
structure Remembers (log : List (Call × Answer)) (ledger : GroupLedger) : Prop where
  groups : ∀ id, ledger.get? id = lastWritten id log
  notices : ∀ conversation, ledger.notices conversation = log.filterMap (noticed? conversation)
  commits : ∀ id, ledger.commitsOf id = log.countP (isCommit id)
  writes : ledger.writes = log.countP isPut

theorem remembers_empty : Remembers [] empty where
  groups := fun _ => rfl
  notices := fun _ => rfl
  commits := fun _ => rfl
  writes := rfl

namespace Remembers

variable {log : List (Call × Answer)} {ledger : GroupLedger} (h : Remembers log ledger)

include h

/-- A change is remembered if each part of it is what the entry says. -/
theorem concat_of {entry : Call × Answer} {after : GroupLedger}
    (hgroups : ∀ id, after.get? id = (written? id entry).or (ledger.get? id))
    (hnotices : ∀ conversation, after.notices conversation =
      ledger.notices conversation ++ (noticed? conversation entry).toList)
    (hcommits : ∀ id, after.commitsOf id = ledger.commitsOf id + [entry].countP (isCommit id))
    (hwrites : after.writes = ledger.writes + [entry].countP isPut) :
    Remembers (log ++ [entry]) after where
  groups := fun id => by rw [hgroups, h.groups, lastWritten_concat]
  notices := fun conversation => by rw [hnotices, h.notices, filterMap_concat]
  commits := fun id => by rw [hcommits, h.commits, List.countP_append]
  writes := by rw [hwrites, h.writes, List.countP_append]

/-- What leaves the ledger as it is, and says nothing of it, is remembered. -/
theorem concat_of_idle {entry : Call × Answer} (hwritten : ∀ id, written? id entry = none)
    (hnoticed : ∀ id, noticed? id entry = none) (hcommit : ∀ id, isCommit id entry = false)
    (hput : isPut entry = false) : Remembers (log ++ [entry]) ledger := by
  refine h.concat_of (fun id => ?_) (fun conversation => ?_) (fun id => ?_) ?_
  · rw [hwritten]
    rfl
  · rw [hnoticed]
    exact (List.append_nil _).symm
  · rw [List.countP_singleton, hcommit]
    rfl
  · rw [List.countP_singleton, hput]
    rfl

/-- **Every call is remembered.** -/
theorem concat (call : Call) :
    Remembers (log ++ [(call, (ledger.serve call).1)]) (ledger.serve call).2 := by
  cases call with
  | put state =>
    refine h.concat_of (fun id => ?_) (fun _ => (List.append_nil _).symm) (fun _ => rfl) rfl
    show (ledger.put state).get? id = _
    rw [get?_put, written?]
    by_cases hid : id = state.id
    · rw [if_pos hid, if_pos hid.symm]
      rfl
    · rw [if_neg hid, if_neg fun heq => hid heq.symm]
      rfl
  | append notice =>
    refine h.concat_of (fun _ => rfl) (fun conversation => ?_) (fun _ => rfl) rfl
    show (ledger.append notice).notices conversation = _
    rw [notices_append, noticed?]
    split <;> rfl
  | commit id =>
    cases hstored : ledger.get? id with
    | none =>
      rw [serve_commit_of_none hstored]
      exact h.concat_of_idle (fun _ => rfl) (fun _ => rfl) (fun _ => rfl) rfl
    | some state =>
      obtain ⟨after, hcommit, hserve⟩ := serve_commit_of_stored hstored
      rw [hserve]
      refine h.concat_of (get?_of_commit hcommit)
        (fun conversation => (notices_of_commit hcommit conversation).trans
          (List.append_nil _).symm) (fun other => ?_) (writes_of_commit hcommit)
      rw [commitsOf_of_commit hcommit, List.countP_singleton, isCommit]
      by_cases hother : other = id
      · rw [if_pos hother, if_pos (beq_iff_eq.mpr hother.symm), hother]
      · rw [if_neg hother, if_neg fun heq => hother (beq_iff_eq.mp heq).symm]
        rfl
  | get id => exact h.concat_of_idle (fun _ => rfl) (fun _ => rfl) (fun _ => rfl) rfl
  | commitsOf id => exact h.concat_of_idle (fun _ => rfl) (fun _ => rfl) (fun _ => rfl) rfl
  | writes => exact h.concat_of_idle (fun _ => rfl) (fun _ => rfl) (fun _ => rfl) rfl
  | notices conversation =>
    exact h.concat_of_idle (fun _ => rfl) (fun _ => rfl) (fun _ => rfl) rfl

/-- **The answer is the one that is due.** -/
theorem answer (call : Call) : (ledger.serve call).1 = expected log call := by
  cases call with
  | put state => rfl
  | append notice => rfl
  | commit id =>
    cases hstored : ledger.get? id with
    | none =>
      rw [serve_commit_of_none hstored, expected, ← h.groups, hstored]
      rfl
    | some state =>
      obtain ⟨after, -, hserve⟩ := serve_commit_of_stored hstored
      rw [hserve, expected, ← h.groups, hstored]
      rfl
  | get id => exact congrArg Answer.group (h.groups id)
  | commitsOf id => exact congrArg Answer.count (h.commits id)
  | writes => exact congrArg Answer.count h.writes
  | notices conversation => exact congrArg Answer.notices (h.notices conversation)

end Remembers

/-- **Any calls are remembered.** -/
theorem remembers (calls : List Call) :
    Remembers (transcript serve empty calls) (afterwards serve empty calls) :=
  invariant remembers_empty (fun _ _ call h => h.concat call) calls

/-- **The ledger is a faithful log.** After any calls, every call is answered as the transcript
of the earlier ones demands. A state that it returns has the identifier that was asked for; a
commit is accepted if the group was ever written, and one that is refused changes nothing, as
does whatever only reads. -/
theorem answers_are_expected (calls : List Call) :
    let log := transcript serve empty calls
    let ledger := afterwards serve empty calls
    (∀ call, (ledger.serve call).1 = expected log call) ∧
    (∀ id state, (ledger.serve (.get id)).1 = .group (some state) → state.id = id) ∧
    (∀ id, (ledger.serve (.commit id)).1 = .committed (.ok ()) ↔
      ∃ state, .put state ∈ calls ∧ state.id = id) ∧
    (∀ id, (ledger.serve (.commit id)).1 ≠ .committed (.ok ()) →
      ledger.serve (.commit id) = (.committed (.error (.groupNotFound id.text)), ledger)) ∧
    ∀ call, call.Reads → (ledger.serve call).2 = ledger := by
  intro log ledger
  have hremembers := remembers calls
  refine ⟨hremembers.answer, fun id state hget => ?_, fun id => ?_, fun id hrefused => ?_,
    fun call hreads => ?_⟩
  · rw [hremembers.answer] at hget
    exact id_of_lastWritten (Answer.group.inj hget)
  · have hsome : (lastWritten id log).isSome = true ↔
        ∃ state, .put state ∈ calls ∧ state.id = id := by
      rw [isSome_lastWritten, calls_transcript]
    rw [hremembers.answer, ← hsome, expected]
    cases lastWritten id log <;> simp
  · cases hstored : ledger.get? id with
    | none => exact serve_commit_of_none hstored
    | some state =>
      obtain ⟨after, -, hserve⟩ := serve_commit_of_stored hstored
      exact absurd (congrArg Prod.fst hserve) hrefused
  · cases call with
    | put state => cases hreads
    | commit id => cases hreads
    | append notice => cases hreads
    | get id => rfl
    | commitsOf id => rfl
    | writes => rfl
    | notices conversation => rfl

end GroupLedger

end SealedGroup
