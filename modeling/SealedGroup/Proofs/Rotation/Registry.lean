import Mathlib.Data.List.Nodup
import Mathlib.Data.Set.Card
import SealedGroup.Proofs.Rotation.Journal
import SealedGroup.Proofs.Rotation.Steps

/-!
# What a registry answers

A registry has a state, and a caller sees only its answers. What is said here is said of these:
each call is answered from the calls before it, by the one rule that the current attempt of a
group is the last one registered for it, unless that one was withdrawn or committed since.

A `Turn` is a call together with its answer and the registry before and after it, and the turns
of a sequence of calls make a journal. Whoever makes a call, and by which of the handles of the
registry, does not matter, since all handles lead to the one registry.

Identifiers of attempts do not repeat among the registrations. Then every turn answers from the
journal of the turns before it, the journal says what the registry is, and no attempt is
committed twice (`InFlight.turns_follow_journal`).

## The nine ways

There are nine ways in which a call is served (`InFlight.Served`): a withdrawal may come too
late, and a commit may fail with its action or not run it at all, while each other call is
served in one way. What holds of every turn is read off these, and so a fact about turns has one
case for each, and never one for each state of the registry.

## Commits that run something

A commit runs an action on the attempt that it finds, and the attempt is gone only if the action
succeeds. The registry is held in the meantime, so the action sees the attempt that is current
and no other; that it ran, and on what, is part of the answer. An action that failed leaves the
attempt where it is, and the commit may be tried again. One that succeeded may not: the attempt
is never the current one again.
-/

namespace SealedGroup

/-- The keys of a table are those that it has a value for. -/
theorem Table.mem_keys_iff {α : Type} {t : Table α} {key : Identifier} :
    key ∈ t.entries.map (·.1) ↔ ∃ value, t.get? key = some value := by
  show _ ↔ ∃ value, find key t.entries = some value
  induction t.entries with
  | nil => exact ⟨fun h => absurd h List.not_mem_nil, fun ⟨_, h⟩ => absurd h nofun⟩
  | cons entry rest ih =>
    obtain ⟨k, value⟩ := entry
    rw [List.map_cons, List.mem_cons, ih, find]
    by_cases hkey : key = k
    · rw [if_pos hkey]
      exact iff_of_true (.inl hkey) ⟨value, rfl⟩
    · rw [if_neg hkey]
      exact or_iff_right hkey

/-- **The size of a table** is the number of keys that it has a value for. -/
theorem Table.size_eq_ncard {α : Type} (t : Table α) :
    t.size = {key | ∃ value, t.get? key = some value}.ncard := by
  have hdistinct : (t.entries.map (·.1)).Nodup := by
    refine t.ascending.imp ?_
    rintro key _ hlt rfl
    exact Identifier.lt_irrefl key hlt
  have hkeys : {key | ∃ value, t.get? key = some value} =
      ((t.entries.map (·.1)).toFinset : Set Identifier) := by
    ext key
    rw [List.coe_toFinset, Set.mem_ofPred_eq, Set.mem_ofPred_eq, Table.mem_keys_iff]
  rw [hkeys, Set.ncard_coe_finset, List.toFinset_card_of_nodup hdistinct, List.length_map]
  rfl

namespace InFlight

variable {η : Type}

/-! ## Calls and turns -/

/-- **A call on a registry.** -/
inductive Call (η : Type) where
  | register (group : Identifier) (attempt : Attempt)
  | get (group : Identifier)
  | isCurrent (group : Identifier) (attempt : Uuid)
  | withdraw (group : Identifier) (attempt : Uuid)
  /-- The verdict is what the action says of the attempt that it is run on. -/
  | settle (group : Identifier) (attempt : Uuid) (verdict : Attempt → Except η Unit)
  | size

/-- What a call is answered. -/
inductive Answer (η : Type) where
  | done
  | entry (current : Option Attempt)
  | truth (yes : Bool)
  /-- The result, and the attempts that the action was run on. -/
  | settled (result : Except η Bool) (ran : List Attempt)
  | count (n : Nat)

namespace Call

/-- The group that a call is about; the size is about none in particular. -/
def group? : Call η → Option Identifier
  | register group _ | get group | isCurrent group _ | withdraw group _ | settle group _ _ =>
    some group
  | size => none

/-- The identifier that a call gives out. -/
def issues? : Call η → Option Uuid
  | register _ attempt => some attempt.id
  | get _ | isCurrent .. | withdraw .. | settle .. | size => none

end Call

/-- An action that gives its verdict, and notes what it was run on. -/
def noting (verdict : Attempt → Except η Unit) (attempt : Attempt) :
    StateM (List Attempt) (Except η Unit) := fun ran =>
  (verdict attempt, ran ++ [attempt])

/-- **The answer of a registry to a call**, and the registry after it. -/
def serve (r : InFlight) : Call η → Answer η × InFlight
  | .register group attempt => (.done, r.register group attempt.id attempt.pair)
  | .get group => (.entry (r.get? group), r)
  | .isCurrent group attempt => (.truth (r.isCurrent group attempt), r)
  | .withdraw group attempt =>
    let (yes, r) := r.withdraw group attempt
    (.truth yes, r)
  | .settle group attempt verdict =>
    let ((result, r), ran) := r.settle group attempt (noting verdict) []
    (.settled result ran, r)
  | .size => (.count r.size, r)

/-- **A call and its answer**, with the registry before and after. -/
structure Turn (η : Type) where
  before : InFlight
  call : Call η
  answer : Answer η
  after : InFlight

/-- The turn of a registry that is called. -/
def turn (r : InFlight) (call : Call η) : Turn η :=
  ⟨r, call, (r.serve call).1, (r.serve call).2⟩

/-- **The turns of a registry** that is called again and again. -/
def turns (r : InFlight) : List (Call η) → List (Turn η)
  | [] => []
  | call :: rest => r.turn call :: turns (r.turn call).after rest

/-- What a turn enters into the journal: a registration, a withdrawal whether or not there
was something to withdraw, and a commit that succeeded. -/
def Turn.event? (turn : Turn η) : Option Event :=
  match turn.call, turn.answer with
  | .register group attempt, _ => some (.registered group attempt)
  | .withdraw group attempt, _ => some (.withdrawn group attempt)
  | .settle group attempt _, .settled (.ok true) _ => some (.committed group attempt)
  | _, _ => none

/-- The journal of some turns. -/
def journalOf (turns : List (Turn η)) : List Event :=
  turns.filterMap Turn.event?

/-- The attempts that were committed, in any group, oldest commit first. -/
def committed (journal : List Event) : List Uuid :=
  journal.filterMap fun
    | .committed _ attempt => some attempt
    | _ => none

/-! ## What is said of a turn -/

/-- **The answer that the journal asks for.** -/
def Answers (journal : List Event) : Call η → Answer η → Prop
  | .register .., answer => answer = .done
  | .get group, answer => ∃ current, answer = .entry current ∧
      ∀ attempt, current = some attempt ↔ LastRegistered journal group attempt
  | .isCurrent group id, answer | .withdraw group id, answer => ∃ yes, answer = .truth yes ∧
      (yes = true ↔ ∃ pair, LastRegistered journal group ⟨id, pair⟩)
  | .settle group id verdict, answer => ∃ result ran, answer = .settled result ran ∧
      (∀ pair, LastRegistered journal group ⟨id, pair⟩ →
        ran = [⟨id, pair⟩] ∧ result = (verdict ⟨id, pair⟩).map fun _ => true) ∧
      ((¬∃ pair, LastRegistered journal group ⟨id, pair⟩) → ran = [] ∧ result = .ok false)
  | .size, answer =>
      answer = .count {group | ∃ attempt, LastRegistered journal group attempt}.ncard

/-- **What a turn does to the registry.** -/
def Turn.Changes (turn : Turn η) : Prop :=
  match turn.call, turn.answer with
  | .register group attempt, _ => ∀ other, turn.after.get? other =
      if other = group then some attempt else turn.before.get? other
  | .withdraw group _, .truth true | .settle group _ _, .settled (.ok true) _ =>
      ∀ other, turn.after.get? other = if other = group then none else turn.before.get? other
  | _, _ => turn.after = turn.before

/-- No call about another group is answered otherwise after the turn than before it. -/
def Turn.StaysWithin (turn : Turn η) : Prop :=
  ∀ group other (call : Call η), turn.call.group? = some group → call.group? = some other →
    other ≠ group → (turn.after.serve call).1 = (turn.before.serve call).1

variable {r : InFlight} {journal : List Event} {group : Identifier} {id : Uuid}

/-! ## The answers -/

/-- What a settled attempt is answered, if it is the current one. -/
theorem serve_settle_of_current {pair : KeyPair} (h : r.get? group = some ⟨id, pair⟩)
    (verdict : Attempt → Except η Unit) :
    r.serve (.settle group id verdict) =
      match verdict ⟨id, pair⟩ with
      | .ok () => (.settled (.ok true) [⟨id, pair⟩], r.erase group)
      | .error e => (.settled (.error e) [⟨id, pair⟩], r) := by
  simp only [serve, settle_of_current h, noting, bind, StateT.bind]
  cases verdict ⟨id, pair⟩ <;> rfl

/-- What any other attempt is answered. -/
theorem serve_settle_of_stale (h : r.isCurrent group id = false)
    (verdict : Attempt → Except η Unit) :
    r.serve (.settle group id verdict) = (.settled (.ok false) [], r) := by
  simp only [serve, settle_of_stale h]
  rfl

/-- What the withdrawal of the current attempt is answered. -/
theorem serve_withdraw_of_current (h : r.isCurrent group id = true) :
    r.serve (.withdraw group id : Call η) = (.truth true, r.erase group) := by
  simp only [serve, withdraw, if_pos h]

/-- What the withdrawal of any other attempt is answered. -/
theorem serve_withdraw_of_stale (h : r.isCurrent group id = false) :
    r.serve (.withdraw group id : Call η) = (.truth false, r) := by
  simp only [serve, withdraw, if_neg (ne_true_of_eq_false h)]

/-- **The ways in which a call is served.** A withdrawal may come too late, and a commit may
fail with its action or not run it at all; each other call is served in one way. -/
inductive Served (r : InFlight) : Call η → Answer η → InFlight → Prop where
  | register (group : Identifier) (attempt : Attempt) :
      Served r (.register group attempt) .done (r.register group attempt.id attempt.pair)
  | get (group : Identifier) : Served r (.get group) (.entry (r.get? group)) r
  | isCurrent (group : Identifier) (id : Uuid) :
      Served r (.isCurrent group id) (.truth (r.isCurrent group id)) r
  | withdrawn {group : Identifier} {id : Uuid} (hcurrent : r.isCurrent group id = true) :
      Served r (.withdraw group id) (.truth true) (r.erase group)
  | late {group : Identifier} {id : Uuid} (hstale : r.isCurrent group id = false) :
      Served r (.withdraw group id) (.truth false) r
  | committed {group : Identifier} {id : Uuid} {pair : KeyPair}
      {verdict : Attempt → Except η Unit} (hget : r.get? group = some ⟨id, pair⟩)
      (hverdict : verdict ⟨id, pair⟩ = .ok ()) :
      Served r (.settle group id verdict) (.settled (.ok true) [⟨id, pair⟩]) (r.erase group)
  | failed {group : Identifier} {id : Uuid} {pair : KeyPair} {verdict : Attempt → Except η Unit}
      {e : η} (hget : r.get? group = some ⟨id, pair⟩)
      (hverdict : verdict ⟨id, pair⟩ = .error e) :
      Served r (.settle group id verdict) (.settled (.error e) [⟨id, pair⟩]) r
  | stale {group : Identifier} {id : Uuid} {verdict : Attempt → Except η Unit}
      (hstale : r.isCurrent group id = false) :
      Served r (.settle group id verdict) (.settled (.ok false) []) r
  | size : Served r .size (.count r.size) r

/-- **Every call is served** in one of these ways. -/
theorem served (r : InFlight) (call : Call η) :
    Served r call (r.serve call).1 (r.serve call).2 := by
  cases call with
  | register group attempt => exact .register group attempt
  | get group => exact .get group
  | isCurrent group id => exact .isCurrent group id
  | withdraw group id =>
    cases hcurrent : r.isCurrent group id with
    | true =>
      rw [serve_withdraw_of_current hcurrent]
      exact .withdrawn hcurrent
    | false =>
      rw [serve_withdraw_of_stale hcurrent]
      exact .late hcurrent
  | settle group id verdict =>
    cases hcurrent : r.isCurrent group id with
    | true =>
      obtain ⟨pair, hget⟩ := InFlight.isCurrent_iff.mp hcurrent
      rw [serve_settle_of_current hget]
      cases hverdict : verdict ⟨id, pair⟩ with
      | ok done => exact .committed hget hverdict
      | error e => exact .failed hget hverdict
    | false =>
      rw [serve_settle_of_stale hcurrent]
      exact .stale hcurrent
  | size => exact .size

section

variable {call : Call η} {answer : Answer η} {after : InFlight}

/-- A commit that runs its action answers from the journal, whatever the action says. -/
theorem Tracks.answers_of_current (h : Tracks r journal) {pair : KeyPair}
    (hget : r.get? group = some ⟨id, pair⟩) (verdict : Attempt → Except η Unit) :
    Answers journal (.settle group id verdict)
      (.settled ((verdict ⟨id, pair⟩).map fun _ => true) [⟨id, pair⟩]) := by
  have hlast := (h _ _).mp hget
  refine ⟨_, _, rfl, fun pair' hlast' => ?_, fun hnot => absurd ⟨pair, hlast⟩ hnot⟩
  -- the pair is that of the last registration, and no other
  cases hget.symm.trans ((h _ _).mpr hlast')
  exact ⟨rfl, rfl⟩

/-- **A registry that tracks a journal answers from it.** -/
theorem Tracks.answers (h : Tracks r journal) (hserved : Served r call answer after) :
    Answers journal call answer := by
  cases hserved with
  | register group attempt => exact rfl
  | get group => exact ⟨_, rfl, h group⟩
  | isCurrent group id => exact ⟨_, rfl, h.isCurrent_iff⟩
  | withdrawn hcurrent => exact ⟨_, rfl, iff_of_true rfl (h.isCurrent_iff.mp hcurrent)⟩
  | late hstale => exact ⟨_, rfl, by rw [← h.isCurrent_iff, hstale]⟩
  | @committed _ _ _ verdict hget hverdict =>
    have hanswers := h.answers_of_current hget verdict
    rw [hverdict] at hanswers
    exact hanswers
  | @failed _ _ _ verdict _ hget hverdict =>
    have hanswers := h.answers_of_current hget verdict
    rw [hverdict] at hanswers
    exact hanswers
  | @stale group id _ hstale =>
    have hnone : ¬∃ pair, LastRegistered journal group ⟨id, pair⟩ := by
      rw [← h.isCurrent_iff, hstale]
      exact nofun
    exact ⟨_, _, rfl, fun pair hlast => absurd ⟨pair, hlast⟩ hnone, fun _ => ⟨rfl, rfl⟩⟩
  | size =>
    show Answer.count r.entries.size = _
    rw [Table.size_eq_ncard]
    exact congrArg (fun groups : Set Identifier => Answer.count groups.ncard)
      (Set.ext fun group => exists_congr (h group))

/-- What a call does to the registry. -/
theorem Served.changes (h : Served r call answer after) :
    (Turn.mk r call answer after).Changes := by
  cases h with
  | register group attempt => exact fun other => get?_register r group other attempt.id attempt.pair
  | get group => exact rfl
  | isCurrent group id => exact rfl
  | @withdrawn group => exact get?_erase r group
  | late _ => exact rfl
  | @committed group => exact get?_erase r group
  | failed _ _ => exact rfl
  | stale _ => exact rfl
  | size => exact rfl

end

/-- **A call leaves the other groups as they are.** -/
theorem get?_serve_of_ne {call : Call η} {other : Identifier} (hgroup : call.group? = some group)
    (hother : other ≠ group) : (r.serve call).2.get? other = r.get? other := by
  have hchanges := (served r call).changes
  unfold Turn.Changes at hchanges
  split at hchanges
  · next g attempt hcall =>
    cases hcall
    cases hgroup
    exact (hchanges other).trans (if_neg hother)
  · next g id hcall _ =>
    cases hcall
    cases hgroup
    exact (hchanges other).trans (if_neg hother)
  · next g id verdict ran hcall _ =>
    cases hcall
    cases hgroup
    exact (hchanges other).trans (if_neg hother)
  · exact congrArg (fun s : InFlight => s.get? other) hchanges

/-- What is answered about a group is read off its current attempt. -/
theorem serve_congr {s : InFlight} {call : Call η} (hgroup : call.group? = some group)
    (h : r.get? group = s.get? group) : (r.serve call).1 = (s.serve call).1 := by
  have hcurrent : ∀ id, r.isCurrent group id = s.isCurrent group id := fun id => by
    unfold isCurrent
    rw [h]
  cases call with
  | register g attempt => rfl
  | get g =>
    cases hgroup
    exact congrArg Answer.entry h
  | isCurrent g id =>
    cases hgroup
    exact congrArg Answer.truth (hcurrent id)
  | withdraw g id =>
    cases hgroup
    cases hid : r.isCurrent group id with
    | true =>
      rw [serve_withdraw_of_current hid, serve_withdraw_of_current ((hcurrent id).symm.trans hid)]
    | false =>
      rw [serve_withdraw_of_stale hid, serve_withdraw_of_stale ((hcurrent id).symm.trans hid)]
  | settle g id verdict =>
    cases hgroup
    cases hid : r.isCurrent group id with
    | true =>
      obtain ⟨pair, hget⟩ := InFlight.isCurrent_iff.mp hid
      rw [serve_settle_of_current hget, serve_settle_of_current (h.symm.trans hget)]
      cases verdict ⟨id, pair⟩ <;> rfl
    | false =>
      rw [serve_settle_of_stale hid, serve_settle_of_stale ((hcurrent id).symm.trans hid)]
  | size => cases hgroup

/-- **Groups do not get in each other's way.** -/
theorem staysWithin_turn (r : InFlight) (call : Call η) : (r.turn call).StaysWithin :=
  fun _ _ _ hgroup hother hne => serve_congr hother (get?_serve_of_ne hgroup hne)

/-! ## What every turn preserves -/

/-- **What holds between two turns**: the journal says what the registry is, and no
committed attempt comes back. -/
structure Orderly (r : InFlight) (journal : List Event) : Prop where
  tracks : Tracks r journal
  distinct : (issued journal).Nodup
  once : (committed journal).Nodup
  registered : ∀ id ∈ committed journal, id ∈ issued journal
  gone : ∀ {group attempt}, r.get? group = some attempt → attempt.id ∉ committed journal

theorem orderly_empty : Orderly empty [] where
  tracks := tracks_empty
  distinct := List.nodup_nil
  once := List.nodup_nil
  registered := fun _ h => absurd h List.not_mem_nil
  gone := fun h => absurd h nofun

theorem committed_append (journal journal' : List Event) :
    committed (journal ++ journal') = committed journal ++ committed journal' :=
  List.filterMap_append

/-- A withdrawal that comes too late is tracked by the registry as it is. -/
theorem Tracks.late (h : Tracks r journal) (hstale : r.isCurrent group id = false) :
    Tracks r (journal ++ [.withdrawn group id]) := by
  intro other attempt
  rw [lastRegistered_concat, h other attempt]
  constructor
  · refine fun hlast => .inr ⟨hlast, ?_⟩
    rintro ⟨rfl, rfl⟩
    have hyes := h.isCurrent_iff.mpr ⟨attempt.pair, hlast⟩
    cases hstale.symm.trans hyes
  · rintro (hnew | ⟨hlast, _⟩)
    · cases hnew
    · exact hlast

/-- **A new attempt is registered.** -/
theorem Orderly.register (h : Orderly r journal) (group : Identifier) {attempt : Attempt}
    (hnew : attempt.id ∉ issued journal) :
    Orderly (r.register group attempt.id attempt.pair)
      (journal ++ [.registered group attempt]) where
  tracks := h.tracks.register group attempt.id attempt.pair
  distinct := by
    rw [issued_append]
    exact List.nodup_append.mpr ⟨h.distinct, List.nodup_singleton _, fun a ha b hb hab =>
      hnew (List.mem_singleton.mp hb ▸ hab ▸ ha)⟩
  once := by
    rw [committed_append]
    exact (List.append_nil (committed journal)).symm ▸ h.once
  registered := by
    intro id hid
    rw [committed_append, show committed [Event.registered group attempt] = [] from rfl,
      List.append_nil] at hid
    rw [issued_append]
    exact List.mem_append_left _ (h.registered id hid)
  gone := by
    intro other current hget
    rw [committed_append, show committed [Event.registered group attempt] = [] from rfl,
      List.append_nil]
    rw [get?_register] at hget
    by_cases hother : other = group
    · rw [if_pos hother] at hget
      cases hget
      exact fun hid => hnew (h.registered _ hid)
    · rw [if_neg hother] at hget
      exact h.gone hget

/-- An event that gives out no identifier and commits nothing leaves all in order, if the
registry still tracks the journal and has no attempt that it had not before. -/
theorem Orderly.concat (h : Orderly r journal) {s : InFlight} {event : Event}
    (hissued : issued [event] = []) (hcommitted : committed [event] = [])
    (htracks : Tracks s (journal ++ [event]))
    (hget : ∀ {group attempt}, s.get? group = some attempt → r.get? group = some attempt) :
    Orderly s (journal ++ [event]) := by
  have hsame : issued (journal ++ [event]) = issued journal := by
    rw [issued_append, hissued, List.append_nil]
  have hkept : committed (journal ++ [event]) = committed journal := by
    rw [committed_append, hcommitted, List.append_nil]
  refine ⟨htracks, ?_, ?_, ?_, ?_⟩
  · rw [hsame]
    exact h.distinct
  · rw [hkept]
    exact h.once
  · rw [hsame, hkept]
    exact h.registered
  · rw [hkept]
    exact fun hcurrent => h.gone (hget hcurrent)

/-- **The current attempt is committed**, for the first and last time. -/
theorem Orderly.commit (h : Orderly r journal) {pair : KeyPair}
    (hget : r.get? group = some ⟨id, pair⟩) :
    Orderly (r.erase group) (journal ++ [.committed group id]) where
  tracks := h.tracks.end hget (fun _ _ => Iff.rfl) (fun _ _ => nofun)
  distinct := by
    rw [issued_append]
    exact (List.append_nil (issued journal)).symm ▸ h.distinct
  once := by
    rw [committed_append]
    exact List.nodup_append.mpr ⟨h.once, List.nodup_singleton _, fun a ha b hb hab =>
      h.gone hget (List.mem_singleton.mp hb ▸ hab ▸ ha)⟩
  registered := by
    intro other hother
    rw [issued_append]
    refine List.mem_append_left _ ?_
    rw [committed_append] at hother
    rcases List.mem_append.mp hother with hold | hnew
    · exact h.registered other hold
    · rw [List.mem_singleton.mp hnew]
      exact mem_issued.mpr ⟨group, _, ((h.tracks _ _).mp hget).mem, rfl⟩
  gone := by
    intro other attempt hcurrent
    rw [committed_append]
    intro hmem
    rcases List.mem_append.mp hmem with hold | hnew
    · exact h.gone (get?_of_get?_erase hcurrent) hold
    · -- an identifier belongs to one attempt, and that one is gone
      have hlast := (h.tracks _ _).mp (get?_of_get?_erase hcurrent)
      obtain ⟨hsame, _⟩ := eq_of_registered h.distinct hlast.mem ((h.tracks _ _).mp hget).mem
        (List.mem_singleton.mp hnew)
      exact ne_of_get?_erase hcurrent hsame

section

variable {call : Call η} {answer : Answer η} {after : InFlight}

/-- **Every turn leaves all in order**, if it gives out no identifier again. -/
theorem Orderly.turn (h : Orderly r journal) (hserved : Served r call answer after)
    (hnew : ∀ id ∈ call.issues?, id ∉ issued journal) :
    Orderly after (journal ++ journalOf [⟨r, call, answer, after⟩]) := by
  have hsame : Orderly r (journal ++ []) := (List.append_nil journal).symm ▸ h
  cases hserved with
  | register group attempt => exact h.register group (hnew attempt.id rfl)
  | get group => exact hsame
  | isCurrent group id => exact hsame
  | withdrawn hcurrent =>
    obtain ⟨pair, hget⟩ := InFlight.isCurrent_iff.mp hcurrent
    exact h.concat rfl rfl (h.tracks.end hget (fun _ _ => Iff.rfl) (fun _ _ => nofun))
      get?_of_get?_erase
  | late hstale => exact h.concat rfl rfl (h.tracks.late hstale) fun hget => hget
  | committed hget _ => exact h.commit hget
  | failed _ _ => exact hsame
  | stale _ => exact hsame
  | size => exact hsame

/-- What a turn gives out is what its call gives out. -/
theorem Served.issued_journalOf (h : Served r call answer after) :
    issued (journalOf [⟨r, call, answer, after⟩]) = call.issues?.toList := by
  cases h <;> rfl

end

/-- **Turns leave all in order**, one after another, from whatever order they start with. -/
theorem Orderly.turns {calls : List (Call η)} (h : Orderly r journal)
    (hdistinct : (issued journal ++ calls.filterMap Call.issues?).Nodup) :
    (∀ before turn after, r.turns calls = before ++ turn :: after →
      turn = turn.before.turn turn.call ∧ Orderly turn.before (journal ++ journalOf before)) ∧
    ∃ s, Orderly s (journal ++ journalOf (r.turns calls)) := by
  induction calls generalizing r journal with
  | nil =>
    refine ⟨fun before turn after heq => ?_, r, (List.append_nil journal).symm ▸ h⟩
    exact absurd heq.symm (List.append_ne_nil_of_right_ne_nil before (List.cons_ne_nil _ _))
  | cons call rest ih =>
    have hcons : (call :: rest).filterMap Call.issues? =
        call.issues?.toList ++ rest.filterMap Call.issues? := by
      rw [List.filterMap_cons]
      cases call.issues? <;> rfl
    rw [hcons, ← List.append_assoc] at hdistinct
    have hnew : ∀ id ∈ call.issues?, id ∉ issued journal := fun id hid hmem =>
      (List.nodup_append.mp (List.nodup_append.mp hdistinct).1).2.2 id hmem id
        (Option.mem_toList.mpr hid) rfl
    rw [← (served r call).issued_journalOf, ← issued_append] at hdistinct
    obtain ⟨hturns, s, hend⟩ := ih (h.turn (served r call) hnew) hdistinct
    have hjournal : ∀ turns : List (Turn η), journal ++ journalOf (r.turn call :: turns) =
        journal ++ journalOf [r.turn call] ++ journalOf turns := fun turns => by
      rw [List.append_assoc]
      exact congrArg (journal ++ ·) (List.filterMap_append (l := [r.turn call]))
    refine ⟨fun before turn after heq => ?_, s, ?_⟩
    · cases before with
      | nil =>
        cases heq
        exact ⟨rfl, (List.append_nil journal).symm ▸ h⟩
      | cons first before =>
        obtain ⟨rfl, hrest⟩ := List.cons.inj heq
        rw [hjournal]
        exact hturns before turn after hrest
    · rw [show r.turns (call :: rest) = r.turn call :: (r.turn call).after.turns rest from rfl,
        hjournal]
      exact hend

/-- **The registry is the last registered attempt of each group**, and no more. Of any
sequence of calls on a new registry, in which no identifier is registered twice, every turn
finds the registry that the journal of the turns before it says, is answered from that
journal, changes no more than its own entry, and leaves all answers about other groups as
they are; and the action that is run to commit an attempt succeeds at most once. -/
theorem turns_follow_journal (calls : List (Call η))
    (hdistinct : (calls.filterMap Call.issues?).Nodup) :
    (∀ before turn after, empty.turns calls = before ++ turn :: after →
      Tracks turn.before (journalOf before) ∧ Answers (journalOf before) turn.call turn.answer ∧
        turn.Changes ∧ turn.StaysWithin) ∧
    (committed (journalOf (empty.turns calls))).Nodup := by
  obtain ⟨hturns, s, hend⟩ := orderly_empty.turns hdistinct
  refine ⟨fun before turn after heq => ?_, hend.once⟩
  obtain ⟨hturn, horderly⟩ := hturns before turn after heq
  rw [hturn]
  have hserved := served turn.before turn.call
  exact ⟨horderly.tracks, horderly.tracks.answers hserved, hserved.changes, staysWithin_turn _ _⟩

/-- A commit that failed may be tried again, and one that succeeded may not. -/
theorem turns_follow_journal_of_retry :
    let attempt : Attempt := ⟨⟨0⟩, KeyPair.ofSecret (Scalar.ofNat 1)⟩
    let calls : List (Call String) :=
      [.register Identifier.sample attempt,
        .settle Identifier.sample attempt.id fun _ => .error "store down",
        .settle Identifier.sample attempt.id fun _ => .ok (),
        .settle Identifier.sample attempt.id fun _ => .ok ()]
    (calls.filterMap Call.issues?).Nodup ∧ ∃ registered failed again late,
      empty.turns calls = [registered, failed, again, late] ∧
        again.answer = .settled (.ok true) [attempt] ∧ late.answer = .settled (.ok false) [] := by
  intro attempt calls
  have hdistinct : (calls.filterMap Call.issues?).Nodup := List.nodup_singleton attempt.id
  obtain ⟨hturns, _⟩ := turns_follow_journal calls hdistinct
  refine ⟨hdistinct, _, _, _, _, rfl, ?_, ?_⟩
  · -- only the registration has been entered so far
    obtain ⟨_, ⟨_, _, hanswer, hcurrent, _⟩, _⟩ := hturns [_, _] _ [_] rfl
    have hlast : LastRegistered [.registered Identifier.sample attempt] Identifier.sample attempt :=
      ⟨[], [], rfl, nofun⟩
    obtain ⟨rfl, rfl⟩ := hcurrent attempt.pair hlast
    exact hanswer
  · obtain ⟨_, ⟨_, _, hanswer, _, hstale⟩, _⟩ := hturns [_, _, _] _ [] rfl
    have hnone : ¬∃ pair, LastRegistered [.registered Identifier.sample attempt,
        .committed Identifier.sample attempt.id] Identifier.sample ⟨attempt.id, pair⟩ := by
      rintro ⟨pair, hlast⟩
      rw [← List.singleton_append, lastRegistered_concat] at hlast
      rcases hlast with hnew | ⟨_, hends⟩
      · cases hnew
      · exact hends ⟨rfl, rfl⟩
    obtain ⟨rfl, rfl⟩ := hstale hnone
    exact hanswer

end InFlight

end SealedGroup
