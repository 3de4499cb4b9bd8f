import Mathlib.Data.List.Basic
import SealedGroup.Rotation.InFlight

/-!
# The journal of a registry

What happened to a registry, oldest first: attempts are registered, withdrawn and committed. The
registry forgets, the journal does not, and so the journal says which attempt a registry ought
to give for a group: the last one that was registered for it, unless it has been withdrawn or
committed since (`InFlight.LastRegistered`).

A registry *tracks* a journal if it gives just those attempts. Every change of the registry,
entered into the journal, keeps it so (`InFlight.Tracks.register`, `InFlight.Tracks.end`).

## Reading a journal

A journal grows at its end, and what is said of it is said by the event that is added: an
attempt is the last one of its group after an event if the event registers it, or if it was the
last one before and the event does not end it (`InFlight.lastRegistered_concat`). Proofs about
journals are inductions along that equivalence.

An event ends the attempt of its group in one of three ways, and one of them is the registration
of another attempt. That is why the registry keeps one attempt for each group and no list of
them: once an attempt was replaced, no later event makes it the last one again, not even the
withdrawal of the one that replaced it.

Statements about the order of attempts use the lists of those registered for a group and of
those committed. They identify an attempt by its identifier, which is enough as long as no
identifier is given out twice (`InFlight.eq_of_registered`).
-/

namespace SealedGroup

namespace InFlight

/-- **What happens to a registry.** -/
inductive Event where
  | registered (group : Identifier) (attempt : Attempt)
  | withdrawn (group : Identifier) (attempt : Uuid)
  | committed (group : Identifier) (attempt : Uuid)

namespace Event

/-- After the event the attempt is no longer the current one of the group:
another one was registered for the group, or it was withdrawn or committed. -/
def Ends (group : Identifier) (attempt : Uuid) : Event → Prop
  | registered g _ => g = group
  | withdrawn g a => g = group ∧ a = attempt
  | committed g a => g = group ∧ a = attempt

/-- The attempt that the event registers for the group. -/
def attempt? (group : Identifier) : Event → Option Attempt
  | registered g attempt => if g = group then some attempt else none
  | withdrawn .. | committed .. => none

/-- The attempt of the group that the event commits. -/
def commit? (group : Identifier) : Event → Option Uuid
  | committed g attempt => if g = group then some attempt else none
  | registered .. | withdrawn .. => none

theorem attempt?_eq_some {group : Identifier} {attempt : Attempt} {event : Event} :
    event.attempt? group = some attempt ↔ event = .registered group attempt := by
  cases event with
  | registered g a =>
    by_cases hg : g = group
    · simp [attempt?, hg]
    · simp [attempt?, hg]
  | withdrawn g a => exact ⟨nofun, nofun⟩
  | committed g a => exact ⟨nofun, nofun⟩

end Event

/-- **The attempt is the last one registered for the group**, and has been
neither withdrawn nor committed since. -/
def LastRegistered (journal : List Event) (group : Identifier) (attempt : Attempt) : Prop :=
  ∃ before after, journal = before ++ .registered group attempt :: after ∧
    ∀ event ∈ after, ¬event.Ends group attempt.id

/-- The attempts registered for a group, oldest first. -/
def registrations (group : Identifier) (journal : List Event) : List Attempt :=
  journal.filterMap (Event.attempt? group)

/-- The identifiers of all registered attempts, oldest first. -/
def issued (journal : List Event) : List Uuid :=
  journal.filterMap fun
    | .registered _ attempt => some attempt.id
    | _ => none

/-- The attempts of a group that were committed, oldest commit first. -/
def commits (group : Identifier) (journal : List Event) : List Uuid :=
  journal.filterMap (Event.commit? group)

variable {journal : List Event} {group : Identifier} {attempt : Attempt}

theorem not_lastRegistered_nil : ¬LastRegistered [] group attempt := by
  rintro ⟨before, after, h, _⟩
  exact List.append_ne_nil_of_right_ne_nil before (List.cons_ne_nil _ after) h.symm

/-- **One more event**: it registers the attempt, or the attempt was the last
one before and the event does not end it. -/
theorem lastRegistered_concat {event : Event} :
    LastRegistered (journal ++ [event]) group attempt ↔
      event = .registered group attempt ∨
        LastRegistered journal group attempt ∧ ¬event.Ends group attempt.id := by
  constructor
  · rintro ⟨before, after, heq, hafter⟩
    rcases List.eq_nil_or_concat' after with rfl | ⟨front, last, rfl⟩
    · cases (List.append_inj' heq rfl).2
      exact .inl rfl
    · have hsplit : journal ++ [event] =
          (before ++ .registered group attempt :: front) ++ [last] := by
        rw [heq, List.append_assoc, List.cons_append]
      obtain ⟨hfront, hlast⟩ := List.append_inj' hsplit rfl
      cases hlast
      refine .inr ⟨⟨before, front, hfront, fun e he => hafter e ?_⟩, hafter event ?_⟩
      · exact List.mem_append_left _ he
      · exact List.mem_append_right _ (List.mem_singleton_self _)
  · rintro (rfl | ⟨⟨before, after, rfl, hafter⟩, hevent⟩)
    · exact ⟨journal, [], rfl, fun e he => absurd he List.not_mem_nil⟩
    · refine ⟨before, after ++ [event], by rw [List.append_assoc, List.cons_append], ?_⟩
      intro e he
      rcases List.mem_append.mp he with hold | hnew
      · exact hafter e hold
      · rwa [List.mem_singleton.mp hnew]

theorem LastRegistered.mem (h : LastRegistered journal group attempt) :
    .registered group attempt ∈ journal := by
  obtain ⟨before, after, rfl, _⟩ := h
  exact List.mem_append_right _ (List.mem_cons_self ..)

theorem mem_registrations : attempt ∈ registrations group journal ↔
    .registered group attempt ∈ journal := by
  unfold registrations
  rw [List.mem_filterMap]
  simp only [Event.attempt?_eq_some, exists_eq_right]

theorem registrations_concat (event : Event) :
    registrations group (journal ++ [event]) =
      registrations group journal ++ (event.attempt? group).toList := by
  unfold registrations
  rw [List.filterMap_append]
  cases h : event.attempt? group <;> simp [h]

theorem commits_concat (event : Event) :
    commits group (journal ++ [event]) =
      commits group journal ++ (event.commit? group).toList := by
  unfold commits
  rw [List.filterMap_append]
  cases h : event.commit? group <;> simp [h]

theorem mem_issued {id : Uuid} :
    id ∈ issued journal ↔
      ∃ group attempt, .registered group attempt ∈ journal ∧ attempt.id = id := by
  unfold issued
  rw [List.mem_filterMap]
  constructor
  · rintro ⟨event, hmem, hevent⟩
    cases event with
    | registered g a => exact ⟨g, a, hmem, Option.some.inj hevent⟩
    | withdrawn g a => cases hevent
    | committed g a => cases hevent
  · rintro ⟨g, a, hmem, rfl⟩
    exact ⟨_, hmem, rfl⟩

theorem issued_append (journal journal' : List Event) :
    issued (journal ++ journal') = issued journal ++ issued journal' :=
  List.filterMap_append

/-- **An identifier that was given out once belongs to one attempt.** -/
theorem eq_of_registered {group' : Identifier} {attempt' : Attempt} (h : (issued journal).Nodup)
    (hmem : .registered group attempt ∈ journal) (hmem' : .registered group' attempt' ∈ journal)
    (hid : attempt.id = attempt'.id) : group = group' ∧ attempt = attempt' := by
  induction journal with
  | nil => exact absurd hmem List.not_mem_nil
  | cons event rest ih =>
    rw [show event :: rest = [event] ++ rest from rfl, issued_append] at h
    obtain ⟨_, hrest, hdisjoint⟩ := List.nodup_append.mp h
    rcases List.mem_cons.mp hmem with rfl | hin
    · rcases List.mem_cons.mp hmem' with heq | hin'
      · cases heq
        exact ⟨rfl, rfl⟩
      · exact absurd rfl (hdisjoint attempt.id (List.mem_singleton_self _) attempt.id
          (mem_issued.mpr ⟨group', attempt', hin', hid.symm⟩))
    · rcases List.mem_cons.mp hmem' with rfl | hin'
      · exact absurd rfl (hdisjoint attempt'.id (List.mem_singleton_self _) attempt'.id
          (mem_issued.mpr ⟨group, attempt, hin, hid⟩))
      · exact ih hrest hin hin'

/-- The attempts of one group are among all attempts, in the same order. -/
theorem registrations_sublist (group : Identifier) (journal : List Event) :
    ((registrations group journal).map Attempt.id).Sublist (issued journal) := by
  unfold registrations issued
  induction journal with
  | nil => exact .slnil
  | cons event rest ih =>
    cases event with
    | registered g a =>
      by_cases hg : g = group
      · simpa [List.filterMap_cons, Event.attempt?, hg] using ih
      · simpa [List.filterMap_cons, Event.attempt?, hg] using ih.cons a.id
    | withdrawn g a => exact ih
    | committed g a => exact ih

/-- The last registered attempt comes last among those of its group. -/
theorem LastRegistered.registrations_eq (h : LastRegistered journal group attempt) :
    ∃ earlier, registrations group journal = earlier ++ [attempt] := by
  obtain ⟨before, after, rfl, hafter⟩ := h
  have hnone : registrations group after = [] := by
    refine List.filterMap_eq_nil_iff.mpr fun event hevent => ?_
    rw [Option.eq_none_iff_forall_ne_some]
    intro attempt hattempt
    rw [Event.attempt?_eq_some.mp hattempt] at hevent
    exact hafter _ hevent rfl
  refine ⟨registrations group before, ?_⟩
  unfold registrations at hnone ⊢
  rw [List.filterMap_append, List.filterMap_cons_some (Event.attempt?_eq_some.mpr rfl), hnone]

/-! ## Registries that track a journal -/

/-- **The registry gives for each group the attempt that the journal says.** -/
def Tracks (r : InFlight) (journal : List Event) : Prop :=
  ∀ group attempt, r.get? group = some attempt ↔ LastRegistered journal group attempt

theorem tracks_empty : Tracks empty [] := fun _ _ =>
  ⟨fun h => absurd h nofun, fun h => absurd h not_lastRegistered_nil⟩

variable {r : InFlight}

/-- A registration that is entered into the journal is tracked. -/
theorem Tracks.register (h : Tracks r journal) (group : Identifier) (id : Uuid) (pair : KeyPair) :
    Tracks (r.register group id pair) (journal ++ [.registered group ⟨id, pair⟩]) := by
  intro other attempt
  rw [lastRegistered_concat, get?_register]
  by_cases hother : other = group
  · subst hother
    rw [if_pos rfl]
    constructor
    · rintro ⟨⟩
      exact .inl rfl
    · rintro (hnew | ⟨_, hends⟩)
      · cases hnew
        rfl
      · exact absurd rfl hends
  · rw [if_neg hother, h other attempt]
    constructor
    · exact fun hlast => .inr ⟨hlast, fun hends => hother hends.symm⟩
    · rintro (hnew | ⟨hlast, _⟩)
      · cases hnew
        exact absurd rfl hother
      · exact hlast

/-- After a removal only other groups have an attempt. -/
theorem ne_of_get?_erase {other : Identifier} (h : (r.erase group).get? other = some attempt) :
    other ≠ group := by
  rintro rfl
  rw [get?_erase_self] at h
  cases h

/-- What a registry still gives after a removal, it gave before. -/
theorem get?_of_get?_erase {other : Identifier} (h : (r.erase group).get? other = some attempt) :
    r.get? other = some attempt := by
  have hne := ne_of_get?_erase h
  rwa [get?_erase_of_ne r hne] at h

/-- **The end of the current attempt** is tracked, if nothing but that attempt
ends. -/
theorem Tracks.end (h : Tracks r journal) {attempt : Attempt} (hget : r.get? group = some attempt)
    {event : Event} (hevent : ∀ g id, event.Ends g id ↔ group = g ∧ attempt.id = id)
    (hnot : ∀ g a, event ≠ .registered g a) : Tracks (r.erase group) (journal ++ [event]) := by
  intro other a
  rw [lastRegistered_concat, get?_erase, hevent]
  by_cases hother : other = group
  · subst hother
    rw [if_pos rfl]
    constructor
    · intro hnone
      cases hnone
    · rintro (hnew | ⟨hlast, hends⟩)
      · exact absurd hnew (hnot _ _)
      · rw [← h other a, hget] at hlast
        cases hlast
        exact absurd ⟨rfl, rfl⟩ hends
  · rw [if_neg hother, h other a]
    constructor
    · exact fun hlast => .inr ⟨hlast, fun hends => hother hends.1.symm⟩
    · rintro (hnew | ⟨hlast, _⟩)
      · exact absurd hnew (hnot _ _)
      · exact hlast

/-- An attempt is current exactly if the journal has it as the last one of its
group. -/
theorem Tracks.isCurrent_iff (h : Tracks r journal) {id : Uuid} :
    r.isCurrent group id = true ↔ ∃ pair, LastRegistered journal group ⟨id, pair⟩ := by
  rw [InFlight.isCurrent_iff]
  exact exists_congr fun pair => h group ⟨id, pair⟩

end InFlight

end SealedGroup
