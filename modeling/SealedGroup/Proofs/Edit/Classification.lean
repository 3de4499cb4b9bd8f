import Mathlib.Data.Set.Basic
import SealedGroup.Proofs.Edit.Classes

/-!
# The classes of changes

`Change.between` compares lists: it builds rosters, takes their differences and filters them.
What it says can be told without any of this, by two names and two sets: everyone whom the
stored group counts as present, and everyone whom the snapshot does. A change of the name comes
first; then whoever is in the second set only is added; then whoever is in the first set only is
removed, standard identifiers alone being looked at (`Change.Classifies`).

Who is a member and who a zombie makes no difference, then, nor does the order in which a
snapshot lists them, nor how often it does; and whoever an edit removes, the reverse of that
edit adds (`Change.between_tells_who_joins`).

## Sets and their enumerations

A change names its identifiers in a list, and the classification has a set. The two are related
by `Identifier.Enumerates`: the list has the elements of the set, in strictly ascending order.
There is one such list for each set that has any, so a change is determined by the sets, and
nothing is said about how it was computed.

The classes exclude one another and every change has one (`Change.Classifies.unique`,
`Change.classifies_between`). So whoever knows the class of a change knows the change, and
properties of changes are proved of the classes: that they depend on the names and the two sets
alone, or that a removal and an addition change places with the sides of the comparison.
-/

namespace SealedGroup

/-- Everyone whom the stored group counts as present, zombies among them. -/
def StoredGroup.everyone (g : StoredGroup) : Set Identifier :=
  {id | id ∈ g.members} ∪ {id | id ∈ g.zombies}

/-- Everyone whom the snapshot counts as present, zombies among them. -/
def GroupSnapshot.everyone (snapshot : GroupSnapshot) : Set Identifier :=
  {id | id ∈ snapshot.members} ∪ {id | id ∈ snapshot.zombies}

/-- **Who joins** if everyone is in the first set after and was in the second one before:
standard identifiers alone. -/
def Identifier.joining (after before : Set Identifier) : Set Identifier :=
  {id ∈ after \ before | id.isStandard = true}

/-- **The list enumerates the set**, in strictly ascending order. -/
structure Identifier.Enumerates (ids : List Identifier) (all : Set Identifier) : Prop where
  ascending : ids.Pairwise (· < ·)
  mem_iff : ∀ id, id ∈ ids ↔ id ∈ all

namespace Identifier.Enumerates

variable {ids ids' : List Identifier} {all : Set Identifier}

/-- There is one enumeration of a set. -/
theorem unique (h : Enumerates ids all) (h' : Enumerates ids' all) : ids = ids' :=
  Roster.eq_of_pairwise h.ascending h'.ascending fun id => (h.mem_iff id).trans (h'.mem_iff id).symm

/-- A roster enumerates whoever is put on it. -/
theorem toList_ofList (ids : List Identifier) :
    Enumerates (Roster.ofList ids).toList {id | id ∈ ids} :=
  ⟨(Roster.ofList ids).ascending, fun _ => Roster.mem_ofList⟩

theorem nonempty_iff (h : Enumerates ids all) : all.Nonempty ↔ ids ≠ [] := by
  constructor
  · rintro ⟨id, hid⟩
    exact List.ne_nil_of_mem ((h.mem_iff id).mpr hid)
  · intro hne
    obtain ⟨id, hid⟩ := List.exists_mem_of_ne_nil ids hne
    exact ⟨id, (h.mem_iff id).mp hid⟩

theorem eq_empty_iff (h : Enumerates ids all) : all = ∅ ↔ ids = [] := by
  rw [← Set.not_nonempty_iff_eq_empty, h.nonempty_iff, not_not]

end Identifier.Enumerates

namespace Change

open Identifier (Enumerates joining)

variable {old old' : StoredGroup} {snapshot snapshot' : GroupSnapshot} {change change' : Change}
  {ids : List Identifier}

/-- **What a change is classified as**: a new name hides everything else, and an addition hides
removals. -/
inductive Classifies (old : StoredGroup) (snapshot : GroupSnapshot) : Change → Prop
  | renamed (hname : snapshot.name ≠ old.name) : Classifies old snapshot (.renamed snapshot.name)
  | added {ids : List Identifier} (hname : snapshot.name = old.name)
      (hjoin : (joining snapshot.everyone old.everyone).Nonempty)
      (hids : Enumerates ids (joining snapshot.everyone old.everyone)) :
      Classifies old snapshot (.added ids false)
  | removed {ids : List Identifier} (hname : snapshot.name = old.name)
      (hnone : joining snapshot.everyone old.everyone = ∅)
      (hleave : (joining old.everyone snapshot.everyone).Nonempty)
      (hids : Enumerates ids (joining old.everyone snapshot.everyone)) :
      Classifies old snapshot (.removed ids)
  | unchanged (hname : snapshot.name = old.name)
      (hnone : joining snapshot.everyone old.everyone = ∅)
      (hnobody : joining old.everyone snapshot.everyone = ∅) : Classifies old snapshot .unchanged

/-- The classes exclude one another, and each names its identifiers in one way. -/
theorem Classifies.unique (h : Classifies old snapshot change)
    (h' : Classifies old snapshot change') : change = change' := by
  cases h with
  | renamed hname =>
    cases h' with
    | renamed _ => rfl
    | added heq _ _ | removed heq _ _ _ | unchanged heq _ _ => exact absurd heq hname
  | added hname hjoin hids =>
    cases h' with
    | renamed hne => exact absurd hname hne
    | added _ _ hids' => rw [hids.unique hids']
    | removed _ hnone _ _ | unchanged _ hnone _ => exact absurd hnone hjoin.ne_empty
  | removed hname hnone hleave hids =>
    cases h' with
    | renamed hne => exact absurd hname hne
    | added _ hjoin _ => exact absurd hnone hjoin.ne_empty
    | removed _ _ _ hids' => rw [hids.unique hids']
    | unchanged _ _ hnobody => exact absurd hnobody hleave.ne_empty
  | unchanged hname hnone hnobody =>
    cases h' with
    | renamed hne => exact absurd hname hne
    | added _ hjoin _ => exact absurd hnone hjoin.ne_empty
    | removed _ _ hleave _ => exact absurd hnobody hleave.ne_empty
    | unchanged _ _ _ => rfl

/-- **The names and the two sets** are all that a change is classified by. -/
theorem Classifies.congr (h : Classifies old snapshot change) (hold : old'.name = old.name)
    (hsnapshot : snapshot'.name = snapshot.name) (hbefore : old'.everyone = old.everyone)
    (hafter : snapshot'.everyone = snapshot.everyone) : Classifies old' snapshot' change := by
  cases h with
  | renamed hname =>
    rw [← hold, ← hsnapshot] at hname
    exact hsnapshot ▸ .renamed hname
  | added hname hjoin hids =>
    rw [← hold, ← hsnapshot] at hname
    rw [← hbefore, ← hafter] at hjoin hids
    exact .added hname hjoin hids
  | removed hname hnone hleave hids =>
    rw [← hold, ← hsnapshot] at hname
    rw [← hbefore, ← hafter] at hnone hleave hids
    exact .removed hname hnone hleave hids
  | unchanged hname hnone hnobody =>
    rw [← hold, ← hsnapshot] at hname
    rw [← hbefore, ← hafter] at hnone hnobody
    exact .unchanged hname hnone hnobody

/-- **Whoever is removed joins again** if the two sides change places. -/
theorem Classifies.exchange (h : Classifies old snapshot (.removed ids))
    (hold : old'.name = snapshot.name) (hsnapshot : snapshot'.name = old.name)
    (hbefore : old'.everyone = snapshot.everyone) (hafter : snapshot'.everyone = old.everyone) :
    Classifies old' snapshot' (.added ids false) := by
  cases h with
  | removed hname _ hleave hids =>
    rw [← hbefore, ← hafter] at hleave hids
    exact .added (hsnapshot.trans (hname.symm.trans hold.symm)) hleave hids

/-! ## The rosters that are compared -/

/-- The newcomers are listed in ascending order. -/
theorem enumerates_newcomers {after before : Roster} {all all' : Set Identifier}
    (hafter : ∀ id, id ∈ after ↔ id ∈ all) (hbefore : ∀ id, id ∈ before ↔ id ∈ all') :
    Enumerates (newcomers after before) (joining all all') where
  ascending := ((after.difference before).filter Identifier.isStandard).ascending
  mem_iff := fun id => by
    rw [mem_newcomers, hafter, hbefore, ← and_assoc]
    rfl

theorem mem_present_iff (id : Identifier) : id ∈ present old ↔ id ∈ old.everyone :=
  mem_present

theorem mem_proposed_iff (id : Identifier) : id ∈ proposed snapshot ↔ id ∈ snapshot.everyone := by
  unfold proposed
  rw [Roster.mem_ofList, List.mem_append]
  rfl

/-- **Every change is classified.** -/
theorem classifies_between (old : StoredGroup) (snapshot : GroupSnapshot) :
    Classifies old snapshot (between old snapshot) := by
  have hjoin : Enumerates (newcomers (proposed snapshot) (present old))
      (joining snapshot.everyone old.everyone) :=
    enumerates_newcomers mem_proposed_iff mem_present_iff
  have hleave : Enumerates (newcomers (present old) (proposed snapshot))
      (joining old.everyone snapshot.everyone) :=
    enumerates_newcomers mem_present_iff mem_proposed_iff
  unfold between
  by_cases hname : snapshot.name = old.name
  · rw [if_neg (not_not_intro hname)]
    dsimp only
    cases hnew : newcomers (proposed snapshot) (present old) with
    | cons id rest =>
      rw [hnew] at hjoin
      exact .added hname (hjoin.nonempty_iff.mpr (List.cons_ne_nil id rest)) hjoin
    | nil =>
      rw [hnew] at hjoin
      -- nobody joins, and so it matters who leaves
      have hnone := hjoin.eq_empty_iff.mpr rfl
      cases hgone : newcomers (present old) (proposed snapshot) with
      | cons id rest =>
        rw [hgone] at hleave
        exact .removed hname hnone (hleave.nonempty_iff.mpr (List.cons_ne_nil id rest)) hleave
      | nil =>
        rw [hgone] at hleave
        exact .unchanged hname hnone (hleave.eq_empty_iff.mpr rfl)
  · rw [if_pos hname]
    exact .renamed hname

/-- **A change is what it is classified as**, and so it tells who joins or leaves. It depends on
the names and on who is present before and after, however that is written down; and if whom an
edit removes were present after, and not before, then just they would be added. -/
theorem between_tells_who_joins (old : StoredGroup) (snapshot : GroupSnapshot) :
    (∀ change, between old snapshot = change ↔ Classifies old snapshot change) ∧
    (∀ (old' : StoredGroup) (snapshot' : GroupSnapshot), old'.name = old.name →
      snapshot'.name = snapshot.name → old'.everyone = old.everyone →
        snapshot'.everyone = snapshot.everyone → between old' snapshot' = between old snapshot) ∧
    ∀ (old' : StoredGroup) (snapshot' : GroupSnapshot) (ids : List Identifier),
      old'.name = snapshot.name → snapshot'.name = old.name →
        old'.everyone = snapshot.everyone → snapshot'.everyone = old.everyone →
          between old snapshot = .removed ids → between old' snapshot' = .added ids false := by
  have hclass := classifies_between old snapshot
  refine ⟨fun change => ⟨fun h => h ▸ hclass, hclass.unique⟩, ?_, ?_⟩
  · intro old' snapshot' hold hsnapshot hbefore hafter
    exact (classifies_between old' snapshot').unique
      (hclass.congr hold hsnapshot hbefore hafter)
  · intro old' snapshot' ids hold hsnapshot hbefore hafter hremoved
    rw [hremoved] at hclass
    exact (classifies_between old' snapshot').unique
      (hclass.exchange hold hsnapshot hbefore hafter)

/-- Someone who is a member and a zombie at once is removed by an edit that names the others
twice; with the two sides exchanged she is added, whichever of the others is a zombie. -/
theorem between_tells_who_joins_of_zombie :
    let old : StoredGroup := { StoredGroup.sample with
      members := Roster.ofList [Config.sample.account, Identifier.stranger, Identifier.sample]
      zombies := Roster.ofList [Identifier.sample] }
    let snapshot : GroupSnapshot := { old.edited old.id old.name [] 0 with
      members := [Identifier.stranger, Config.sample.account, Identifier.stranger] }
    let old' : StoredGroup := { old with
      members := Roster.ofList [Identifier.stranger]
      zombies := Roster.ofList [Config.sample.account] }
    let snapshot' : GroupSnapshot := { snapshot with
      members := [Identifier.sample, Identifier.stranger, Identifier.sample]
      zombies := [Config.sample.account] }
    between old snapshot = .removed [Identifier.sample] ∧
      between old' snapshot' = .added [Identifier.sample] false := by
  intro old snapshot old' snapshot'
  have hremoved : between old snapshot = .removed [Identifier.sample] := by decide +kernel
  refine ⟨hremoved, (between_tells_who_joins old snapshot).2.2 old' snapshot' _ rfl rfl ?_ ?_
    hremoved⟩
  · ext id
    show id ∈ Roster.ofList [Identifier.stranger] ∨ id ∈ Roster.ofList [Config.sample.account] ↔
      id ∈ [Identifier.stranger, Config.sample.account, Identifier.stranger] ∨ id ∈ []
    rw [Roster.mem_ofList, Roster.mem_ofList]
    simp only [List.mem_cons, List.not_mem_nil]
    tauto
  · ext id
    show id ∈ [Identifier.sample, Identifier.stranger, Identifier.sample] ∨
        id ∈ [Config.sample.account] ↔
      id ∈ Roster.ofList [Config.sample.account, Identifier.stranger, Identifier.sample] ∨
        id ∈ Roster.ofList [Identifier.sample]
    rw [Roster.mem_ofList, Roster.mem_ofList]
    simp only [List.mem_cons, List.not_mem_nil]
    tauto

end Change

end SealedGroup
