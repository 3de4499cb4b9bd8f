import SealedGroup.Proofs.Demo.Cast
import SealedGroup.Proofs.Edit.Classification
import SealedGroup.Proofs.Edit.Retention

/-!
# What a demo asks for

The arguments of a demo may ask for a new name, for new members and for a removal, all at once.
An edit announces one of these, and `Stage.Asked` says which one: a new name before all else,
then the new members, then the removal of as many as asked for and can be spared.

That is the change of the edit (`Stage.asked_changeOf`), and there is no objection to it: the
group has a key for its new members, and neither we nor its administrator are removed
(`Stage.allowed_start`).

## From lists to sets

The demo makes lists, and an edit compares rosters. Between the two stands the classification by
sets: everyone is stored as a member, so whoever joins is whoever is new, and whoever leaves is
whoever is removed (`Stage.joining_requested`, `Stage.leaving_requested`). With that the change
that is asked for is read off the arguments, and how many it names off the lengths of the lists,
since an enumeration is as long as any list of the same without repetition
(`Identifier.Enumerates.length_eq`).

That the lists do not repeat themselves, or each other, is what distinct accounts are needed
for. A new member who was among the others already would not join, and the report would be on
fewer than were asked for.

The ledgers at the start are made by their own operations: the group is stored from a snapshot,
and given one key. So they are reachable, and all that is known of edits applies to them.
-/

namespace SealedGroup

open Identifier (Enumerates joining)

/-- An enumeration is as long as any list of the same without repetition. -/
theorem Identifier.Enumerates.length_eq {ids all : List Identifier}
    (h : Enumerates ids {id | id ∈ all}) (hall : all.Nodup) : ids.length = all.length := by
  have hids : ids.Nodup := h.ascending.imp fun hlt => by
    rintro rfl
    exact Identifier.lt_irrefl _ hlt
  exact ((List.perm_ext_iff_of_nodup hids hall).mpr h.mem_iff).length_eq

/-- A list with nobody in it is empty. -/
theorem length_eq_zero_of_setOf_eq_empty {ids : List Identifier}
    (h : {id | id ∈ ids} = (∅ : Set Identifier)) : ids.length = 0 :=
  List.length_eq_zero_iff.mpr
    (List.eq_nil_iff_forall_not_mem.mpr (Set.eq_empty_iff_forall_notMem.mp h))

/-- Everyone whom an edit counts as present is given as a member. -/
theorem StoredGroup.everyone_edited (current : StoredGroup) (group : Identifier) (name : String)
    (members : List Identifier) (activeAt : Int64) :
    (current.edited group name members activeAt).everyone = {id | id ∈ members} :=
  Set.ext fun id => (Change.mem_proposed_iff id).symm.trans Change.mem_proposed_edited

namespace Demo

/-- No other name is asked for. -/
def Arguments.KeepsName (args : Arguments) : Prop :=
  ∀ name, args.rename = some name → name = args.groupName

theorem Arguments.keepsName_of_getD {args : Arguments}
    (h : args.rename.getD args.groupName = args.groupName) : args.KeepsName := by
  rintro name hrename
  rw [← h, hrename]
  rfl

namespace Stage

variable (args : Arguments) (s : Stage) (fresh : List Identifier)

/-- **The change that a demo asks for**, with the new members at hand. -/
inductive Asked : Change → Prop
  | renamed {name : String} (hname : args.rename = some name) (hnew : name ≠ args.groupName) :
      Asked (.renamed name)
  | added {ids : List Identifier} (hname : args.KeepsName) (hadd : 0 < args.add)
      (hids : Enumerates ids {id | id ∈ fresh}) (hcount : ids.length = args.add) :
      Asked (.added ids false)
  | removed {ids : List Identifier} (hname : args.KeepsName) (hadd : args.add = 0)
      (hremove : 0 < min args.remove args.spare)
      (hids : Enumerates ids {id | id ∈ s.removable args})
      (hcount : ids.length = min args.remove args.spare) : Asked (.removed ids)
  | unchanged (hname : args.KeepsName) (hadd : args.add = 0)
      (hremove : min args.remove args.spare = 0) : Asked .unchanged

/-- The members that a demo asks for. -/
def requested : List Identifier :=
  s.remaining args ++ fresh

/-- The group as it is stored at the start. -/
def stored : StoredGroup :=
  { StoredGroup.create s.group args.groupName s.members with admins := [s.admin] }

/-! ## The start -/

theorem ledgers_reachable : (s.ledgers args.groupName).Reachable :=
  (Ledgers.Reachable.empty.put (s.stored args)).add s.group s.initial

theorem get?_ledgers : (s.ledgers args.groupName).groups.get? s.group = some (s.stored args) :=
  GroupLedger.get?_put_self GroupLedger.empty rfl

/-- **The group starts with one key.** -/
theorem history_ledgers :
    (s.ledgers args.groupName).keys.history s.group = [s.initial.toRow] := by
  have hnew : s.initial.toRow ∉ KeyLedger.empty.history s.group := List.not_mem_nil
  exact KeyLedger.history_add_of_not_mem hnew

theorem latest_ledgers :
    (s.ledgers args.groupName).keys.latest s.group = .ok (some s.initial) :=
  KeyLedger.latest_of_history_eq (show _ = [] ++ [s.initial.toRow] from history_ledgers args s)

/-- At the start nobody but the members is present. -/
theorem everyone_stored : (s.stored args).everyone = {id | id ∈ s.members} := by
  ext id
  show id ∈ Roster.ofList s.members ∨ id ∈ Roster.empty ↔ id ∈ s.members
  rw [Roster.mem_ofList, or_iff_left (Roster.not_mem_empty id)]

/-! ## The change -/

section

variable {args s fresh} (hcast : s.Cast args) (hdistinct : s.Distinct args fresh)
  (hfresh : ∀ id ∈ fresh, id.Usable)

include hdistinct

include hfresh in
/-- **The new members join**, and nobody else does. -/
theorem joining_requested :
    joining {id | id ∈ s.requested args fresh} {id | id ∈ s.members} = {id | id ∈ fresh} := by
  ext id
  show ((id ∈ s.requested args fresh ∧ id ∉ s.members) ∧ id.isStandard = true) ↔ id ∈ fresh
  rw [requested, List.mem_append, mem_remaining]
  constructor
  · rintro ⟨⟨⟨hmem, -⟩ | hmem, hnot⟩, -⟩
    · exact absurd hmem hnot
    · exact hmem
  · intro hmem
    exact ⟨⟨.inr hmem, fun hthere => hdistinct.not_mem_fresh hthere hmem⟩,
      (hfresh id hmem).isStandard⟩

include hcast in
/-- **Those who are removed leave**, and nobody else does. -/
theorem leaving_requested :
    joining {id | id ∈ s.members} {id | id ∈ s.requested args fresh} =
      {id | id ∈ s.removable args} := by
  ext id
  show ((id ∈ s.members ∧ id ∉ s.requested args fresh) ∧ id.isStandard = true) ↔
    id ∈ s.removable args
  rw [requested, List.mem_append, mem_remaining]
  constructor
  · rintro ⟨⟨hmem, hnot⟩, -⟩
    by_contra hstays
    exact hnot (.inl ⟨hmem, hstays⟩)
  · intro hmem
    have hthere := mem_members.mpr (.inl (mem_others_of_mem_removable hmem))
    refine ⟨⟨hthere, ?_⟩, (hcast.usable_members id hthere).isStandard⟩
    rintro (⟨-, hnot⟩ | hnew)
    · exact hnot hmem
    · exact hdistinct.not_mem_fresh hthere hnew

include hcast hfresh in
/-- **What is asked for is what the difference is classified as.** -/
theorem asked_of_classifies (hlength : fresh.length = args.add) {snapshot : GroupSnapshot}
    {change : Change} (hclass : Change.Classifies (s.stored args) snapshot change)
    (hname : snapshot.name = args.rename.getD args.groupName)
    (hafter : snapshot.everyone = {id | id ∈ s.requested args fresh}) :
    Asked args s fresh change := by
  have hjoining : joining snapshot.everyone (s.stored args).everyone = {id | id ∈ fresh} := by
    rw [hafter, everyone_stored, joining_requested hdistinct hfresh]
  have hleaving : joining (s.stored args).everyone snapshot.everyone =
      {id | id ∈ s.removable args} := by
    rw [hafter, everyone_stored, leaving_requested hcast hdistinct]
  have hremovable := hdistinct.length_removable hcast
  have hkeeps : snapshot.name = args.groupName → args.KeepsName := fun hsame =>
    Arguments.keepsName_of_getD (hname.symm.trans hsame)
  cases hclass with
  | renamed hnew =>
    rw [hname] at hnew ⊢
    cases hrename : args.rename with
    | none => exact absurd (congrArg (Option.getD · args.groupName) hrename) hnew
    | some name => exact .renamed hrename (hrename ▸ hnew)
  | added hsame hjoin hids =>
    rw [hjoining] at hjoin hids
    have hcount := (hids.length_eq hdistinct.nodup_fresh).trans hlength
    have hsome := List.length_pos_of_ne_nil (hids.nonempty_iff.mp hjoin)
    exact .added (hkeeps hsame) (hcount ▸ hsome) hids hcount
  | removed hsame hnone hleave hids =>
    rw [hjoining] at hnone
    rw [hleaving] at hleave hids
    have hcount := (hids.length_eq hdistinct.nodup_removable).trans hremovable
    have hsome := List.length_pos_of_ne_nil (hids.nonempty_iff.mp hleave)
    have hadd := hlength.symm.trans (length_eq_zero_of_setOf_eq_empty hnone)
    exact .removed (hkeeps hsame) hadd (hcount ▸ hsome) hids hcount
  | unchanged hsame hnone hnobody =>
    rw [hjoining] at hnone
    rw [hleaving] at hnobody
    have hadd := hlength.symm.trans (length_eq_zero_of_setOf_eq_empty hnone)
    have hremove := hremovable.symm.trans (length_eq_zero_of_setOf_eq_empty hnobody)
    exact .unchanged (hkeeps hsame) hadd hremove

include hcast hfresh in
/-- **The edit makes the change that is asked for.** -/
theorem asked_changeOf (hlength : fresh.length = args.add) :
    Asked args s fresh ((s.stored args).changeOf (args.rename.getD args.groupName)
      (s.requested args fresh)) :=
  asked_of_classifies hcast hdistinct hfresh hlength (Change.classifies_between _ _) rfl
    (StoredGroup.everyone_edited _ _ _ _ _)

end

/-! ## The preconditions -/

variable {args s fresh}

/-- **Those who are removed** are neither we nor the administrator. -/
theorem Asked.not_mem_removed {change : Change} (h : s.Asked args fresh change)
    (hcast : s.Cast args) (hdistinct : s.Distinct args fresh) {ids : List Identifier}
    (hchange : change = .removed ids) : s.us ∉ ids ∧ s.admin ∉ ids := by
  cases h with
  | renamed _ _ | added _ _ _ _ | unchanged _ _ _ => cases hchange
  | removed _ _ _ hids _ =>
    cases hchange
    exact ⟨fun hmem => hdistinct.us_not_mem_removable ((hids.mem_iff _).mp hmem),
      fun hmem => hdistinct.admin_not_mem_removable hcast ((hids.mem_iff _).mp hmem)⟩

/-- Whoever is to be a member can be encrypted to. -/
theorem usable_of_mem_requested (hcast : s.Cast args) (hfresh : ∀ id ∈ fresh, id.Usable)
    {id : Identifier} (hmem : id ∈ s.requested args fresh) : id.Usable := by
  rcases List.mem_append.mp hmem with hremaining | hnew
  · exact hcast.usable_members id (mem_remaining.mp hremaining).1
  · exact hfresh id hnew

/-- **Nothing stands against what a demo asks for.** -/
theorem allowed_start (hcast : s.Cast args) (hdistinct : s.Distinct args fresh)
    (hfresh : ∀ id ∈ fresh, id.Usable) (hlength : fresh.length = args.add) :
    Service.Allowed ⟨s.us, 0⟩ (s.ledgers args.groupName) s.group (s.stored args)
      (args.rename.getD args.groupName) (s.requested args fresh) where
  stored := get?_ledgers args s
  notKeyed := by
    obtain ⟨key, hkey⟩ := Identifier.usable_iff.mp hcast.usable_group
    rw [hkey]
    rfl
  notRead := nofun
  noObjection := by
    have hasked := asked_changeOf hcast hdistinct hfresh hlength
    generalize (s.stored args).changeOf _ _ = change at hasked
    cases hchange : change with
    | renamed _ | unchanged => rfl
    | added ids withHistory =>
      have hkey := latest_ledgers args s
      exact Service.objection_added.mpr fun hnone => by cases hkey.symm.trans hnone
    | removed ids =>
      obtain ⟨hus, hadmin⟩ := hasked.not_mem_removed hcast hdistinct hchange
      refine (if_neg hus).trans (if_neg ?_)
      rintro ⟨⟨_, hprimary, hmem⟩, -⟩
      cases hprimary
      exact hadmin hmem

end Stage

end Demo

end SealedGroup
