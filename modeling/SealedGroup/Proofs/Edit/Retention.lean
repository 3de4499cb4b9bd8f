import SealedGroup.Proofs.Edit.Announcement
import SealedGroup.Proofs.Edit.Classes

/-!
# Who is dropped by an edit

We must not drop ourselves from a group by an edit, nor its primary administrator unless nobody
is left. The guard that is to see to this looks at the change that the edit is announced as,
while the roster is written as it was given. So it holds for a removal, and it is blind for whom
a new name or an addition hides: `Service.edit_drops_iff_hidden` says that these are exactly the
edits by which such a member is lost.

## Guarded members

Those who are guarded are ourselves and the first of the stored administrators. Nobody who is
guarded can be dropped by an edit that is announced as a removal: it would name them, and the
guard objects (`Service.objection_removed`). An edit that is announced as something else names
nobody whom it drops, and there is nothing for the guard to see (`Service.Hides`).

A new name hides everything, and an addition hides removals; an addition is itself refused as
long as the group has no key for those who are new. Since the classes exclude one another, these
are all the ways to hide a removal, and the condition is exact: an edit of a legacy group that
leaves a guarded member out either is refused or hides it, unless the messages of the group
expire after reading, where no edit is made.
-/

namespace SealedGroup

namespace Service

variable {ε : Type} {config : Config} {ledgers : Ledgers} {current : StoredGroup}
  {name : String} {members : List Identifier}

/-- **The edit hides whom it removes**: it gives the group a new name, or it adds
someone to a group that has a key. -/
def Hides (ledgers : Ledgers) (current : StoredGroup) (name : String)
    (members : List Identifier) : Prop :=
  name ≠ current.name ∨
    (∃ id ∈ members, id ∉ Change.present current ∧ id.isStandard = true) ∧
      ledgers.keys.latest current.id ≠ .ok none

/-- An addition meets no objection exactly if the group has a key. -/
theorem objection_added {ids : List Identifier} {withHistory : Bool} :
    objection config ledgers current members (.added ids withHistory) = none ↔
      ledgers.keys.latest current.id ≠ .ok none := by
  unfold objection
  dsimp only
  split
  · next hlatest => exact ⟨nofun, fun h => absurd hlatest h⟩
  · next hlatest => exact ⟨fun _ h => hlatest h, fun _ => rfl⟩

/-- A removal that names us, or the primary administrator among others, meets
an objection. -/
theorem objection_removed {ids : List Identifier} {id : Identifier} (hmem : id ∈ ids)
    (hguarded : id = config.account ∨ id ∈ current.admins.head? ∧ members ≠ []) :
    objection config ledgers current members (.removed ids) ≠ none := by
  unfold objection
  dsimp only
  by_cases hself : config.account ∈ ids
  · rw [if_pos hself]
    exact nofun
  · rw [if_neg hself]
    rcases hguarded with rfl | ⟨hprimary, hmembers⟩
    · exact absurd hmem hself
    · rw [if_pos ⟨⟨id, hprimary, hmem⟩, hmembers⟩]
      exact nofun

/-- **An edit that drops a guarded member** meets no objection exactly if it
hides this. -/
theorem objection_eq_none_iff_hides {id : Identifier} (hstandard : id.isStandard = true)
    (hmember : id ∈ current.members) (hdropped : id ∉ members)
    (hguarded : id = config.account ∨ id ∈ current.admins.head? ∧ members ≠ []) :
    objection config ledgers current members (current.changeOf name members) = none ↔
      Hides ledgers current name members := by
  have hpresent : id ∈ Change.present current := Change.mem_present.mpr (.inl hmember)
  rcases current.changeOf_cases name members with ⟨hname, hchange⟩ |
    ⟨hname, ids, hne, hchange, hids⟩ | ⟨hname, hold, ids, _, hchange, hids⟩ |
    ⟨_, _, _, hkept⟩
  · rw [hchange]
    exact ⟨fun _ => .inl hname, fun _ => rfl⟩
  · obtain ⟨newcomer, hnewcomer⟩ := List.exists_mem_of_ne_nil ids hne
    obtain ⟨hmem, hnot, hstd⟩ := (hids newcomer).mp hnewcomer
    rw [hchange, objection_added]
    refine ⟨fun hlatest => .inr ⟨⟨newcomer, hmem, hnot, hstd⟩, hlatest⟩, ?_⟩
    rintro (hrenamed | ⟨_, hlatest⟩)
    · exact absurd hname hrenamed
    · exact hlatest
  · rw [hchange]
    refine ⟨fun hnone => absurd hnone (objection_removed ((hids id).mpr
      ⟨hpresent, hdropped, hstandard⟩) hguarded), ?_⟩
    rintro (hrenamed | ⟨⟨newcomer, hmem, hnot, hstd⟩, _⟩)
    · exact absurd hname hrenamed
    · exact absurd (hold newcomer hmem hstd) hnot
  · exact absurd (hkept id hpresent hstandard) hdropped

variable (environment : Environment ε) {group : Identifier} {r : InFlight} {e : ε}
  {result : Except ServiceError EditReport} {world : World (Local ε)}

/-- After an edit the group has the members that were given. -/
theorem members_of_exec_edit (hsound : ledgers.Sound) {report : EditReport} {state : StoredGroup}
    (hexec : (edit (Ledgers.backend environment) config group name members).exec
      ⟨r, ⟨ledgers, e⟩⟩ = (.ok report, world))
    (hstate : world.outside.ledgers.groups.get? group = some state) :
    state.members = Roster.ofList members := by
  obtain ⟨current, hallowed, _, hgroups⟩ := allowed_of_exec_edit environment config hsound hexec
  rw [hgroups, Ledgers.get?_written ledgers (hsound.filed hallowed.stored)] at hstate
  cases hstate
  exact current.members_updated_edited group name members (environment.now e).1

/-- **When an edit drops a guarded member.** -/
theorem edit_drops_guarded (hsound : ledgers.Sound)
    (hstored : ledgers.groups.get? group = some current) (hlegacy : current.isLegacy = true)
    (hexec : (edit (Ledgers.backend environment) config group name members).exec
      ⟨r, ⟨ledgers, e⟩⟩ = (result, world))
    {id : Identifier} (hstandard : id.isStandard = true)
    (hguarded : id = config.account ∨ id ∈ current.admins.head? ∧ members ≠ []) :
    ((∃ report, result = .ok report) ∧ id ∈ current.members ∧
      ∃ state, world.outside.ledgers.groups.get? group = some state ∧ id ∉ state.members) ↔
    (¬(current.mode = .deleteAfterRead ∧ current.timer ≠ 0) ∧ id ∈ current.members ∧
      id ∉ members ∧ Hides ledgers current name members) := by
  have hid : current.id = group := hsound.filed hstored
  have hkeyed := hsound.not_isKeyed hstored hlegacy
  constructor
  · rintro ⟨⟨report, rfl⟩, hmember, state, hstate, hdropped⟩
    have hgiven : id ∉ members := by
      rwa [members_of_exec_edit environment hsound hexec hstate, Roster.mem_ofList] at hdropped
    obtain ⟨hallowed, _⟩ := allowed_of_stored environment config hsound hstored hexec
    exact ⟨hallowed.notRead, hmember, hgiven,
      (objection_eq_none_iff_hides hstandard hmember hgiven hguarded).mp hallowed.noObjection⟩
  · -- nothing else stands in the way of an edit that hides the removal
    rintro ⟨hread, hmember, hgiven, hhides⟩
    have hallowed : Allowed config ledgers group current name members :=
      ⟨hstored, hkeyed, hread,
        (objection_eq_none_iff_hides hstandard hmember hgiven hguarded).mpr hhides⟩
    obtain ⟨report, _, hok, _, hgroups⟩ := exec_edit_ok environment config (r := r) (e := e)
      hsound hallowed
    cases hexec.symm.trans hok
    refine ⟨⟨report, rfl⟩, hmember, _, (hgroups group).trans (Ledgers.get?_written ledgers hid), ?_⟩
    rwa [StoredGroup.members_updated_edited, Roster.mem_ofList]

/-- **Just the edits that hide it drop us or the primary administrator.** An edit
of a legacy group loses us as a member exactly if it does not list us and hides
this, whatever else it does, unless the messages of the group expire after
reading; and it loses the primary administrator, with others left in the group,
under the same condition. -/
theorem edit_drops_iff_hidden (hledgers : ledgers.Reachable)
    (hstored : ledgers.groups.get? group = some current) (hlegacy : current.isLegacy = true)
    (haccount : config.account.isStandard = true)
    (hprimary : ∀ primary ∈ current.admins.head?, primary.isStandard = true)
    (hexec : (edit (Ledgers.backend environment) config group name members).exec
      ⟨r, ⟨ledgers, e⟩⟩ = (result, world)) :
    (((∃ report, result = .ok report) ∧ config.account ∈ current.members ∧
        ∃ state, world.outside.ledgers.groups.get? group = some state ∧
          config.account ∉ state.members) ↔
      (¬(current.mode = .deleteAfterRead ∧ current.timer ≠ 0) ∧
        config.account ∈ current.members ∧ config.account ∉ members ∧
          Hides ledgers current name members)) ∧
    ∀ primary ∈ current.admins.head?,
      (((∃ report, result = .ok report) ∧ primary ∈ current.members ∧
          ∃ state, world.outside.ledgers.groups.get? group = some state ∧
            primary ∉ state.members ∧ state.members ≠ Roster.empty) ↔
        (¬(current.mode = .deleteAfterRead ∧ current.timer ≠ 0) ∧
          primary ∈ current.members ∧ primary ∉ members ∧ members ≠ [] ∧
            Hides ledgers current name members)) := by
  refine ⟨edit_drops_guarded environment hledgers.sound hstored hlegacy hexec haccount (.inl rfl),
    fun primary hmem => ⟨?_, ?_⟩⟩
  · rintro ⟨⟨report, rfl⟩, hmember, state, hstate, hdropped, hrest⟩
    rw [members_of_exec_edit environment hledgers.sound hexec hstate] at hrest
    have hmembers : members ≠ [] := by
      rintro rfl
      exact hrest rfl
    obtain ⟨hread, _, hgiven, hhides⟩ := (edit_drops_guarded environment hledgers.sound hstored
      hlegacy hexec (hprimary primary hmem) (.inr ⟨hmem, hmembers⟩)).mp
        ⟨⟨report, rfl⟩, hmember, state, hstate, hdropped⟩
    exact ⟨hread, hmember, hgiven, hmembers, hhides⟩
  · rintro ⟨hread, hmember, hgiven, hmembers, hhides⟩
    obtain ⟨⟨report, rfl⟩, _, state, hstate, hdropped⟩ := (edit_drops_guarded environment
      hledgers.sound hstored hlegacy hexec (hprimary primary hmem) (.inr ⟨hmem, hmembers⟩)).mpr
        ⟨hread, hmember, hgiven, hhides⟩
    refine ⟨⟨report, rfl⟩, hmember, state, hstate, hdropped, fun hempty => hmembers ?_⟩
    rw [members_of_exec_edit environment hledgers.sound hexec hstate] at hempty
    exact Roster.toList_ofList_eq_nil.mp (congrArg Roster.toList hempty)

/-- Whoever gives a group a new name may leave themselves out, and is gone. -/
theorem edit_drops_iff_hidden_of_rename :
    ∃ report world, (edit (Ledgers.backend Environment.still) Config.sample StoredGroup.sample.id
        "strangers" [Identifier.sample]).exec ⟨InFlight.empty, ⟨Ledgers.sample, ()⟩⟩ =
          (.ok report, world) ∧
      Config.sample.account ∈ StoredGroup.sample.members ∧
      ∃ state, world.outside.ledgers.groups.get? StoredGroup.sample.id = some state ∧
        Config.sample.account ∉ state.members := by
  have hexec : (edit (Ledgers.backend Environment.still) Config.sample StoredGroup.sample.id
      "strangers" [Identifier.sample]).exec ⟨InFlight.empty, ⟨Ledgers.sample, ()⟩⟩ = (_, _) := rfl
  obtain ⟨hus, _⟩ := edit_drops_iff_hidden Environment.still Ledgers.sample_reachable
    Ledgers.get?_sample (by decide) (by decide +kernel) (by decide +kernel) hexec
  obtain ⟨⟨report, hok⟩, hdropped⟩ := hus.mpr
    ⟨by decide, by decide +kernel, by decide +kernel, .inl (by decide)⟩
  exact ⟨report, _, Prod.ext hok rfl, hdropped⟩

end Service

end SealedGroup
