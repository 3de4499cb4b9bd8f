import SealedGroup.Proofs.Edit.Retention

/-!
# What becomes of the administrators

The administrators of a group are meant to be members of it, but no edit sees to this. An edit
writes the members that it is given and leaves the administrators as they are, and the guard of
removals looks at the primary one alone. So a second administrator can be removed and stays an
administrator (`Service.second_administrator_left_behind`).

`Service.edits_administrators` says what holds of the groups after any number of edits, by
whomever they are made: the administrators are those of the beginning, and whoever of them is no
member was left out by the last edit that was made. The primary one is a member until the group
is emptied, unless an edit leaves it out while it gives the group a new name or adds someone.

## Runs of edits

An `EditCall` is a call together with its result, and a run is a sequence of calls over ledgers
that pass from each to the next. Everything else may differ between them: who calls, with which
registry, and in what environment. So nothing that is said of a run depends on what a single
actor keeps to themselves.

How a group stands after a run is said by `Service.Stands`, given how it was before: what its
members are is decided by the last call that edited it, what its administrators are by none. A
call that ends in an error, or edits another group, leaves it as it stands; a call that gives a
report is examined by the change that it announced. The primary administrator is the first of
those stored.
-/

namespace SealedGroup

/-- **A call of an edit**, with its result. -/
structure EditCall where
  group : Identifier
  name : String
  members : List Identifier
  result : Except ServiceError EditReport

namespace EditCall

/-- The call edited the group: it gave a report. -/
def edits (group : Identifier) (call : EditCall) : Bool :=
  call.group == group && call.result.isOk

/-- The call was announced as a new name or as an addition, whatever else it did. -/
def RenamesOrAdds (call : EditCall) : Prop :=
  ∃ report, call.result = .ok report ∧
    ((∃ newName, report.change = .renamed newName) ∨
      ∃ ids withHistory, report.change = .added ids withHistory)

/-- The last of the calls that edited the group. -/
def last? (group : Identifier) (calls : List EditCall) : Option EditCall :=
  (calls.filter (·.edits group)).getLast?

theorem last?_concat_of_edits {group : Identifier} {call : EditCall}
    (h : call.edits group = true) (calls : List EditCall) :
    last? group (calls ++ [call]) = some call := by
  unfold last?
  rw [List.filter_append, List.filter_cons_of_pos h, List.filter_nil, List.getLast?_concat]

theorem last?_concat_of_not_edits {group : Identifier} {call : EditCall}
    (h : call.edits group = false) (calls : List EditCall) :
    last? group (calls ++ [call]) = last? group calls := by
  unfold last?
  rw [List.filter_append, List.filter_cons_of_neg (ne_true_of_eq_false h), List.filter_nil,
    List.append_nil]

end EditCall

namespace Service

/-- **A run of edits** over ledgers in memory. Each call is made by whomever, with the
registry that they have, in an environment of any kind. -/
inductive Edits (start : Ledgers) : List EditCall → Ledgers → Prop where
  | nil : Edits start [] start
  | concat {calls : List EditCall} {ledgers : Ledgers} (h : Edits start calls ledgers)
      {ε : Type} {environment : Environment ε} {config : Config} {r : InFlight} {e : ε}
      {group : Identifier} {name : String} {members : List Identifier}
      {result : Except ServiceError EditReport} {world : World (Local ε)}
      (hexec : (edit (Ledgers.backend environment) config group name members).exec
        ⟨r, ⟨ledgers, e⟩⟩ = (result, world)) :
      Edits start (calls ++ [⟨group, name, members, result⟩]) world.outside.ledgers

/-- **How a group stands after some calls**, given how it was before them. -/
structure Stands (group : Identifier) (first : StoredGroup) (calls : List EditCall)
    (state : StoredGroup) : Prop where
  admins : state.admins = first.admins
  /-- The members are those that the last edit gave. -/
  members : state.members = (EditCall.last? group calls).elim first.members fun call =>
    Roster.ofList call.members
  /-- The primary administrator is a member, unless the group was emptied. -/
  primary : ∀ primary ∈ first.admins.head?, primary.isStandard = true →
    primary ∈ first.members →
      (∀ call ∈ calls, call.edits group = true → primary ∉ call.members → ¬call.RenamesOrAdds) →
        primary ∈ state.members ∨ ∃ call ∈ calls, call.edits group = true ∧ call.members = []

section

variable {ε : Type} {environment : Environment ε} {config : Config} {ledgers : Ledgers}
  {r : InFlight} {e : ε} {name : String} {members : List Identifier}
  {result : Except ServiceError EditReport} {world : World (Local ε)}
  {group : Identifier} {first state : StoredGroup} {calls : List EditCall}

/-- Who stands before any call. -/
theorem Stands.nil (group : Identifier) (first : StoredGroup) : Stands group first [] first where
  admins := rfl
  members := rfl
  primary := fun _ _ _ hmember _ => .inl hmember

/-- A call that does not edit the group leaves it as it stands. -/
theorem Stands.of_not_edits (h : Stands group first calls state) {call : EditCall}
    (hcall : call.edits group = false) : Stands group first (calls ++ [call]) state where
  admins := h.admins
  members := by
    rw [EditCall.last?_concat_of_not_edits hcall]
    exact h.members
  primary := by
    intro primary hprimary hstandard hmember hhides
    refine (h.primary primary hprimary hstandard hmember fun other hother =>
      hhides other (List.mem_append_left _ hother)).imp_right ?_
    rintro ⟨other, hother, hempty⟩
    exact ⟨other, List.mem_append_left _ hother, hempty⟩

/-- An edit that is let pass leaves the primary administrator out only if it empties the
group, or gives it a new name or adds someone. -/
theorem primary_left_out {primary : Identifier}
    (hallowed : Allowed config ledgers group state name members)
    (hprimary : primary ∈ state.admins.head?) (hstandard : primary.isStandard = true)
    (hmember : primary ∈ state.members) (hout : primary ∉ members) :
    members = [] ∨ (∃ newName, state.changeOf name members = .renamed newName) ∨
      ∃ ids withHistory, state.changeOf name members = .added ids withHistory := by
  have hpresent : primary ∈ Change.present state := Change.mem_present.mpr (.inl hmember)
  rcases state.changeOf_cases name members with ⟨_, hchange⟩ | ⟨_, ids, _, hchange, _⟩ |
    ⟨_, _, ids, _, hchange, hids⟩ | ⟨_, _, _, hkept⟩
  · exact .inr (.inl ⟨name, hchange⟩)
  · exact .inr (.inr ⟨ids, false, hchange⟩)
  · -- a removal that names the primary administrator must empty the group
    by_contra hnot
    have hobjection := hallowed.noObjection
    rw [hchange] at hobjection
    exact objection_removed ((hids primary).mpr ⟨hpresent, hout, hstandard⟩)
      (.inr ⟨hprimary, fun hempty => hnot (.inl hempty)⟩) hobjection
  · exact absurd (hkept primary hpresent hstandard) hout

/-- **What one edit of the group does to how it stands.** -/
theorem Stands.of_edits (h : Stands group first calls state) {report : EditReport}
    (hallowed : Allowed config ledgers group state name members)
    (hchange : report.change = state.changeOf name members) (activeAt : Int64) :
    Stands group first (calls ++ [⟨group, name, members, .ok report⟩])
      (state.updated (state.edited group name members activeAt)) := by
  have hedits : (⟨group, name, members, .ok report⟩ : EditCall).edits group = true := by
    unfold EditCall.edits
    rw [beq_self_eq_true]
    rfl
  have hwritten := state.members_updated_edited group name members activeAt
  refine ⟨(state.admins_updated_edited group name members activeAt).trans h.admins, ?_, ?_⟩
  · rw [EditCall.last?_concat_of_edits hedits]
    exact hwritten
  · intro primary hprimary hstandard hmember hhides
    rcases h.primary primary hprimary hstandard hmember fun other hother =>
      hhides other (List.mem_append_left _ hother) with hstill | ⟨other, hother, hempty⟩
    · by_cases hgiven : primary ∈ members
      · rw [hwritten]
        exact .inl (Roster.mem_ofList.mpr hgiven)
      · -- left out by this very edit
        have hlast : (⟨group, name, members, .ok report⟩ : EditCall) ∈
            calls ++ [⟨group, name, members, .ok report⟩] :=
          List.mem_append_right _ (List.mem_singleton.mpr rfl)
        rw [← h.admins] at hprimary
        rcases primary_left_out hallowed hprimary hstandard hstill hgiven with hempty | hhidden
        · exact .inr ⟨_, hlast, hedits, hempty⟩
        · rw [← hchange] at hhidden
          exact absurd ⟨report, rfl, hhidden⟩ (hhides _ hlast hedits hgiven)
    · exact .inr ⟨other, List.mem_append_left _ hother, hempty⟩

/-- **What one call of an edit does to how a group stands.** -/
theorem Stands.of_exec_edit (hledgers : ledgers.Reachable)
    (hstored : ledgers.groups.get? group = some state) (h : Stands group first calls state)
    {edited : Identifier}
    (hexec : (edit (Ledgers.backend environment) config edited name members).exec
      ⟨r, ⟨ledgers, e⟩⟩ = (result, world)) :
    ∃ state', world.outside.ledgers.groups.get? group = some state' ∧
      Stands group first (calls ++ [⟨edited, name, members, result⟩]) state' := by
  cases hrefusal : refusal config ledgers edited name members with
  | some error =>
    obtain ⟨e', _, hrefused⟩ := exec_edit_of_refusal environment r e hrefusal
    cases hexec.symm.trans hrefused
    exact ⟨state, hstored, h.of_not_edits (Bool.and_false _)⟩
  | none =>
    obtain ⟨current, hallowed⟩ := refusal_eq_none_iff.mp hrefusal
    obtain ⟨report, _, hok, hchange, hgroups⟩ := exec_edit_ok environment config (r := r) (e := e)
      hledgers.sound hallowed
    cases hexec.symm.trans hok
    have hid := hledgers.sound.filed hallowed.stored
    by_cases hsame : edited = group
    · subst hsame
      obtain rfl : current = state := Option.some.inj (hallowed.stored.symm.trans hstored)
      exact ⟨_, (hgroups edited).trans (Ledgers.get?_written ledgers hid),
        h.of_edits hallowed hchange _⟩
    · refine ⟨state, ?_, h.of_not_edits ?_⟩
      · rw [hgroups, Ledgers.get?_written_of_ne ledgers hid fun hgroup => hsame hgroup.symm]
        exact hstored
      · unfold EditCall.edits
        rw [beq_false_of_ne hsame, Bool.false_and]

/-- **How a group stands after a run**, by induction on the calls. -/
theorem Edits.stands {start : Ledgers} (hstart : start.Reachable)
    (hstored : start.groups.get? group = some first) (h : Edits start calls ledgers) :
    ledgers.Reachable ∧ ∃ state, ledgers.groups.get? group = some state ∧
      Stands group first calls state := by
  induction h with
  | nil => exact ⟨hstart, first, hstored, .nil group first⟩
  | concat _ hexec ih =>
    obtain ⟨hreachable, state, hstate, hstands⟩ := ih
    exact ⟨hreachable.of_exec_edit hexec, hstands.of_exec_edit hreachable hstate hexec⟩

end

/-- **The administrators stay what they are**, and whoever of them is no member of the
group was left out by its last edit. The primary one stays a member until the group is
emptied; nothing is said of it if an edit leaves it out and gives the group a new name or
adds someone. -/
theorem edits_administrators {start ledgers : Ledgers} {group : Identifier}
    {first : StoredGroup} {calls : List EditCall} (hstart : start.Reachable)
    (hstored : start.groups.get? group = some first)
    (hmembers : ∀ admin ∈ first.admins, admin ∈ first.members)
    (hedits : Edits start calls ledgers) :
    ∃ state, ledgers.groups.get? group = some state ∧ state.admins = first.admins ∧
      state.members = (EditCall.last? group calls).elim first.members (fun call =>
        Roster.ofList call.members) ∧
      (∀ admin ∈ state.admins, admin ∉ state.members ↔
        ∃ call, EditCall.last? group calls = some call ∧ admin ∉ call.members) ∧
      ∀ primary ∈ state.admins.head?, primary.isStandard = true →
        (∀ call ∈ calls, call.edits group = true → primary ∉ call.members →
          ¬call.RenamesOrAdds) →
        primary ∈ state.members ∨ ∃ call ∈ calls, call.edits group = true ∧ call.members = [] := by
  obtain ⟨_, state, hstate, hstands⟩ := hedits.stands hstart hstored
  refine ⟨state, hstate, hstands.admins, hstands.members, fun admin hadmin => ?_,
    fun primary hmem hstandard => hstands.primary primary (hstands.admins ▸ hmem) hstandard ?_⟩
  · rw [hstands.admins] at hadmin
    rw [hstands.members]
    cases EditCall.last? group calls with
    | none =>
      refine iff_of_false (fun hout => hout (hmembers admin hadmin)) ?_
      rintro ⟨call, hcall, _⟩
      cases hcall
    | some call =>
      rw [Option.elim_some, Roster.mem_ofList]
      constructor
      · intro hout
        exact ⟨call, rfl, hout⟩
      · rintro ⟨_, hcall, hout⟩
        cases hcall
        exact hout
  · rw [hstands.admins] at hmem
    exact hmembers primary (List.mem_of_mem_head? hmem)

end Service

/-! ## A second administrator -/

/-- Our group of two, of which both are administrators. -/
def StoredGroup.ofPeers : StoredGroup :=
  { StoredGroup.sample with admins := [Config.sample.account, Identifier.sample] }

/-- The ledgers with that group. -/
def Ledgers.ofPeers : Ledgers :=
  { Ledgers.empty with groups := GroupLedger.empty.put StoredGroup.ofPeers }

theorem Ledgers.get?_ofPeers :
    Ledgers.ofPeers.groups.get? StoredGroup.sample.id = some StoredGroup.ofPeers := by
  rw [show Ledgers.ofPeers.groups = GroupLedger.empty.put StoredGroup.ofPeers from rfl,
    GroupLedger.get?_put]
  exact if_pos rfl

namespace Service

/-- We may remove the other one. -/
theorem edits_ofPeers :
    ∃ report ledgers, Edits Ledgers.ofPeers
      [⟨StoredGroup.sample.id, "friends", [Config.sample.account], .ok report⟩] ledgers := by
  have hallowed : Allowed Config.sample Ledgers.ofPeers StoredGroup.sample.id StoredGroup.ofPeers
      "friends" [Config.sample.account] :=
    ⟨Ledgers.get?_ofPeers, by decide, by decide, by decide +kernel⟩
  obtain ⟨report, world, hexec, _⟩ := exec_edit_ok Environment.still Config.sample
    (r := InFlight.empty) (e := ()) (Ledgers.Reachable.empty.put StoredGroup.ofPeers).sound hallowed
  exact ⟨report, _, Edits.nil.concat hexec⟩

/-- The primary one of two peers stays a member after removing the other, who stays an
administrator. -/
theorem edits_administrators_of_peers :
    ∃ report ledgers state, Edits Ledgers.ofPeers
        [⟨StoredGroup.sample.id, "friends", [Config.sample.account], .ok report⟩] ledgers ∧
      ledgers.groups.get? StoredGroup.sample.id = some state ∧
      state.admins = [Config.sample.account, Identifier.sample] ∧
      Config.sample.account ∈ state.members ∧ Identifier.sample ∉ state.members := by
  obtain ⟨report, ledgers, hedits⟩ := edits_ofPeers
  obtain ⟨state, hstate, hadmins, _, hout, hprimary⟩ := edits_administrators
    (Ledgers.Reachable.empty.put StoredGroup.ofPeers) Ledgers.get?_ofPeers (by decide +kernel)
      hedits
  have hfirst : Config.sample.account ∈ state.admins.head? := by
    rw [hadmins]
    rfl
  have hsecond : Identifier.sample ∈ state.admins := by
    rw [hadmins]
    exact List.mem_cons_of_mem _ List.mem_cons_self
  refine ⟨report, ledgers, state, hedits, hstate, hadmins, ?_, ?_⟩
  · -- the one call lists the primary administrator, and does not empty the group
    refine (hprimary _ hfirst (by decide +kernel) fun call hcall _ hnot => ?_).resolve_right ?_
    · rw [List.mem_singleton.mp hcall] at hnot
      exact absurd (List.mem_singleton.mpr rfl) hnot
    · rintro ⟨call, hcall, _, hempty⟩
      rw [List.mem_singleton.mp hcall] at hempty
      cases hempty
  · have hleft : Identifier.sample ∉ [Config.sample.account] := by decide +kernel
    exact (hout _ hsecond).mpr ⟨_, rfl, hleft⟩

/-- **A second administrator is left behind**: both administrators of our group are members
of it, and after we removed the other one there is a member left, and an administrator who
is none. -/
theorem second_administrator_left_behind :
    Ledgers.ofPeers.Reachable ∧
      Ledgers.ofPeers.groups.get? StoredGroup.sample.id = some StoredGroup.ofPeers ∧
      StoredGroup.ofPeers.isLegacy = true ∧
      (∀ admin ∈ StoredGroup.ofPeers.admins, admin ∈ StoredGroup.ofPeers.members) ∧
      ∃ report ledgers state, Edits Ledgers.ofPeers
          [⟨StoredGroup.sample.id, "friends", [Config.sample.account], .ok report⟩] ledgers ∧
        ledgers.groups.get? StoredGroup.sample.id = some state ∧
        state.members ≠ Roster.empty ∧
        ¬∀ admin ∈ state.admins, admin ∈ state.members := by
  have hreachable : Ledgers.ofPeers.Reachable := Ledgers.Reachable.empty.put StoredGroup.ofPeers
  obtain ⟨report, ledgers, hedits⟩ := edits_ofPeers
  obtain ⟨_, state, hstate, hstands⟩ := hedits.stands hreachable Ledgers.get?_ofPeers
  have hmembers : state.members = Roster.ofList [Config.sample.account] := hstands.members
  refine ⟨hreachable, Ledgers.get?_ofPeers, by decide, by decide +kernel, report, ledgers, state,
    hedits, hstate, ?_, fun hall => ?_⟩
  · rw [hmembers]
    decide +kernel
  · have hsecond : Identifier.sample ∈ state.members := hall _ <| by
      rw [hstands.admins]
      exact List.mem_cons_of_mem _ List.mem_cons_self
    rw [hmembers, Roster.mem_ofList] at hsecond
    exact absurd hsecond (by decide +kernel)

end Service

end SealedGroup
