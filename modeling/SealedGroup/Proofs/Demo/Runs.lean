import SealedGroup.Proofs.Demo.Request
import SealedGroup.Proofs.Edit.Rekeying
import SealedGroup.Proofs.Service.Recording

/-!
# Runs of the demo

A run of the demo does what it is asked for, whatever the arguments are: the edit is never
refused, its report is on the change that was asked for, and the group has a new key exactly if
someone was removed by us as the administrator, and messages arrive (`Demo.run_does_as_asked`).

This needs some luck with the random draws (`Demo.Fresh`): no account may be drawn twice, and
the key that the group starts with may not be drawn again. Of the source of the draws nothing
else is asked. It may be any stream of blocks (`Entropy`), a hash that is fed with a counter or
the counter itself, as in the example.

## The rehearsal

Which keys a run draws is told by its *rehearsal*, the same edit in an environment that keeps a
record of what it is asked for. The record changes nothing (`Demo.run_of_rehearsal`), and so a
run and its rehearsal end alike; but in the world after the rehearsal the drawn secrets can be
looked up, and the condition on the draws is said of them.

A run has its messages delivered by a desk that is either open or failing throughout. Such an
environment is steady (`Desk.steady`), so it can be told beforehand which edits replace the key.
That everyone who takes part can be encrypted to is a matter of how accounts are drawn, and no
luck is needed for it.
-/

namespace SealedGroup

/-- A source whose blocks are their own numbers. -/
def Entropy.counting : Entropy := ⟨Bytes.ofNat 8, 0⟩

namespace Demo

/-- **The desk is steady**: messages arrive unless sends are disabled. -/
theorem Desk.steady : Desk.environment.Steady fun desk => desk.failing = false where
  now := fun _ => Iff.rfl
  drawUuid := fun _ => Iff.rfl
  drawSecret := fun _ => Iff.rfl
  drawCoins := fun _ => Iff.rfl
  send := fun dispatch desk => by
    show (Desk.present dispatch desk).2.failing = false ↔ _
    unfold Desk.present
    split <;> exact Iff.rfl
  arrives := fun dispatch desk => by
    obtain ⟨entropy, time, failing, sent⟩ := desk
    cases failing with
    | false => exact ⟨fun _ => rfl, fun _ => ⟨_, rfl⟩⟩
    | true =>
      constructor
      · rintro ⟨_, hanswer⟩
        cases hanswer
      · nofun
  idle := fun _ _ _ => rfl

section

variable (args : Arguments) (entropy : Entropy) (time : Int64)

/-- Those who take part in a run. -/
def players : Stage :=
  ((stage args).run entropy).1

/-- The new members of a run. -/
def newcomers : List Identifier :=
  ((accounts args.add).run ((stage args).run entropy).2).1

/-- The desk once all accounts are drawn. -/
def openingDesk : Desk :=
  ⟨((accounts args.add).run ((stage args).run entropy).2).2, time, args.failSends, []⟩

/-- **The edit of a run with a record** of what it asks for. -/
def rehearsal : Except ServiceError EditReport × World (Local (Recorded Desk)) :=
  let s := players args entropy
  (Service.edit (Ledgers.backend Desk.environment.recorded) ⟨s.us, 0⟩ s.group
    (args.rename.getD args.groupName) (s.requested args (newcomers args entropy))).exec
      ⟨InFlight.empty, s.ledgers args.groupName, .start (openingDesk args entropy time)⟩

/-- **Luck with the random draws** of a run: the accounts are different ones, and the key that the
group starts with is not drawn again. -/
structure Fresh : Prop where
  accounts : (players args entropy).Distinct args (newcomers args entropy)
  keys : (players args entropy).initial.secret ∉
    (rehearsal args entropy time).2.outside.environment.secrets

end

variable {args : Arguments} {entropy : Entropy} {time : Int64}

/-- **The rehearsal is like the run.** -/
theorem run_of_rehearsal {result : Except ServiceError EditReport}
    {after : World (Local (Recorded Desk))}
    (h : rehearsal args entropy time = (result, after)) :
    run args entropy time = ⟨players args entropy,
      after.outside.environment.inner.sent.reverse, result, after.outside.ledgers⟩ := by
  have hedit := Service.exec_edit_forget (Stage.ledgers_reachable args _).sound h
  exact congrArg (fun ran : Except ServiceError EditReport × World (Local Desk) =>
    (⟨players args entropy, ran.2.outside.environment.sent.reverse, ran.1,
      ran.2.outside.ledgers⟩ : Result)) hedit

/-- **Who may give the group a new key**: whoever acts as its administrator. -/
theorem Stage.us_mem_admins_iff {s : Stage} {fresh : List Identifier} (hcast : s.Cast args)
    (hdistinct : s.Distinct args fresh) : s.us ∈ (s.stored args).admins ↔ args.role = .admin := by
  show s.us ∈ [s.admin] ↔ _
  rw [List.mem_singleton]
  cases hrole : args.role with
  | admin => exact ⟨fun _ => rfl, fun _ => (hcast.admin_eq_us hrole).symm⟩
  | member => exact ⟨fun heq => absurd heq.symm (hdistinct.admin_ne_us hcast hrole), nofun⟩

/-- **The edit gives a report** on what is asked for, and stores the members asked for. -/
theorem exists_report_of_rehearsal (time : Int64)
    (hdistinct : (players args entropy).Distinct args (newcomers args entropy)) :
    ∃ report after state, rehearsal args entropy time = (.ok report, after) ∧
      (players args entropy).Asked args (newcomers args entropy) report.change ∧
      after.outside.ledgers.groups.get? (players args entropy).group = some state ∧
      state.name = args.rename.getD args.groupName ∧
      ∀ id, id ∈ state.members ↔
        id ∈ (players args entropy).remaining args ∨ id ∈ newcomers args entropy := by
  have hcast : (players args entropy).Cast args := cast_stage args entropy
  have hlength : (newcomers args entropy).length = args.add := length_accounts args.add _
  have husable : ∀ id ∈ newcomers args entropy, id.Usable := fun _ => usable_of_mem_accounts
  obtain ⟨report, after, hexec, hchange, hgroups⟩ := Service.exec_edit_ok
    Desk.environment.recorded _ (r := InFlight.empty) (e := .start (openingDesk args entropy time))
    (Stage.ledgers_reachable args _).sound
    (Stage.allowed_start hcast hdistinct husable hlength)
  have hasked := Stage.asked_changeOf hcast hdistinct husable hlength
  rw [← hchange] at hasked
  refine ⟨report, after, _, hexec, hasked, (hgroups _).trans (Ledgers.get?_written _ rfl), rfl,
    fun id => ?_⟩
  rw [StoredGroup.members_updated_edited, Roster.mem_ofList, Stage.requested, List.mem_append]

/-- **What becomes of the key of the group.** -/
theorem exists_latest_of_rehearsal (hfresh : Fresh args entropy time) {report : EditReport}
    {after : World (Local (Recorded Desk))}
    (h : rehearsal args entropy time = (.ok report, after)) :
    ∃ pair, after.outside.ledgers.keys.latest (players args entropy).group = .ok (some pair) ∧
      (pair ≠ (players args entropy).initial ↔
        (∃ ids, report.change = .removed ids) ∧ args.role = .admin ∧ args.failSends = false) := by
  obtain ⟨hdistinct, hkeys⟩ := hfresh
  rw [h] at hkeys
  have hcast : (players args entropy).Cast args := cast_stage args entropy
  have husable : ∀ id ∈ (players args entropy).requested args (newcomers args entropy),
      id.Usable :=
    fun _ => Stage.usable_of_mem_requested hcast fun _ => usable_of_mem_accounts
  obtain ⟨current, hstored, hrekeys⟩ := Service.rekeys_edit Desk.steady _
    (Stage.ledgers_reachable args _).sound h
  cases hstored.symm.trans (Stage.get?_ledgers args _)
  dsimp only at hrekeys
  rw [Stage.us_mem_admins_iff hcast hdistinct, and_iff_left husable,
    and_comm (a := _ = false)] at hrekeys
  by_cases hready : (∃ ids, report.change = .removed ids) ∧ args.role = .admin ∧
      args.failSends = false
  · -- the group has had one key so far
    have hnew : ∀ secret ∈ after.outside.environment.secrets, ∀ earlier : KeyPair,
        earlier.toRow ∈ ((players args entropy).ledgers args.groupName).keys.history
          (players args entropy).group → earlier.secret ≠ secret := by
      rintro secret hdrawn earlier hearlier rfl
      rw [Stage.history_ledgers, List.mem_singleton, KeyPair.toRow_inj] at hearlier
      exact hkeys (hearlier ▸ hdrawn)
    obtain ⟨pair, hdrawn, hlatest⟩ := hrekeys.exists_latest hready hnew
    refine ⟨pair, hlatest, iff_of_true ?_ hready⟩
    rintro rfl
    exact hkeys hdrawn
  · have hlatest := (hrekeys.latest_eq hready).trans (Stage.latest_ledgers args _)
    exact ⟨_, hlatest, iff_of_false (fun hne => hne rfl) hready⟩

/-- **A run of the demo does what it is asked for.** If no account is drawn twice, and the first
key of the group is not drawn again, the edit is not refused, whatever the arguments. Its report
is on a new name if another one is given; or else on as many new members as are to be added, if
any are; or else on the removal of as many of the others as are to be removed and can be spared,
if any can; and otherwise nothing has changed. The members are then those asked for: we are still
among them, and so is the administrator, and neither is reported as removed. The latest key of
the group is another one than at the start exactly if a removal is reported, we act as the
administrator, and sends are not disabled. -/
theorem run_does_as_asked (hfresh : Fresh args entropy time) {result : Result}
    (hrun : run args entropy time = result) :
    ∃ report state pair, result.report = .ok report ∧
      result.stage.Asked args (newcomers args entropy) report.change ∧
      (∀ ids, report.change = .removed ids →
        result.stage.us ∉ ids ∧ result.stage.admin ∉ ids) ∧
      result.ledgers.groups.get? result.stage.group = some state ∧
      state.name = args.rename.getD args.groupName ∧
      (∀ id, id ∈ state.members ↔
        id ∈ result.stage.remaining args ∨ id ∈ newcomers args entropy) ∧
      result.stage.us ∈ state.members ∧
      (result.stage.admin ∈ result.stage.members → result.stage.admin ∈ state.members) ∧
      result.ledgers.keys.latest result.stage.group = .ok (some pair) ∧
      (pair ≠ result.stage.initial ↔
        (∃ ids, report.change = .removed ids) ∧ args.role = .admin ∧ args.failSends = false) := by
  have hcast : (players args entropy).Cast args := cast_stage args entropy
  have hdistinct := hfresh.accounts
  obtain ⟨report, after, state, hrehearsed, hasked, hstored, hname, hmembers⟩ :=
    exists_report_of_rehearsal time hdistinct
  obtain ⟨pair, hlatest, hpair⟩ := exists_latest_of_rehearsal hfresh hrehearsed
  have hus : (players args entropy).us ∈ (players args entropy).remaining args :=
    Stage.mem_remaining.mpr ⟨Stage.us_mem_members, hdistinct.us_not_mem_removable⟩
  have hadmin : (players args entropy).admin ∈ (players args entropy).members →
      (players args entropy).admin ∈ (players args entropy).remaining args := fun hmember =>
    Stage.mem_remaining.mpr ⟨hmember, hdistinct.admin_not_mem_removable hcast⟩
  cases hrun.symm.trans (run_of_rehearsal hrehearsed)
  exact ⟨report, state, pair, rfl, hasked, fun ids => hasked.not_mem_removed hcast hdistinct,
    hstored, hname, hmembers, (hmembers _).mpr (.inl hus),
    fun hmember => (hmembers _).mpr (.inl (hadmin hmember)), hlatest, hpair⟩

/-- Asked to remove more members than there are besides us, the administrator, a run removes the
only one, and the group has a new key. -/
theorem run_does_as_asked_of_removal :
    let args : Arguments := { Arguments.default with members := 1, remove := 5 }
    let result := run args .counting 0
    Fresh args .counting 0 ∧ ∃ report ids pair, result.report = .ok report ∧
      report.change = .removed ids ∧ ids.length = 1 ∧
      result.ledgers.keys.latest result.stage.group = .ok (some pair) ∧
      pair ≠ result.stage.initial := by
  intro args result
  have hdraws : (players args .counting).Distinct args (newcomers args .counting) ∧
      (players args .counting).initial.secret ∉
        (rehearsal args .counting 0).2.outside.environment.secrets := by decide +kernel
  have hfresh : Fresh args .counting 0 := ⟨hdraws.1, hdraws.2⟩
  obtain ⟨report, _, pair, hreport, hasked, -, -, -, -, -, -, hlatest, hpair⟩ :=
    run_does_as_asked hfresh (show _ = result from rfl)
  refine ⟨hfresh, report, ?_⟩
  rw [hreport]
  generalize report.change = change at hasked hpair ⊢
  cases hasked with
  | renamed hname _ => cases hname
  | added _ hadd _ _ => cases hadd
  | unchanged _ _ hremove => cases hremove
  | removed _ _ _ _ hcount =>
    exact ⟨_, pair, rfl, rfl, hcount, hlatest, hpair.mpr ⟨⟨_, rfl⟩, rfl, rfl⟩⟩

end Demo

end SealedGroup
