import SealedGroup.Proofs.Edit.Classification
import SealedGroup.Proofs.Edit.Removal
import SealedGroup.Proofs.Edit.Silence

/-!
# Who is invited

An edit that adds someone sends one message to the group, which lists whoever is new, and then
hands each of them the group and its key (`Service.Welcomes`). Whoever is new was not present
before; but zombies are present. So a zombie who becomes a member again is not new, and hears
nothing of it (`Service.zombie_returns_uninvited`).

`Service.newcomers_are_invited` says that of all who become members by an edit that keeps the
name just the zombies are not invited.

## What an invitation holds

An invitation hands a group over if it has all that it takes to be a member
(`Message.HandsOver`): the name of the group, its members in ascending order, its
administrators, and the two byte strings of the pair. The group is the one that the edit stores,
with the new members in it, and the pair is the latest one in the ledger. An addition changes no
key, so whoever is invited has the one that the other members have.

## Who hears of it

A message is about someone in two ways. It may be for them alone, as an invitation is; or it may
list them as new, as the message to the group does. Someone is invited if there is one message
of each kind about them (`Service.Invited`), and a message passes someone over if it is of
neither kind (`Service.PassesOver`). Both are said of all the messages that an edit sends, those
of a removal and its rotation included, so that whoever was passed over was passed over by the
whole edit.
-/

namespace SealedGroup

/-- Whoever is added is listed once. -/
theorem StoredGroup.nodup_of_changeOf_added {current : StoredGroup} {name : String}
    {members ids : List Identifier} {withHistory : Bool}
    (h : current.changeOf name members = .added ids withHistory) : ids.Nodup := by
  have hclass : Change.Classifies current (current.edited current.id name members 0)
      (.added ids withHistory) := h ▸ Change.classifies_between _ _
  cases hclass with
  | added _ _ hids =>
    refine List.Pairwise.imp ?_ hids.ascending
    rintro id _ hlt rfl
    exact Identifier.lt_irrefl id hlt

/-- **A message hands a group over**: it is an invitation with all that it takes to be a member,
the name of the group, its members in ascending order, its administrators, and the two byte strings
of the pair. -/
def Message.HandsOver (message : Message) (state : StoredGroup) (pair : KeyPair) : Prop :=
  ∃ listed raw, message.body = .invitation state.name listed state.admins raw ∧
    Identifier.Enumerates listed {id | id ∈ state.members} ∧ raw.Carries pair

namespace Service

/-! ## What an addition sends -/

/-- **New members are welcomed to a group**: a message to the group lists them, and one to each
of them alone hands the group over. -/
def Welcomes (state : StoredGroup) (ids : List Identifier) (pair : KeyPair)
    (dispatches : List Dispatch) : Prop :=
  ∃ announcement invitation : Message, announcement.body = .addition ids ∧
    invitation.HandsOver state pair ∧
    dispatches = ⟨.group state.id, announcement, .legacyGroup⟩ ::
      ids.map fun id => ⟨.member id, invitation, .direct⟩

variable {ε : Type} (environment : Environment ε) (config : Config) {r : InFlight}
  {ledgers : Ledgers} {e : Recorded ε} {current : StoredGroup} {members ids : List Identifier}
  {pair : KeyPair}

/-- Messages are handed to the transport one after the other. -/
theorem exec_deliverAll (ledgers : Ledgers) (dispatches : List Dispatch) (r : InFlight)
    (e : Recorded ε) :
    ∃ records sent r' e', (deliverAll (Ledgers.backend environment.recorded) dispatches).exec
        ⟨r, ⟨ledgers, e⟩⟩ = (.ok records, ⟨r', ⟨ledgers, e'⟩⟩) ∧
      e'.sends = e.sends ++ sent ∧ sent.map Prod.fst = dispatches := by
  induction dispatches generalizing r e with
  | nil => exact ⟨[], [], r, e, rfl, (List.append_nil _).symm, rfl⟩
  | cons dispatch rest ih =>
    rcases hsent : environment.recorded.transmit dispatch r e with ⟨answer, r', e'⟩
    obtain ⟨records, sent, r'', e'', hexec, hsends, hrest⟩ := ih r' e'
    refine ⟨.ofResult dispatch answer :: records, (dispatch, answer) :: sent, r'', e'', ?_, ?_, ?_⟩
    · unfold deliverAll
      rw [Act.exec_bind_of_ok (exec_deliver environment.recorded hsent),
        Act.exec_bind_of_ok hexec]
      rfl
    · rw [hsends, (Environment.transmit_recorded hsent).1, List.append_assoc]
      rfl
    · rw [List.map_cons, hrest]

/-- What an invitation says for a snapshot with the same administrators hands the group over as
the snapshot makes it. -/
theorem handsOver_of_body {message : Message} {snapshot : GroupSnapshot}
    (hbody : message.body =
      .invitation snapshot.name snapshot.members current.admins pair.toRaw)
    (hmembers : snapshot.members.Pairwise (· < ·)) (hadmins : snapshot.admins = current.admins) :
    message.HandsOver (current.updated snapshot) pair := by
  have hkept : (current.updated snapshot).admins = current.admins := by
    unfold StoredGroup.updated
    rw [hadmins]
    exact ite_self current.admins
  rw [← hkept] at hbody
  exact ⟨snapshot.members, pair.toRaw, hbody, ⟨hmembers, fun _ => Roster.mem_ofList.symm⟩,
    RawPair.carries_toRaw pair⟩

/-- **The announcement of an addition** welcomes whoever is new. -/
theorem exec_announceAddition (ledgers : Ledgers) (ids : List Identifier) (pair : KeyPair)
    {snapshot : GroupSnapshot} (hmembers : snapshot.members.Pairwise (· < ·))
    (hadmins : snapshot.admins = current.admins) (identifier : String) :
    ∃ records sent r' e', (announceAddition (Ledgers.backend environment.recorded) config current
        snapshot ids pair identifier).exec ⟨r, ⟨ledgers, e⟩⟩ =
          (.ok records, ⟨r', ⟨ledgers, e'⟩⟩) ∧
      e'.sends = e.sends ++ sent ∧
      Welcomes (current.updated snapshot) ids pair (sent.map Prod.fst) := by
  unfold announceAddition
  rw [Act.exec_bind_of_ok (Ledgers.exec_networkTime environment.recorded r ledgers e config)]
  generalize hannouncement : Message.create current.id identifier
    ((environment.recorded.now e).1 + config.networkOffset) (.addition ids) = announcement
  rcases hsent : environment.recorded.transmit (.toGroup current.id announcement) r
    (environment.recorded.now e).2 with ⟨answer, r', e'⟩
  rw [Act.exec_bind_of_ok (exec_deliver environment.recorded hsent),
    Act.exec_bind_of_ok (Ledgers.exec_networkTime environment.recorded r' ledgers e' config)]
  dsimp only
  generalize hinvitation : Message.create current.id identifier
    ((environment.recorded.now e').1 + config.networkOffset) (.invitation snapshot.name
      snapshot.members current.admins pair.toRaw) = invitation
  obtain ⟨records, sent, r'', e'', hexec, hsends, hdispatches⟩ := exec_deliverAll environment
    ledgers (ids.map (.toMember · invitation)) r' (environment.recorded.now e').2
  rw [Act.exec_bind_of_ok hexec]
  refine ⟨_, (.toGroup current.id announcement, answer) :: sent, r'', e'', rfl, ?_, announcement,
    invitation, hannouncement ▸ rfl, handsOver_of_body (hinvitation ▸ rfl) hmembers hadmins, ?_⟩
  · rw [hsends, show (environment.recorded.now e').2.sends = e'.sends from rfl,
      (Environment.transmit_recorded hsent).1, List.append_assoc]
    rfl
  · rw [List.map_cons, hdispatches]
    rfl

/-- Publishing an addition welcomes whoever is new, and leaves the keys as they are. -/
theorem exec_publish_addition (current : StoredGroup) (snapshot : GroupSnapshot)
    (ids : List Identifier) (pair : KeyPair) {state : StoredGroup}
    (hstored : ledgers.groups.get? snapshot.id = some state)
    (hmembers : snapshot.members.Pairwise (· < ·)) (hadmins : snapshot.admins = current.admins)
    (withHistory : Bool) :
    ∃ report world, (publish (Ledgers.backend environment.recorded) config current snapshot
        (.added ids withHistory) (some pair)).exec ⟨r, ⟨ledgers, e⟩⟩ = (.ok report, world) ∧
      world.outside.ledgers.keys = ledgers.keys ∧
      ∃ sent, world.outside.environment.sends = e.sends ++ sent ∧
        Welcomes (current.updated snapshot) ids pair (sent.map Prod.fst) := by
  have hchange : (Change.added ids withHistory).announcement? =
      some (if withHistory then .joinedWithHistory ids else .joined ids) := if_neg nofun
  obtain ⟨notice, e', hquiet, _, _, _, _, _, hannounce, hpublish, _⟩ :=
    exec_publish_of_announcement environment.recorded config current snapshot (r := r) (e := e)
      hchange (some pair) hstored
  obtain ⟨records, sent, r', e'', haddition, hsends, hwelcomes⟩ := exec_announceAddition environment
    config (r := r) (e := e') { ledgers with groups := ledgers.groups.append notice } ids pair
    hmembers hadmins notice.id
  unfold announce at hannounce
  dsimp only at hannounce
  rw [Act.exec_bind_of_ok haddition] at hannounce
  cases hannounce
  refine ⟨_, _, hpublish, rfl, sent, ?_, hwelcomes⟩
  rw [← hquiet.recorded.1]
  exact hsends

/-- **An edit that adds members welcomes them** to the group that it stores, with the latest pair
of the group, and leaves the keys as they are. -/
theorem exec_edit_addition (hsound : ledgers.Sound) {group : Identifier} {withHistory : Bool}
    {report : EditReport} {world : World (Local (Recorded ε))}
    (hstored : ledgers.groups.get? group = some current)
    (hexec : (edit (Ledgers.backend environment.recorded) config group current.name members).exec
      ⟨r, ⟨ledgers, e⟩⟩ = (.ok report, world))
    (hadded : current.changeOf current.name members = .added ids withHistory) :
    ∃ pair, ledgers.keys.latest group = .ok (some pair) ∧
      world.outside.ledgers.keys = ledgers.keys ∧
      ∃ sent, world.outside.environment.sends = e.sends ++ sent ∧
        Welcomes (current.updated (current.edited group current.name members
          (environment.recorded.now e).1)) ids pair (sent.map Prod.fst) := by
  obtain ⟨hallowed, _⟩ := allowed_of_stored environment.recorded config hsound hstored hexec
  have hid := hsound.filed hstored
  obtain ⟨pair?, hvetted, hedit⟩ := exec_edit_of_allowed environment.recorded r e hsound hallowed
  rw [hadded] at hvetted hedit
  obtain ⟨hsome, hlatest⟩ := hvetted
  obtain ⟨pair, rfl⟩ := Option.ne_none_iff_exists'.mp hsome
  obtain ⟨report', world', hpublish, hkeys, hsends⟩ := exec_publish_addition environment config
    (r := r) (e := (environment.recorded.now e).2) current
    (current.edited group current.name members (environment.recorded.now e).1) ids pair
    (ledgers.get?_written hid) (Roster.ofList members).ascending rfl withHistory
  cases hexec.symm.trans (hedit.trans hpublish)
  exact ⟨pair, hid ▸ hlatest, hkeys, hsends⟩

/-! ## Who hears of an edit -/

/-- **Someone is invited to a group**: the one message to the group lists them as new, and the one
message to them hands the group over. -/
structure Invited (state : StoredGroup) (id : Identifier) (pair : KeyPair)
    (dispatches : List Dispatch) : Prop where
  listed : ∃ (announcement : Message) (ids : List Identifier),
    announcement.body = .addition ids ∧ id ∈ ids ∧
      dispatches.filter (·.recipient = .group state.id) =
        [⟨.group state.id, announcement, .legacyGroup⟩]
  once : ∃ invitation : Message, invitation.HandsOver state pair ∧
    dispatches.filter (·.recipient = .member id) = [⟨.member id, invitation, .direct⟩]

/-- **A message passes someone over**: it is not for them alone, and it does not list them as
new. -/
structure PassesOver (id : Identifier) (dispatch : Dispatch) : Prop where
  unaddressed : dispatch.recipient ≠ .member id
  unlisted : ∀ ids, dispatch.message.body = .addition ids → id ∉ ids

section

variable {config} {id : Identifier} {dispatches : List Dispatch}

/-- Whoever is welcomed is invited, once. -/
theorem Welcomes.invited (h : Welcomes current ids pair dispatches) (hnodup : ids.Nodup)
    (hmem : id ∈ ids) : Invited current id pair dispatches := by
  obtain ⟨announcement, invitation, hannouncement, hinvitation, rfl⟩ := h
  have hothers : (ids.map fun id => (⟨.member id, invitation, .direct⟩ : Dispatch)).filter
      (·.recipient = .group current.id) = [] := by
    simp [List.filter_eq_nil_iff]
  have hthem : (ids.map fun id => (⟨.member id, invitation, .direct⟩ : Dispatch)).filter
      (·.recipient = .member id) = [⟨.member id, invitation, .direct⟩] := by
    have hone : ids.filter (· == id) = [id] := by
      rw [List.filter_beq, List.count_eq_one_of_mem hnodup hmem, List.replicate_one]
    rw [List.filter_map, ← List.map_singleton
      (f := fun id => (⟨.member id, invitation, .direct⟩ : Dispatch)), ← hone]
    refine congrArg _ (List.filter_congr fun other _ => ?_)
    simp [beq_eq_decide]
  refine ⟨⟨announcement, ids, hannouncement, hmem, ?_⟩, invitation, hinvitation, ?_⟩
  · rw [List.filter_cons_of_pos (by simp), hothers]
  · rw [List.filter_cons_of_neg (by simp), hthem]

/-- A message to the group that lists nobody as new passes everyone over. -/
theorem passesOver_of_group {group : Identifier} {dispatch : Dispatch}
    (hrecipient : dispatch.recipient = .group group)
    (hbody : ∀ ids, dispatch.message.body ≠ .addition ids) : PassesOver id dispatch where
  unaddressed := by simp [hrecipient]
  unlisted := fun ids hlisted => absurd hlisted (hbody ids)

/-- Whoever is not among those who are welcomed is passed over. -/
theorem Welcomes.passesOver (h : Welcomes current ids pair dispatches)
    (hnot : id ∉ ids) : ∀ dispatch ∈ dispatches, PassesOver id dispatch := by
  obtain ⟨announcement, invitation, hannouncement, ⟨_, _, hinvitation, _⟩, rfl⟩ := h
  rw [List.forall_mem_cons, List.forall_mem_map]
  refine ⟨⟨by simp, fun listed hlisted => ?_⟩, fun other hother =>
    ⟨?_, fun listed hlisted => ?_⟩⟩
  · cases hannouncement.symm.trans hlisted
    exact hnot
  · rintro ⟨⟩
    exact hnot hother
  · cases hinvitation.symm.trans hlisted

/-- Everyone is passed over by what follows a removal up. -/
theorem FollowsUp.passesOver {group : Identifier} {targets : List Identifier}
    {after : Local (Recorded ε)} {rotation : Option Rotation.Outcome} {inner : ε}
    (h : FollowsUp config current group targets ids ⟨ledgers, .start inner⟩ after rotation) :
    ∀ dispatch ∈ after.environment.sends.map Prod.fst, PassesOver id dispatch := by
  obtain ⟨announcement, answer, rest, hbody, hsends, hrekeyed⟩ := h
  rw [hsends]
  show ∀ dispatch ∈ .toGroup group announcement :: rest.map Prod.fst, PassesOver id dispatch
  rw [List.forall_mem_cons]
  refine ⟨passesOver_of_group rfl fun listed hlisted => ?_, ?_⟩
  · cases hbody.symm.trans hlisted
  · by_cases hrest : rest = []
    · simp [hrest]
    · -- the one message that is left hands a pair out
      obtain ⟨pair, wrappers, dispatch, answer, rfl, hpair⟩ := hrekeyed.handsOut hrest
      rw [List.map_singleton, List.forall_mem_singleton]
      refine passesOver_of_group hpair.addressed fun listed hlisted => ?_
      cases hpair.carried.symm.trans hlisted

end

/-! ## Who becomes a member -/

/-- **Whoever becomes a member and was no zombie** is new. -/
theorem added_of_newcomer {id : Identifier} (hstandard : id.isStandard = true)
    (hgiven : id ∈ members) (hbefore : id ∉ current.members) (hzombie : id ∉ current.zombies) :
    ∃ ids, current.changeOf current.name members = .added ids false ∧ id ∈ ids := by
  have habsent : id ∉ Change.present current := by
    rw [Change.mem_present, not_or]
    exact ⟨hbefore, hzombie⟩
  rcases current.changeOf_cases current.name members with ⟨hname, _⟩ | ⟨_, ids, _, hchange, hids⟩ |
    ⟨_, hpresent, _⟩ | ⟨_, _, hpresent, _⟩
  · exact absurd rfl hname
  · exact ⟨ids, hchange, (hids id).mpr ⟨hgiven, habsent, hstandard⟩⟩
  · exact absurd (hpresent id hgiven hstandard) habsent
  · exact absurd (hpresent id hgiven hstandard) habsent

/-- **Whoever was a zombie is passed over** by an edit that keeps the name. -/
theorem passesOver_of_zombie (hsound : ledgers.Sound) {group : Identifier} {inner : ε}
    {report : EditReport} {world : World (Local (Recorded ε))}
    (hstored : ledgers.groups.get? group = some current)
    (hexec : (edit (Ledgers.backend environment.recorded) config group current.name members).exec
      ⟨r, ⟨ledgers, .start inner⟩⟩ = (.ok report, world))
    {id : Identifier} (hzombie : id ∈ current.zombies) :
    ∀ dispatch ∈ world.outside.environment.sends.map Prod.fst, PassesOver id dispatch := by
  have hpresent : id ∈ Change.present current := Change.mem_present.mpr (.inr hzombie)
  obtain ⟨hallowed, hreport, _⟩ :=
    allowed_of_stored environment.recorded config hsound hstored hexec
  rcases current.changeOf_cases current.name members with ⟨hname, _⟩ |
    ⟨_, ids, _, hchange, hids⟩ | ⟨_, _, ids, _, hchange, _⟩ | ⟨_, hchange, _⟩
  · exact absurd rfl hname
  · obtain ⟨_, _, _, sent, hsends, hwelcomes⟩ :=
      exec_edit_addition environment config hsound hstored hexec hchange
    rw [hsends]
    exact hwelcomes.passesOver fun hmem => ((hids id).mp hmem).2.1 hpresent
  · obtain ⟨_, _, _, hfollows⟩ :=
      exec_edit_removal environment config hsound hexec (hreport.trans hchange)
    exact hfollows.passesOver
  · cases hexec.symm.trans
      (exec_edit_of_unchanged environment.recorded r (.start inner) hsound hallowed hchange)
    exact fun _ hmem => absurd hmem List.not_mem_nil

/-- **Whoever becomes a member is invited, unless they were a zombie.** By an edit that keeps the
name and gives a report, every standard identifier that becomes a member and was no zombie is
listed in the one message to the group, and is sent one message, an invitation to the group as it
is stored now, with the bytes of the pair that is the latest one before and after; and whoever was
a zombie is passed over. -/
theorem newcomers_are_invited (hledgers : ledgers.Reachable) {group : Identifier} {inner : ε}
    {before : StoredGroup} {report : EditReport} {world : World (Local (Recorded ε))}
    (hstored : ledgers.groups.get? group = some before)
    (hexec : (edit (Ledgers.backend environment.recorded) config group before.name members).exec
      ⟨r, ⟨ledgers, .start inner⟩⟩ = (.ok report, world)) :
    ∃ after, world.outside.ledgers.groups.get? group = some after ∧ after.id = group ∧
      ∀ id ∈ after.members, id.isStandard = true → id ∉ before.members →
        (id ∉ before.zombies → ∃ pair, ledgers.keys.latest group = .ok (some pair) ∧
          world.outside.ledgers.keys.latest group = .ok (some pair) ∧
          Invited after id pair (world.outside.environment.sends.map Prod.fst)) ∧
        (id ∈ before.zombies →
          ∀ dispatch ∈ world.outside.environment.sends.map Prod.fst, PassesOver id dispatch) := by
  have hsound := hledgers.sound
  have hid := hsound.filed hstored
  obtain ⟨_, _, hgroups⟩ := allowed_of_stored environment.recorded config hsound hstored hexec
  refine ⟨_, (hgroups group).trans (ledgers.get?_written hid), hid,
    fun id hafter hstandard hnot => ⟨fun hzombie => ?_,
      passesOver_of_zombie environment config hsound hstored hexec⟩⟩
  rw [StoredGroup.members_updated_edited, Roster.mem_ofList] at hafter
  obtain ⟨ids, hchange, hmem⟩ := added_of_newcomer hstandard hafter hnot hzombie
  obtain ⟨pair, hlatest, hkeys, sent, hsends, hwelcomes⟩ :=
    exec_edit_addition environment config hsound hstored hexec hchange
  refine ⟨pair, hlatest, hkeys ▸ hlatest, ?_⟩
  rw [hsends]
  exact hwelcomes.invited (StoredGroup.nodup_of_changeOf_added hchange) hmem

end Service

/-! ## A zombie who comes back -/

/-- The ledgers with the group that has a zombie, and a key for it. -/
def Ledgers.hauntedWithKey : Ledgers :=
  { haunted with
    keys := (haunted.keys.add StoredGroup.sample.id (KeyPair.ofSecret (Scalar.ofNat 1))).2 }

theorem Ledgers.hauntedWithKey_reachable : Ledgers.hauntedWithKey.Reachable :=
  haunted_reachable.add _ _

namespace Service

/-- We may take the zombie back, together with someone who is new. -/
theorem allowed_hauntedWithKey : Allowed Config.sample Ledgers.hauntedWithKey
    StoredGroup.sample.id StoredGroup.haunted "friends"
      [Config.sample.account, Identifier.sample, Identifier.stranger] where
  stored := Ledgers.get?_haunted
  notKeyed := by decide
  notRead := by decide
  noObjection := by decide +kernel

/-- **A zombie who becomes a member again is not invited**: nothing at all is sent. -/
theorem zombie_returns_uninvited :
    ∃ report world after,
      Ledgers.hauntedWithKey.groups.get? StoredGroup.sample.id = some StoredGroup.haunted ∧
      StoredGroup.haunted.isLegacy = true ∧
      (edit (Ledgers.backend Environment.still.recorded) Config.sample StoredGroup.sample.id
          StoredGroup.haunted.name [Config.sample.account, Identifier.sample]).exec
        ⟨InFlight.empty, ⟨Ledgers.hauntedWithKey, .start ()⟩⟩ = (.ok report, world) ∧
      world.outside.ledgers.groups.get? StoredGroup.sample.id = some after ∧
      Identifier.sample ∈ after.members ∧ Identifier.sample.isStandard = true ∧
      Identifier.sample ∉ StoredGroup.haunted.members ∧
      world.outside.environment.sends = [] := by
  have hallowed : Allowed Config.sample Ledgers.hauntedWithKey StoredGroup.sample.id
      StoredGroup.haunted StoredGroup.haunted.name [Config.sample.account, Identifier.sample] :=
    ⟨Ledgers.get?_haunted, by decide, by decide, by decide +kernel⟩
  have hexec := exec_edit_of_unchanged Environment.still.recorded InFlight.empty (.start ())
    Ledgers.hauntedWithKey_reachable.sound hallowed (by decide +kernel)
  refine ⟨_, _, _, Ledgers.get?_haunted, by decide, hexec,
    Ledgers.get?_written Ledgers.hauntedWithKey rfl, ?_, by decide +kernel, by decide +kernel, rfl⟩
  rw [StoredGroup.members_updated_edited, Roster.mem_ofList]
  exact List.mem_cons_of_mem _ List.mem_cons_self

/-- When a zombie comes back together with someone who is new, the new one is invited and the
zombie is passed over. -/
theorem newcomers_are_invited_of_stranger :
    ∃ report world, Ledgers.hauntedWithKey.Reachable ∧
      Ledgers.hauntedWithKey.groups.get? StoredGroup.sample.id = some StoredGroup.haunted ∧
      (edit (Ledgers.backend Environment.still.recorded) Config.sample StoredGroup.sample.id
          "friends" [Config.sample.account, Identifier.sample, Identifier.stranger]).exec
        ⟨InFlight.empty, ⟨Ledgers.hauntedWithKey, .start ()⟩⟩ = (.ok report, world) ∧
      (∃ after pair, world.outside.ledgers.groups.get? StoredGroup.sample.id = some after ∧
        world.outside.ledgers.keys.latest StoredGroup.sample.id = .ok (some pair) ∧
        Invited after Identifier.stranger pair
          (world.outside.environment.sends.map Prod.fst)) ∧
      ∀ dispatch ∈ world.outside.environment.sends.map Prod.fst,
        PassesOver Identifier.sample dispatch := by
  obtain ⟨report, world, hexec, _⟩ := exec_edit_ok Environment.still.recorded Config.sample
    (r := InFlight.empty) (e := .start ())
    Ledgers.hauntedWithKey_reachable.sound allowed_hauntedWithKey
  obtain ⟨after, hafter, _, hinvited⟩ := newcomers_are_invited Environment.still Config.sample
    Ledgers.hauntedWithKey_reachable Ledgers.get?_haunted hexec
  rw [members_of_exec_edit Environment.still.recorded Ledgers.hauntedWithKey_reachable.sound hexec
    hafter] at hinvited
  obtain ⟨pair, _, hlatest, hstranger⟩ := (hinvited Identifier.stranger (by decide +kernel)
    (by decide +kernel) (by decide +kernel)).1 (by decide +kernel)
  exact ⟨report, world, Ledgers.hauntedWithKey_reachable, Ledgers.get?_haunted, hexec,
    ⟨after, pair, hafter, hlatest, hstranger⟩,
    (hinvited Identifier.sample (by decide +kernel) (by decide +kernel) (by decide +kernel)).2
      (by decide +kernel)⟩

end Service

end SealedGroup
