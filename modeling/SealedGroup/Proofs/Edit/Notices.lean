import SealedGroup.Proofs.Edit.Classification
import SealedGroup.Proofs.Edit.Independence

/-!
# The notice of an edit

An edit that changes something leaves one notice in the conversation of its group, and an edit
that there is nothing to say about leaves none (`Change.AnnouncedAs`). The notice is settled
before anything is sent: it repeats what the change holds, is ours, and expires only as the
group that was edited does (`Notice.Expires`).

Nothing that follows records another notice or takes this one back, whatever is sent and however
a rotation ends (`Service.edit_is_noticed_once`).

## Two ways to say nothing

There are two changes that there is nothing to say about: the one that is none, and a rename to
the empty name. The second one is a change all the same. It is written and committed, and the
report names it; but no notice is recorded, and no message sent, so that the others go on with
the old name.

## Expiration

Notices expire in two kinds of groups, those whose messages are deleted after sending and those
with the settings of older clients, and only if the timer of the group is not zero. Everywhere
else a notice stays. The settings are those of the group as it was stored before the edit; an
edit does not change them, and neither does a snapshot, so a group cannot be made to expire its
notices by the edit that they are about.

Who made the change is told by the account, and when by the clock of the network, which is a
reading of the clock, shifted.
-/

namespace SealedGroup

variable {ε : Type}

/-- **What is said about a change**: all that it holds, and nothing else. Nothing is said about a
rename to the empty name, or about an edit that changes nothing. -/
inductive Change.AnnouncedAs : Change → Option Announcement → Prop
  | renamed {name : String} (hname : name ≠ "") : AnnouncedAs (.renamed name) (some (.renamed name))
  | nameless : AnnouncedAs (.renamed "") none
  | added {ids : List Identifier} : AnnouncedAs (.added ids false) (some (.joined ids))
  | removed {ids : List Identifier} : AnnouncedAs (.removed ids) (some (.removed ids))
  | unchanged : AnnouncedAs .unchanged none

/-- **The expiration of a notice** in a group with the given settings. Only a group whose messages
are deleted after sending, or one with the settings of older clients, stamps its notices, and only
if its timer is not zero; the timer then runs from when the notice was made. -/
inductive Notice.Expires (mode : ExpirationMode) (timer : UInt64) (notice : Notice) : Prop
  | never (hsettings : ¬((mode = .legacy ∨ mode = .deleteAfterSend) ∧ timer ≠ 0))
      (hexpiration : notice.expiration = none) (htimer : notice.timer = none)
      (hstart : notice.expirationStart = none)
  | afterSend (hsettings : (mode = .legacy ∨ mode = .deleteAfterSend) ∧ timer ≠ 0)
      (hexpiration : notice.expiration = some .deleteAfterSend)
      (htimer : notice.timer = some timer)
      (hstart : notice.expirationStart = some notice.sentAt)

/-- **The notice reports a change** that the account made to a group with the given state. -/
structure Notice.Reports (account group : Identifier) (stored : StoredGroup) (change : Change)
    (notice : Notice) : Prop where
  conversation_eq : notice.conversation = group
  sender_eq : notice.sender = account
  direction_eq : notice.direction = .outgoing
  announcedAs : change.AnnouncedAs (some notice.announcement)
  expires : notice.Expires stored.mode stored.timer

/-! ## What is said -/

namespace Change

variable {change : Change} {old : StoredGroup} {snapshot : GroupSnapshot}

/-- **Every change that is classified is announced** as it should be. -/
theorem Classifies.announcedAs (h : Classifies old snapshot change) :
    change.AnnouncedAs change.announcement? := by
  cases h with
  | renamed _ =>
    by_cases hname : snapshot.name = ""
    · rw [hname]
      exact .nameless
    · have hne : Change.renamed snapshot.name ≠ .renamed "" := fun h => hname (renamed.inj h)
      rw [show (Change.renamed snapshot.name).announcement? = some (.renamed snapshot.name) from
        if_neg hne]
      exact .renamed hname
  | added _ _ _ => exact .added
  | removed _ _ _ _ => exact .removed
  | unchanged _ _ _ => exact .unchanged

/-- There is nothing to say about two changes alone. -/
theorem AnnouncedAs.eq_none_iff {announcement? : Option Announcement}
    (h : change.AnnouncedAs announcement?) :
    announcement? = none ↔ change = .unchanged ∨ change = .renamed "" := by
  cases h with
  | renamed hname => simp [hname]
  | nameless | added | removed | unchanged => simp

/-- What is said of a change is its announcement. -/
theorem AnnouncedAs.ofChange?_eq {announcement : Announcement}
    (h : change.AnnouncedAs (some announcement)) :
    Announcement.ofChange? change = some announcement := by
  cases h <;> rfl

end Change

/-! ## What is stamped on it -/

/-- Deletion after sending is what two modes resolve to. -/
theorem ExpirationKind.ofSettings_eq_deleteAfterSend {mode : ExpirationMode} {timer : UInt64} :
    ofSettings mode timer = .deleteAfterSend ↔
      (mode = .legacy ∨ mode = .deleteAfterSend) ∧ timer ≠ 0 := by
  unfold ofSettings
  by_cases htimer : timer = 0
  · simp [htimer]
  · cases mode <;> simp [htimer]

/-- **A new notice is stamped** with the settings of its group. -/
theorem Notice.expires_stamped {mode : ExpirationMode} {timer : UInt64}
    (hread : ¬(mode = .deleteAfterRead ∧ timer ≠ 0)) (id : Uuid) (conversation : Identifier)
    (announcement : Announcement) (sender account : Identifier) (sentAt : Int64) :
    ((create id conversation announcement sender account sentAt).stamped
      (some ⟨.ofSettings mode timer, timer, false⟩)).Expires mode timer := by
  cases hkind : ExpirationKind.ofSettings mode timer with
  | unknown =>
    refine .never (fun h => ?_) rfl rfl rfl
    rw [ExpirationKind.ofSettings_eq_deleteAfterSend.mpr h] at hkind
    cases hkind
  | deleteAfterRead => exact absurd (ExpirationKind.ofSettings_eq_deleteAfterRead.mp hkind) hread
  | deleteAfterSend =>
    have hsettings := ExpirationKind.ofSettings_eq_deleteAfterSend.mp hkind
    have hstamped : ¬(ExpirationKind.deleteAfterSend = .unknown ∨ timer = 0) := by
      simp [hsettings.2]
    unfold stamped
    dsimp only
    rw [if_neg hstamped]
    exact .afterSend hsettings rfl rfl rfl

/-- **What a change is announced as** makes a notice that reports it. -/
theorem Notice.reports_stamped {stored : StoredGroup} {change : Change}
    {announcement : Announcement} (hread : ¬(stored.mode = .deleteAfterRead ∧ stored.timer ≠ 0))
    (hannounced : change.AnnouncedAs (some announcement)) (id : Uuid) (account group : Identifier)
    (sentAt : Int64) :
    ((create id group announcement account account sentAt).stamped
      (some ⟨.ofSettings stored.mode stored.timer, stored.timer, false⟩)).Reports account group
        stored change := by
  obtain ⟨hconversation, hsender, hdirection, hsame⟩ := Notice.stamped_fields
    (create id group announcement account account sentAt)
    (some ⟨.ofSettings stored.mode stored.timer, stored.timer, false⟩)
  exact ⟨hconversation, hsender, hdirection.trans (if_pos rfl), hsame ▸ hannounced,
    expires_stamped hread ..⟩

namespace Service

variable {environment : Environment ε} {config : Config} {ledgers : Ledgers} {group : Identifier}
  {name : String} {members : List Identifier} {r : InFlight} {e : ε} {report : EditReport}
  {after : World (Local ε)}

/-- An edit is recorded as a notice exactly if there is something to say about it. -/
theorem noticeOf_eq_none_iff {stored : StoredGroup} {snapshot : GroupSnapshot} {change : Change} :
    noticeOf environment config stored snapshot change e = none ↔ change.announcement? = none :=
  Option.map_eq_none_iff

/-- The notice that an edit is recorded as reports its change. -/
theorem reports_of_noticeOf {stored : StoredGroup} {activeAt : Int64} {change : Change}
    {notice : Notice} (hread : ¬(stored.mode = .deleteAfterRead ∧ stored.timer ≠ 0))
    (hannounced : change.AnnouncedAs change.announcement?)
    (h : noticeOf environment config stored (stored.edited group name members activeAt) change e =
      some notice) :
    notice.Reports config.account group stored change := by
  obtain ⟨announcement, hannouncement, rfl⟩ := Option.map_eq_some_iff.mp h
  rw [hannouncement] at hannounced
  exact Notice.reports_stamped hread hannounced ..

/-- **Each change is noticed once.** An edit that gives a report of nothing, or of a rename to the
empty name, leaves the notices of all conversations as they are and reports none. Any other edit
adds one notice, to the conversation of its group, and reports just that: it repeats what the
change holds, names us as the sender of what we sent, and carries expiration fields only if the
group that was stored deletes messages after sending, or has the settings of older clients, and
its timer is not zero. These are then deletion after sending, that timer, and the time of the
notice itself. It is so whatever is sent, and however the rotation after a removal ends. -/
theorem edit_is_noticed_once (hledgers : ledgers.Reachable)
    (hexec : (edit (Ledgers.backend environment) config group name members).exec
      ⟨r, ⟨ledgers, e⟩⟩ = (.ok report, after)) :
    ∃ stored, ledgers.groups.get? group = some stored ∧
      (report.change = .unchanged ∨ report.change = .renamed "" →
        report.notice = none ∧ after.outside.ledgers.groups.log = ledgers.groups.log) ∧
      (report.change ≠ .unchanged → report.change ≠ .renamed "" → ∃ notice,
        report.notice = some notice ∧
        after.outside.ledgers.groups.log = ledgers.groups.log ++ [notice] ∧
        after.outside.ledgers.groups.notices group = ledgers.groups.notices group ++ [notice] ∧
        Announcement.ofChange? report.change = some notice.announcement ∧
        notice.Reports config.account group stored report.change) := by
  obtain ⟨stored, hallowed, -⟩ := allowed_of_exec_edit environment config hledgers.sound hexec
  obtain ⟨notice?, records, rotation, _, hnotice, hedit, hspared⟩ :=
    exec_edit_spared environment config (r := r) (e := e) hledgers.sound hallowed
  cases hexec.symm.trans hedit
  have hlog := hspared.ledgers.log
  have hannounced := (Change.classifies_between stored
    (stored.edited group name members (environment.now e).1)).announcedAs
  rw [StoredGroup.between_edited] at hannounced
  refine ⟨stored, hallowed.stored, fun hsilent => ?_, fun hchanged hnamed => ?_⟩
  · have hnone : notice? = none :=
      hnotice.trans (noticeOf_eq_none_iff.mpr (hannounced.eq_none_iff.mpr hsilent))
    rw [hnone] at hlog
    exact ⟨hnone, hlog⟩
  · cases hmade : notice? with
    | none =>
      have hsilent := hannounced.eq_none_iff.mp (noticeOf_eq_none_iff.mp (hnotice.symm.trans hmade))
      exact absurd hsilent (not_or.mpr ⟨hchanged, hnamed⟩)
    | some notice =>
      rw [hmade] at hlog
      have hreports := reports_of_noticeOf hallowed.notRead hannounced (hnotice.symm.trans hmade)
      refine ⟨notice, rfl, hlog, ?_, hreports.announcedAs.ofChange?_eq, hreports⟩
      calc after.outside.ledgers.groups.notices group
          = (ledgers.groups.append notice).notices group := congrArg (List.filter _) hlog
        _ = ledgers.groups.notices group ++ [notice] := by
            rw [GroupLedger.notices_append, if_pos hreports.conversation_eq]

/-- A removal from a group with a timer is noticed, and the notice expires, although no message
arrives. -/
theorem edit_is_noticed_once_of_removal :
    let expiring : StoredGroup := { StoredGroup.sample with mode := .legacy, timer := 3600 }
    let ledgers : Ledgers := { Ledgers.empty with groups := GroupLedger.empty.put expiring }
    ledgers.Reachable ∧ ∃ report after notice,
      (edit (Ledgers.backend Environment.offline) Config.sample expiring.id "friends"
        [Config.sample.account]).exec ⟨InFlight.empty, ⟨ledgers, ()⟩⟩ = (.ok report, after) ∧
      report.notice = some notice ∧ after.outside.ledgers.groups.log = [notice] ∧
      notice.announcement = .removed [Identifier.sample] ∧
      notice.sender = Config.sample.account ∧ notice.expiration = some .deleteAfterSend ∧
      notice.timer = some 3600 ∧ notice.expirationStart = some notice.sentAt := by
  intro expiring ledgers
  have hledgers : ledgers.Reachable := Ledgers.Reachable.empty.put expiring
  have hstored : ledgers.groups.get? expiring.id = some expiring := GroupLedger.get?_put_self _ rfl
  have hallowed : Allowed Config.sample ledgers expiring.id expiring "friends"
      [Config.sample.account] := ⟨hstored, by decide, by decide, by decide +kernel⟩
  obtain ⟨report, after, hexec, hchange, -⟩ := exec_edit_ok Environment.offline Config.sample
    (r := InFlight.empty) (e := ()) hledgers.sound hallowed
  have hremoved : report.change = .removed [Identifier.sample] :=
    hchange.trans (by decide +kernel)
  obtain ⟨stored, hstored', -, hnoticed⟩ := edit_is_noticed_once hledgers hexec
  obtain rfl : expiring = stored := Option.some.inj (hstored.symm.trans hstored')
  rw [hremoved] at hnoticed
  obtain ⟨notice, hnotice, hlog, -, hannouncement, hreports⟩ := hnoticed nofun nofun
  refine ⟨hledgers, report, after, notice, hexec, hnotice, hlog,
    (Option.some.inj hannouncement).symm, hreports.sender_eq, ?_⟩
  cases hreports.expires with
  | never hsettings _ _ _ => exact absurd ⟨.inl rfl, by decide⟩ hsettings
  | afterSend _ hexpiration htimer hstart => exact ⟨hexpiration, htimer, hstart⟩

end Service

end SealedGroup
