import SealedGroup.Proofs.Edit.Classification
import SealedGroup.Proofs.Service.Trace

/-!
# The messages of an edit

A change calls for certain control messages: a rename and a removal for one to the group, an
addition for one to the group and for an invitation of each new member (`Change.CallsFor`).
Sends may fail, and no send depends on the ones before it. So an edit that gives a report sent
just the messages that its change calls for, each once and in their order, and the report has
one record for each of them (`Service.edit_sends_what_is_called_for`). The message that hands
out a new key after a removal is not looked at here.

## What is said, and what is recorded

A `Control` is what a message says, to whom, and by which channel; it leaves aside the envelope,
which is the same for all messages of an edit and has the identifier of the notice in it. What a
change calls for is written down in full, the byte strings of the invited pair among it
(`RawPair.Carries`), so that it can be read without the operations that send it.

The record of a message has its destination and its channel, and the state that answers to what
the transport gave (`Delivery.Records`). Records and sends are related one by one, in their
order, so that the n-th record is about the n-th message.

## Any backend

The statement is about the trace of the edit over any backend. The proof takes the operations in
the order in which they are made. Most of them say nothing, the rotation among them
(`Service.said_run`); a send says one thing more; and a change is announced by a sequence of
sends that can be compared with what it calls for, item by item.
-/

namespace SealedGroup

/-- **What is said to whom**, and by which channel. -/
structure Control where
  recipient : Recipient
  channel : Channel
  body : MessageBody

/-- What a message on its way says. -/
def Dispatch.control (dispatch : Dispatch) : Control :=
  ⟨dispatch.recipient, dispatch.channel, dispatch.message.body⟩

/-- **The control messages that a change of a stored group calls for**, in their order.
For an addition the trace tells the pair: it was read right after the group was. Each
invitation lists the members in ascending order and carries the pair as its bytes. -/
inductive Change.CallsFor (current : StoredGroup) (members : List Identifier)
    (calls : List Call) : Change → Option KeyPair → List Control → Prop where
  | unchanged : CallsFor current members calls .unchanged none []
  | unnamed : CallsFor current members calls (.renamed "") none []
  | renamed {newName : String} (hname : newName ≠ "") :
      CallsFor current members calls (.renamed newName) none
        [⟨.group current.id, .legacyGroup, .rename newName⟩]
  | added {ids listed : List Identifier} {withHistory : Bool} {pair : KeyPair} {raw : RawPair}
      (hread : [.loaded current.id (.ok (some current)),
        .pairRead current.id (.ok (some pair))] <+: calls)
      (hlisted : Identifier.Enumerates listed {id | id ∈ members}) (hraw : raw.Carries pair) :
      CallsFor current members calls (.added ids withHistory) (some pair)
        (⟨.group current.id, .legacyGroup, .addition ids⟩ ::
          ids.map fun id => ⟨.member id, .direct,
            .invitation current.name listed current.admins raw⟩)
  | removed {ids : List Identifier} :
      CallsFor current members calls (.removed ids) none
        [⟨.group current.id, .legacyGroup, .removal ids⟩]

/-- What a change calls for does not depend on what comes after it. -/
theorem Change.CallsFor.lasts {current : StoredGroup} {members : List Identifier}
    {calls calls' : List Call} {change : Change} {pair : Option KeyPair} {controls : List Control}
    (h : change.CallsFor current members calls pair controls) (hgrown : calls <+: calls') :
    change.CallsFor current members calls' pair controls := by
  cases h with
  | unchanged => exact .unchanged
  | unnamed => exact .unnamed
  | renamed hname => exact .renamed hname
  | added hread hlisted hraw => exact .added (hread.trans hgrown) hlisted hraw
  | removed => exact .removed

/-- The messages that were handed to the transport, keys aside, each with its answer. -/
def controlSends (calls : List Call) : List (Dispatch × Except SendError String) :=
  calls.filterMap fun call =>
    match call with
    | .sent dispatch answer =>
      if dispatch.message.body.handsKeyOut then none else some (dispatch, answer)
    | _ => none

theorem controlSends_append (calls calls' : List Call) :
    controlSends (calls ++ calls') = controlSends calls ++ controlSends calls' :=
  List.filterMap_append

/-- The group has the name that is kept if members are added to it. -/
theorem StoredGroup.name_of_changeOf_added {current : StoredGroup} {name : String}
    {members ids : List Identifier} {withHistory : Bool}
    (h : current.changeOf name members = .added ids withHistory) : name = current.name := by
  by_contra hname
  have hrenamed : current.changeOf name members = .renamed name := if_pos hname
  cases hrenamed.symm.trans h

/-! ## What is told -/

/-- **The sends tell what is to be said**: each message in its turn, in an envelope of the
group and the notice, and with a record of its own. -/
structure Told (group : Identifier) (identifier : String) (controls : List Control)
    (records : List Delivery) (attempts : List (Dispatch × Except SendError String)) : Prop where
  said : attempts.map (fun attempt => attempt.1.control) = controls
  enveloped : ∀ attempt ∈ attempts, attempt.1.message.groupId = group ∧
    attempt.1.message.identifier = identifier ∧ attempt.1.message.timer = 0
  recorded : List.Forall₂ (fun record attempt => record.Records attempt.1 attempt.2)
    records attempts

/-- The dispatch by which something is said. -/
def Control.dispatch (group : Identifier) (identifier : String) (createdAt : Int64)
    (control : Control) : Dispatch :=
  ⟨control.recipient, Message.create group identifier createdAt control.body, control.channel⟩

section

variable {group : Identifier} {identifier : String} {controls : List Control}
  {records : List Delivery} {attempts : List (Dispatch × Except SendError String)}

theorem Told.nil : Told group identifier [] [] [] := ⟨rfl, nofun, .nil⟩

/-- One more message is sent. -/
theorem Told.concat (h : Told group identifier controls records attempts) (createdAt : Int64)
    (control : Control) (answer : Except SendError String) :
    Told group identifier (controls ++ [control])
      (records ++ [.ofResult (control.dispatch group identifier createdAt) answer])
      (attempts ++ [(control.dispatch group identifier createdAt, answer)]) where
  said := by
    rw [List.map_append, h.said]
    rfl
  enveloped := by
    intro attempt hmem
    rcases List.mem_append.mp hmem with hold | hnew
    · exact h.enveloped attempt hold
    · rw [List.mem_singleton.mp hnew]
      exact ⟨rfl, rfl, rfl⟩
  recorded := List.rel_append h.recorded (.cons (Delivery.records_ofResult _ _) .nil)

end

/-- The messages so far are of this kind. -/
def Said (F : List (Dispatch × Except SendError String) → Prop) (_ : InFlight)
    (calls : List Call) : Prop :=
  F (controlSends calls)

/-! ## What says nothing -/

open Act (Triple)

section

variable {σ α : Type} {F : List (Dispatch × Except SendError String) → Prop}

/-- A call that is no send says nothing. -/
theorem Said.concat {r : InFlight} {calls : List Call} (h : Said F r calls) {call : Call}
    (hcall : controlSends [call] = []) : Said F r (calls ++ [call]) := by
  unfold Said
  rw [controlSends_append, hcall, List.append_nil]
  exact h

/-- A ledger is called. -/
theorem Said.ledger {call : Except LedgerError α → Call}
    {action : StateM σ (Except LedgerError α)} (hcall : ∀ answer, controlSends [call answer] = []) :
    Triple (Said F) (Act.ledger (Traced.entered call action))
      (fun a r calls => Said F r calls ∧ call (.ok a) ∈ calls) (Said F) :=
  .ledger (fun _ _ _ h => ⟨h.concat (hcall _),
    List.mem_append_right _ (List.mem_singleton.mpr rfl)⟩) fun _ _ _ h => h.concat (hcall _)

end

namespace Service

variable {σ : Type} (backend : Backend σ) (config : Config)
  {F : List (Dispatch × Except SendError String) → Prop} {E : InFlight → List Call → Prop}

theorem said_commit (id : Identifier) :
    Triple (Said F) (Act.ledger (backend.traced.commit id)) (fun _ => Said F) (Said F) :=
  (Said.ledger fun _ => rfl).mono (fun _ _ h => h) (fun _ _ _ h => h.1) fun _ _ h => h

theorem said_loadGroup (id : Identifier) :
    Triple (Said F) (Act.ledger (backend.traced.loadGroup id)) (fun _ => Said F) (Said F) :=
  (Said.ledger fun _ => rfl).mono (fun _ _ h => h) (fun _ _ _ h => h.1) fun _ _ h => h

theorem said_upsert (snapshot : GroupSnapshot) :
    Triple (Said F) (upsert backend.traced snapshot) (fun _ => Said F) (Said F) := by
  unfold upsert
  refine .bind (said_loadGroup backend _) fun stored =>
    .bind (Said.ledger fun _ => rfl) fun _ => ?_
  exact .weaken (.bind (said_commit backend _) fun _ => .pure fun _ _ h => h) fun _ _ h => h.1

/-- The notice is recorded that the messages are to name. -/
theorem said_recordNotice (conversation : Identifier) (announcement : Announcement)
    (sender : Identifier) (sentAt : Int64) (update : Option ExpirationUpdate) :
    Triple (Said F) (recordNotice backend.traced config conversation announcement sender sentAt
        update)
      (fun notice r calls => Said F r calls ∧ .noticed notice (.ok ()) ∈ calls) (Said F) := by
  unfold recordNotice
  exact .bind .silently fun id => .bind (Said.ledger fun _ => rfl) fun _ => .pure fun _ _ h => h

/-! ### The rotation -/

/-- **A rotation sends no other message** than the one that hands its key out. -/
theorem said_run (id : Identifier) (targets : List Identifier) (requesterIsAdmin : Bool) :
    Triple (Said F) (Rotation.run backend.traced config id targets requesterIsAdmin)
      (fun _ => Said F) (Said F) := by
  unfold Rotation.run
  refine .bind (.prepare (D := fun calls => F (controlSends calls)) (said_loadGroup backend id)
    (fun _ _ _ h => h.concat rfl) (fun _ _ h => h) config targets requesterIsAdmin)
    fun prepared => ?_
  cases prepared with
  | skipped outcome => exact .pure fun _ _ h => h.1 outcome rfl
  | ready pending =>
    dsimp only
    refine .bind (Q := fun _ => Said F) (.send fun r s calls h => ?_) fun answer => ?_
    · obtain ⟨hsaid, hready⟩ := h.2 pending rfl
      obtain ⟨wrappers, hbody, _⟩ := hready.carried
      exact Said.concat hsaid
        (List.filterMap_cons_none (if_pos (Message.handsKeyOut_of_body hbody)))
    · cases answer with
      | error error => exact .pure fun _ _ h => h
      | ok messageId =>
        exact .confirm (.settle (fun _ _ h => h) (fun _ _ _ _ h _ => h.concat rfl)
          fun _ _ _ _ h _ => h.concat rfl) (said_commit backend _)

/-! ## What is said -/

variable {group : Identifier} {identifier : String} {controls : List Control}
  {records : List Delivery}

/-- **One message is sent**, whatever comes of it. -/
theorem told_deliver (createdAt : Int64) (control : Control)
    (hbody : control.body.handsKeyOut = false) :
    Triple (Said (Told group identifier controls records))
      (deliver backend.traced (control.dispatch group identifier createdAt))
      (fun record => Said (Told group identifier (controls ++ [control]) (records ++ [record])))
      E := by
  unfold deliver
  refine .bind (Q := fun answer => Said (Told group identifier (controls ++ [control])
    (records ++ [.ofResult (control.dispatch group identifier createdAt) answer])))
    (.send fun r s calls h => ?_) fun answer => .pure fun _ _ h => h
  generalize (backend.send _ ⟨r, s⟩).1 = answer
  have hsent : controlSends [.sent (control.dispatch group identifier createdAt) answer] =
      [(control.dispatch group identifier createdAt, answer)] := by
    unfold controlSends
    refine List.filterMap_cons_some (if_neg ?_)
    exact ne_true_of_eq_false hbody
  unfold Said
  rw [controlSends_append, hsent]
  exact Told.concat h createdAt control answer

/-- **All the messages are sent**, whatever comes of each. -/
theorem told_deliverAll (createdAt : Int64) {rest : List Control}
    (hbodies : ∀ control ∈ rest, control.body.handsKeyOut = false) :
    Triple (Said (Told group identifier controls records))
      (deliverAll backend.traced (rest.map (·.dispatch group identifier createdAt)))
      (fun more => Said (Told group identifier (controls ++ rest) (records ++ more))) E := by
  induction rest generalizing controls records with
  | nil =>
    refine .pure fun _ _ h => ?_
    rwa [List.append_nil, List.append_nil]
  | cons control rest ih =>
    obtain ⟨hbody, hrest⟩ := List.forall_mem_cons.mp hbodies
    refine .bind (told_deliver backend createdAt control hbody) fun record => .bind (ih hrest)
      fun more => .pure fun _ _ h => ?_
    rwa [List.append_assoc, List.append_assoc] at h

/-! ### The announcement -/

/-- A removal is announced, and the message of its rotation is left aside. -/
theorem told_announceRemoval (current : StoredGroup) (snapshot : GroupSnapshot)
    (ids : List Identifier) :
    Triple (Said (Told snapshot.id identifier [] []))
      (announceRemoval backend.traced config current snapshot ids identifier)
      (fun announced => Said (Told snapshot.id identifier
        [⟨.group snapshot.id, .legacyGroup, .removal ids⟩] announced.1)) E := by
  unfold announceRemoval
  refine .bind (.networkTime backend config) fun createdAt => .bind (told_deliver backend createdAt
    ⟨.group snapshot.id, .legacyGroup, .removal ids⟩ rfl) fun record => ?_
  split
  · exact .bind (.tryCatch (said_run backend config _ _ _) fun _ => .pure fun _ _ h => h)
      fun outcome => .pure fun _ _ h => h
  · exact .pure fun _ _ h => h

/-- An addition is announced to the group, and whoever is added is invited. -/
theorem told_announceAddition (current : StoredGroup) (snapshot : GroupSnapshot)
    (ids : List Identifier) (pair : KeyPair) :
    Triple (Said (Told current.id identifier [] []))
      (announceAddition backend.traced config current snapshot ids pair identifier)
      (fun records => Said (Told current.id identifier
        (⟨.group current.id, .legacyGroup, .addition ids⟩ ::
          ids.map fun id => ⟨.member id, .direct, .invitation snapshot.name snapshot.members
            current.admins pair.toRaw⟩) records)) E := by
  unfold announceAddition
  refine .bind (.networkTime backend config) fun createdAt => .bind (told_deliver backend createdAt
    ⟨.group current.id, .legacyGroup, .addition ids⟩ rfl) fun record =>
      .bind (.networkTime backend config) fun createdAt => ?_
  -- the invitations differ in nothing but whom they are for
  have hinvitations : ids.map (fun id => Dispatch.toMember id (Message.create current.id identifier
      createdAt (.invitation snapshot.name snapshot.members current.admins pair.toRaw))) =
    (ids.map fun id => (⟨.member id, .direct, .invitation snapshot.name snapshot.members
      current.admins pair.toRaw⟩ : Control)).map (·.dispatch current.id identifier createdAt) := by
    rw [List.map_map]
    rfl
  dsimp only
  rw [hinvitations]
  refine .bind (told_deliverAll backend createdAt fun control hmem => ?_) fun more =>
    .pure fun _ _ h => h
  obtain ⟨id, _, rfl⟩ := List.mem_map.mp hmem
  rfl

variable {current : StoredGroup} {name : String} {members : List Identifier} {activeAt : Int64}
  {change : Change} {pair : Option KeyPair} {begun : List Call}

/-- **A change is announced by what it calls for.** -/
theorem told_announce (hcalls : change.CallsFor current members begun pair controls)
    (hannounced : change.announcement? ≠ none)
    (hname : ∀ ids withHistory, change = .added ids withHistory → name = current.name) :
    Triple (Said (Told current.id identifier [] []))
      (announce backend.traced config current (current.edited current.id name members activeAt)
        change pair identifier)
      (fun announced => Said (Told current.id identifier controls announced.1)) E := by
  unfold announce
  cases hcalls with
  | unchanged => exact .pure fun _ _ h => h
  | unnamed => exact absurd rfl hannounced
  | @renamed newName _ =>
    refine .bind (Q := fun records => Said (Told current.id identifier
      [⟨.group current.id, .legacyGroup, .rename newName⟩] records)) ?_ fun records =>
        .pure fun _ _ h => h
    exact .bind (.networkTime backend config) fun createdAt => .bind (told_deliver backend createdAt
      ⟨.group current.id, .legacyGroup, .rename newName⟩ rfl) fun record =>
        .pure fun _ _ h => h
  | added _ hlisted hraw =>
    rw [← hname _ _ rfl, RawPair.carries_iff.mp hraw,
      hlisted.unique (Identifier.Enumerates.toList_ofList members)]
    exact .bind (told_announceAddition backend config current _ _ _) fun records =>
      .pure fun _ _ h => h
  | @removed ids =>
    exact told_announceRemoval backend config current
      (current.edited current.id name members activeAt) ids

/-- **The report and the trace agree on what was said**: just the given messages, in an
envelope of the group and the notice that was recorded, with a record for each. -/
structure Announced (group : Identifier) (controls : List Control) (report : EditReport)
    (calls : List Call) : Prop where
  said : (controlSends calls).map (fun attempt => attempt.1.control) = controls
  enveloped : ∀ attempt ∈ controlSends calls, attempt.1.message.groupId = group ∧
    attempt.1.message.timer = 0 ∧ ∃ notice, report.notice = some notice ∧
      .noticed notice (.ok ()) ∈ calls ∧ attempt.1.message.identifier = notice.id
  recorded : List.Forall₂ (fun record attempt => record.Records attempt.1 attempt.2)
    report.dispatches (controlSends calls)

/-- What is told of a recorded notice is announced. -/
theorem announced_of_told {notice : Notice} {rotation : Option Rotation.Outcome}
    {calls : List Call} (h : Told group notice.id controls records (controlSends calls))
    (hnotice : .noticed notice (.ok ()) ∈ calls) :
    Announced group controls ⟨change, some notice, records, rotation⟩ calls where
  said := h.said
  enveloped := fun attempt hmem =>
    have ⟨hgroup, hidentifier, htimer⟩ := h.enveloped attempt hmem
    ⟨hgroup, htimer, notice, rfl, hnotice, hidentifier⟩
  recorded := h.recorded

/-- A notice stays recorded, whatever is done. -/
theorem noticed_lasts {α : Type} {P : InFlight → List Call → Prop} {act : Act (Traced σ) α}
    {Q : α → InFlight → List Call → Prop} (h : Triple P act Q E) (notice : Notice) :
    Triple (fun r calls => P r calls ∧ .noticed notice (.ok ()) ∈ calls) act
      (fun a r calls => Q a r calls ∧ .noticed notice (.ok ()) ∈ calls) fun _ _ => True :=
  (h.frame fun hgrown hmem => hgrown.subset hmem).anyhow

/-- A change that is not announced calls for no message. -/
theorem eq_nil_of_not_announced (hcalls : change.CallsFor current members begun pair controls)
    (hannouncement : change.announcement? = none) : controls = [] := by
  cases hcalls with
  | unchanged | unnamed => rfl
  | renamed hname =>
    rw [Change.announcement?, if_neg fun h => hname (Change.renamed.inj h)] at hannouncement
    cases hannouncement
  | added _ _ _ | removed => cases hannouncement

/-- **A change is published by what it calls for.** -/
theorem announced_publish (hcalls : change.CallsFor current members begun pair controls)
    (hname : ∀ ids withHistory, change = .added ids withHistory → name = current.name)
    (activeAt : Int64) :
    Triple (Said (· = []))
      (publish backend.traced config current (current.edited current.id name members activeAt)
        change pair)
      (fun report _ calls => report.change = change ∧ Announced current.id controls report calls)
      (fun _ _ => True) := by
  unfold publish
  cases hannouncement : change.announcement? with
  | none =>
    refine .bind (said_commit backend _).anyhow fun _ => .pure fun r calls h => ⟨rfl, ?_⟩
    have hsends : controlSends calls = [] := h
    rw [eq_nil_of_not_announced hcalls hannouncement]
    refine ⟨?_, fun attempt hmem => ?_, ?_⟩
    · rw [hsends]
      rfl
    · rw [hsends] at hmem
      exact absurd hmem List.not_mem_nil
    · rw [hsends]
      exact .nil
  | some announcement =>
    have hannounced : change.announcement? ≠ none := by
      rw [hannouncement]
      exact nofun
    refine .bind .silently fun sentAt => .bind (said_recordNotice backend config _ _ _ _ _).anyhow
      fun notice => ?_
    refine .weaken (.bind (noticed_lasts (told_announce backend config hcalls hannounced hname
      (E := fun _ _ => True)) notice) fun announced =>
        .bind (noticed_lasts (said_commit backend _) notice) fun _ => .pure fun r calls h =>
          ⟨rfl, announced_of_told h.1 h.2⟩) fun r calls h => ⟨?_, h.2⟩
    -- nothing is said before the notice is recorded
    have hsends : controlSends calls = [] := h.1
    show Told current.id notice.id [] [] (controlSends calls)
    rw [hsends]
    exact .nil

/-! ## The whole edit -/

/-- **A change that is let pass** calls for certain messages, and none of them is sent yet. -/
theorem called_vet (current : StoredGroup) (snapshot : GroupSnapshot) (change : Change)
    (members : List Identifier) :
    Triple (fun _ calls => calls = [.loaded current.id (.ok (some current))])
      (vet backend.traced config current snapshot change)
      (fun pair r calls => (∃ controls, change.CallsFor current members calls pair controls) ∧
        Said (· = []) r calls) (fun _ _ => True) := by
  unfold vet
  cases change with
  | removed ids =>
    dsimp only
    split
    · exact .throw fun _ _ _ => trivial
    · split
      · exact .throw fun _ _ _ => trivial
      · refine .pure fun r calls h => ⟨⟨_, .removed⟩, ?_⟩
        rw [h]
        rfl
  | added ids withHistory =>
    refine .bind (Q := fun pair _ calls => calls = [.loaded current.id (.ok (some current)),
      .pairRead current.id (.ok pair)]) (.ledger (fun r calls pair h => ?_) fun _ _ _ _ => trivial)
        fun pair => ?_
    · rw [h]
      rfl
    · cases pair with
      | none => exact .throw fun _ _ _ => trivial
      | some pair =>
        refine .pure fun r calls h => ?_
        rw [h]
        exact ⟨⟨_, .added List.prefix_rfl (Identifier.Enumerates.toList_ofList members)
          (RawPair.carries_toRaw pair)⟩, rfl⟩
  | renamed newName =>
    refine .pure fun r calls h => ?_
    rw [h]
    by_cases hname : newName = ""
    · rw [hname]
      exact ⟨⟨_, .unnamed⟩, rfl⟩
    · exact ⟨⟨_, .renamed hname⟩, rfl⟩
  | unchanged =>
    refine .pure fun r calls h => ?_
    rw [h]
    exact ⟨⟨_, .unchanged⟩, rfl⟩

/-- **An edit says what its change calls for**, and nothing else, whichever sends fail. -/
theorem edit_sends_what_is_called_for {world : World σ} {group : Identifier}
    (hfiled : ∀ current, (backend.loadGroup group world.outside).1 = .ok (some current) →
      current.id = group)
    {report : EditReport} {after : World (Traced σ)}
    (hexec : (edit backend.traced config group name members).exec world.traced =
      (.ok report, after)) :
    ∃ current pair controls, after.calls.head? = some (.loaded group (.ok (some current))) ∧
      report.change = current.changeOf name members ∧
      report.change.CallsFor current members after.calls pair controls ∧
      Announced group controls report after.calls := by
  unfold edit at hexec
  split at hexec
  · cases hexec
  obtain ⟨stored, loaded, hload, hexec⟩ := Act.ok_of_exec_bind hexec
  obtain ⟨hanswer, hloaded⟩ := Act.ok_of_exec_entered hload
  cases stored with
  | none => cases hexec
  | some current =>
    obtain rfl : current.id = group := hfiled current hanswer
    dsimp only at hexec
    split at hexec
    · cases hexec
    obtain ⟨activeAt, ready, hnow, hexec⟩ := Act.ok_of_exec_bind hexec
    obtain ⟨pair, vetted, hvet, hexec⟩ := Act.ok_of_exec_bind hexec
    have hready : ready.calls = [.loaded current.id (.ok (some current))] :=
      (Triple.silently (P := fun _ calls => calls = [.loaded current.id (.ok (some current))])
        (E := fun _ _ => True)).of_ok hnow hloaded
    have hvetted := called_vet backend config current
      (current.edited current.id name members activeAt) (current.changeOf name members) members
    obtain ⟨⟨controls, hcalls⟩, hunsaid⟩ := hvetted.of_ok hvet hready
    have hpublished := (said_upsert backend (current.edited current.id name members
      activeAt)).anyhow.bind fun _ => announced_publish backend config hcalls
        (fun _ _ => StoredGroup.name_of_changeOf_added) activeAt
    obtain ⟨hchange, hannounced⟩ := hpublished.of_ok hexec hunsaid
    -- what was read before the roster is written stays in the trace
    have hgrown := hpublished.grown hexec hunsaid
    refine ⟨current, pair, controls, ?_, hchange, ?_, hannounced⟩
    · obtain ⟨rest, hcalls⟩ := (hvetted.grown hvet hready).trans hgrown
      rw [← hcalls, hready]
      rfl
    · rw [hchange]
      exact hcalls.lasts hgrown

/-- A third member is invited to our group, which has a key. -/
theorem edit_sends_what_is_called_for_of_addition :
    ∃ report after, (edit (Ledgers.backend Environment.still).traced Config.sample
        StoredGroup.sample.id "friends" [Config.sample.account, Identifier.sample,
          Identifier.stranger]).exec
        (World.traced ⟨InFlight.empty, ⟨Ledgers.sampleWithKey, ()⟩⟩) = (.ok report, after) ∧
      (controlSends after.calls).length = 2 ∧
      ∃ current pair controls, report.change.CallsFor current [Config.sample.account,
          Identifier.sample, Identifier.stranger] after.calls pair controls ∧
        Announced StoredGroup.sample.id controls report after.calls := by
  have hsent : ((edit (Ledgers.backend Environment.still).traced Config.sample
      StoredGroup.sample.id "friends" [Config.sample.account, Identifier.sample,
        Identifier.stranger]).exec
      (World.traced ⟨InFlight.empty, ⟨Ledgers.sampleWithKey, ()⟩⟩)).1.isOk = true ∧
    (controlSends ((edit (Ledgers.backend Environment.still).traced Config.sample
      StoredGroup.sample.id "friends" [Config.sample.account, Identifier.sample,
        Identifier.stranger]).exec
      (World.traced ⟨InFlight.empty, ⟨Ledgers.sampleWithKey, ()⟩⟩)).2.calls).length = 2 := by
    decide +kernel
  have hfiled : ∀ current, ((Ledgers.backend Environment.still).loadGroup StoredGroup.sample.id
      ⟨Ledgers.sampleWithKey, ()⟩).1 = .ok (some current) →
        current.id = StoredGroup.sample.id := by
    intro current h
    have hstored := h.symm.trans (congrArg Except.ok Ledgers.get?_sample)
    rw [Option.some.inj (Except.ok.inj hstored)]
  rcases hexec : (edit (Ledgers.backend Environment.still).traced Config.sample
    StoredGroup.sample.id "friends" [Config.sample.account, Identifier.sample,
      Identifier.stranger]).exec
    (World.traced ⟨InFlight.empty, ⟨Ledgers.sampleWithKey, ()⟩⟩) with ⟨e | report, after⟩ <;>
    rw [hexec] at hsent
  · cases hsent.1
  · obtain ⟨current, pair, controls, _, _, hcalls, hannounced⟩ :=
      edit_sends_what_is_called_for (Ledgers.backend Environment.still) Config.sample hfiled hexec
    exact ⟨report, after, rfl, hsent.2, current, pair, controls, hcalls, hannounced⟩

end Service

end SealedGroup
