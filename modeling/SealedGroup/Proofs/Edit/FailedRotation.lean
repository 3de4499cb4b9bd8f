import SealedGroup.Proofs.Edit.Order
import SealedGroup.Proofs.Rotation.Preparation

/-!
# Rotations reported as failed

The rotation after a removal may end in an error, and the report of the edit then says that it
failed, with the text of the error. There are four calls at which it can break off, and the
trace of the edit tells them apart (`Rotation.BreaksOff`). If the group could not be read, or
some member could not be encrypted to, nothing was handed out. But a rotation may also break off
at the ledgers once its message was confirmed: then the members have the new pair, and if it was
the group that could not be committed, the pair is on file as well.

So a rotation that is reported as failed distributed nothing exactly if no pair was offered to
the ledger of key pairs (`Service.failed_rotation_distributes_iff_offered`).

## From the report back to the rotation

A report has the text of the error and nothing more, and the proof goes back from it. A rotation
has no outcome by which it would call itself failed (`Rotation.run_ne_failed`), so the word can
only stand for an error, and the error can only have come from the rotation of a removal.
`Service.EndsInRotation` carries this through the parts of an edit: the rotation was the last
thing to handle a key, and none was handled before it.

The calls of each part are read off the trace, whatever the backend, as long as attempts keep
their pairs while a message is on its way. What became of the histories is added for backends
that file what they take.
-/

namespace SealedGroup

/-- **The call handles a key**: it draws, hands out or files one. -/
def Call.handlesKey : Call → Bool
  | drew _ | pairAdded .. => true
  | sent dispatch _ => dispatch.message.body.handsKeyOut
  | loaded .. | saved .. | committed .. | noticed .. | pairRead .. => false

/-- The calls of an edit up to its rotation handle no key. -/
theorem Call.handlesKey_of_rank_le {call : Call} (h : call.rank ≤ 2) : call.handlesKey = false := by
  cases call with
  | loaded | saved | committed | noticed | pairRead => rfl
  | drew secret => exact absurd (show 3 ≤ 2 from h) (by omega)
  | pairAdded group pair answer => exact absurd (show 5 ≤ 2 from h) (by omega)
  | sent dispatch answer =>
    cases hbody : dispatch.message.body.handsKeyOut with
    | false => exact hbody
    | true =>
      rw [rank, hbody] at h
      exact absurd (show 4 ≤ 2 from h) (by omega)

/-- Attempts keep their pairs under faults. -/
theorem Backend.KeepsPairs.armed {σ : Type} {backend : Backend σ} (h : backend.KeepsPairs) :
    backend.armed.KeepsPairs :=
  fun {dispatch world} _ _ _ hbefore hafter =>
    @h dispatch ⟨world.inFlight, world.outside.outside⟩ _ _ _ hbefore hafter

/-- What handles no key changes no history. -/
theorem KeyHistories.foldl_after_of_keyless {calls : List Call}
    (h : ∀ call ∈ calls, call.handlesKey = false) (histories : KeyHistories) :
    calls.foldl KeyHistories.after histories = histories := by
  induction calls with
  | nil => rfl
  | cons call rest ih =>
    obtain ⟨hcall, hrest⟩ := List.forall_mem_cons.mp h
    have hsame : histories.after call = histories := by
      cases call with
      | pairAdded group pair answer => cases hcall
      | loaded | saved | committed | noticed | pairRead | drew | sent => rfl
    rw [List.foldl_cons, hsame]
    exact ih hrest

namespace Traced

variable {σ α : Type} {s s' : Traced σ} {a : α}

/-- A call is entered with its answer. -/
theorem calls_of_entered {call : α → Call} {action : StateM σ α}
    (h : Traced.entered call action s = (a, s')) : s'.calls = s.calls ++ [call a] := by
  have hanswer : (action s.outside).1 = a := congrArg Prod.fst h
  rw [← hanswer]
  exact congrArg (fun result => result.2.calls) h.symm

/-- What is done silently leaves the trace as it is. -/
theorem calls_of_silently {action : StateM σ α} (h : Traced.silently action s = (a, s')) :
    s'.calls = s.calls :=
  congrArg (fun result => result.2.calls) h.symm

section

variable {backend : Backend σ} {dispatch : Dispatch} {world sent : World (Traced σ)}
  {answer : Except SendError String}

/-- A send is entered with its answer. -/
theorem calls_of_send (h : backend.traced.send dispatch world = (answer, sent)) :
    sent.calls = world.calls ++ [.sent dispatch answer] := by
  have hanswer : (backend.traced.send dispatch world).1 = answer := congrArg Prod.fst h
  rw [← hanswer]
  exact congrArg (fun result => result.2.calls) h.symm

/-- An attempt that is still registered after a send has the pair that it had before. -/
theorem pair_of_send (hbackend : backend.KeepsPairs)
    (h : backend.traced.send dispatch world = (answer, sent)) {group : Identifier} {id : Uuid}
    {pair pair' : KeyPair} (hbefore : world.inFlight.get? group = some ⟨id, pair⟩)
    (hafter : sent.inFlight.get? group = some ⟨id, pair'⟩) : pair' = pair := by
  have hsent : sent = (backend.traced.send dispatch world).2 := congrArg Prod.snd h.symm
  rw [hsent] at hafter
  have hkept : (⟨id, pair'⟩ : Attempt) = ⟨id, pair⟩ :=
    @hbackend dispatch ⟨world.inFlight, world.outside.outside⟩ _ _ _ hbefore hafter rfl
  exact congrArg Attempt.pair hkept

end

end Traced

namespace Rotation

/-- **Where a rotation breaks off**: the error in which it ends, and its calls. -/
inductive BreaksOff (group : Identifier) : ServiceError → List Call → Prop where
  /-- The group cannot be read. -/
  | unread (cause : LedgerError) :
      BreaksOff group (.ledger cause) [.loaded group (.error cause)]
  /-- The pair cannot be wrapped for some target. -/
  | unwrapped (stored : Option StoredGroup) (secret : Scalar) (cause : KeyPairError) :
      BreaksOff group (.encryption cause) [.loaded group (.ok stored), .drew secret]
  /-- The message that hands the pair out is confirmed, and the pair cannot be filed. -/
  | unfiled (stored : Option StoredGroup) (messageId : String) {pair : KeyPair}
      {message : Message} {wrappers : List Wrapper} {cause : LedgerError}
      (hbody : message.body = .keyPair wrappers)
      (hseals : ∀ wrapper ∈ wrappers, Wrapper.Seals pair wrapper.recipient wrapper) :
      BreaksOff group (.ledger cause)
        [.loaded group (.ok stored), .drew pair.secret,
          .sent (.toGroup group message) (.ok messageId), .pairAdded group pair (.error cause)]
  /-- The message is confirmed and the pair is filed, and the group cannot be committed. -/
  | uncommitted (stored : Option StoredGroup) (messageId : String) (new : Bool) {pair : KeyPair}
      {message : Message} {wrappers : List Wrapper} {cause : LedgerError}
      (hbody : message.body = .keyPair wrappers)
      (hseals : ∀ wrapper ∈ wrappers, Wrapper.Seals pair wrapper.recipient wrapper) :
      BreaksOff group (.ledger cause)
        [.loaded group (.ok stored), .drew pair.secret,
          .sent (.toGroup group message) (.ok messageId), .pairAdded group pair (.ok new),
          .committed group (.error cause)]

/-- **A pair was handed out exactly if it was offered to the ledger.** -/
theorem BreaksOff.handsOut_iff {group : Identifier} {error : ServiceError} {calls : List Call}
    (h : BreaksOff group error calls) :
    (∃ dispatch answer, .sent dispatch answer ∈ calls ∧
      dispatch.message.body.handsKeyOut = true) ↔
    ∃ pair answer, .pairAdded group pair answer ∈ calls := by
  cases h with
  | unread cause => simp
  | unwrapped stored secret cause => simp
  | @unfiled stored messageId pair message wrappers cause hbody hseals =>
    exact iff_of_true ⟨.toGroup group message, .ok messageId, by simp,
      Message.handsKeyOut_of_body hbody⟩ ⟨pair, .error cause, by simp⟩
  | @uncommitted stored messageId new pair message wrappers cause hbody hseals =>
    exact iff_of_true ⟨.toGroup group message, .ok messageId, by simp,
      Message.handsKeyOut_of_body hbody⟩ ⟨pair, .ok new, by simp⟩

/-- **The histories after a rotation that broke off** are those before it, unless it is the
group that could not be committed. -/
theorem BreaksOff.histories_cases {group : Identifier} {error : ServiceError} {calls : List Call}
    (h : BreaksOff group error calls) (histories : KeyHistories) :
    calls.foldl KeyHistories.after histories = histories ∨
      ∃ pair new cause,
        [.pairAdded group pair (.ok new), .committed group (.error cause)] <:+ calls ∧
        calls.foldl KeyHistories.after histories = histories.file group pair := by
  cases h with
  | unread _ | unwrapped _ _ _ | unfiled _ _ _ _ => exact .inl rfl
  | @uncommitted stored messageId new pair message wrappers cause hbody hseals =>
    exact .inr ⟨pair, new, cause, ⟨[.loaded group (.ok stored), .drew pair.secret,
      .sent (.toGroup group message) (.ok messageId)], rfl⟩, rfl⟩

/-! ## The calls of a rotation that breaks off -/

section

variable {σ : Type} {backend : Backend σ} {config : Config} {group : Identifier}
  {targets : List Identifier} {requesterIsAdmin : Bool}

/-- **The calls of a preparation** that nothing stands in the way of: the group is read, and a
secret drawn. -/
theorem calls_of_wrapped {stored : Option StoredGroup} {attempt : Attempt}
    {result : Except KeyPairError (List Wrapper)} {s read drawn wrapped : Traced σ}
    (hload : backend.traced.loadGroup group s = (.ok stored, read))
    (hdraw : drawAttempt backend.traced read = (attempt, drawn))
    (hwrap : Wrapper.wrapAll backend.traced.drawCoins attempt.pair targets drawn =
      (result, wrapped)) :
    wrapped.calls = s.calls ++ [.loaded group (.ok stored), .drew attempt.pair.secret] := by
  have hdrawn : drawn.calls = read.calls ++ [.drew attempt.pair.secret] := by
    have hattempt : (drawAttempt backend.traced read).1 = attempt := congrArg Prod.fst hdraw
    rw [← hattempt]
    exact congrArg (fun result => result.2.calls) hdraw.symm
  have hwrapped := Wrapper.wrapAll_state backend.traced.drawCoins attempt.pair
    (R := fun s t => t.calls = s.calls) (fun _ => rfl) (fun h h' => h'.trans h) (fun _ => rfl)
    targets drawn
  rw [hwrap] at hwrapped
  have hcalls : wrapped.calls = drawn.calls := hwrapped
  rw [hcalls, hdrawn, Traced.calls_of_entered hload, List.append_assoc]
  rfl

/-- What stands in the way of a rotation is told by an outcome of its own. -/
theorem obstacle_ne_failed {account : Identifier} {stored : Option StoredGroup}
    {reason : String} : obstacle account requesterIsAdmin stored ≠ some (.failed reason) := by
  unfold obstacle
  split
  · exact nofun
  · split
    · exact nofun
    · split <;> exact nofun

/-- **A rotation never calls itself failed**: it ends in an error instead. -/
theorem run_ne_failed {world after : World σ} {outcome : Outcome}
    (hexec : (run backend config group targets requesterIsAdmin).exec world = (.ok outcome, after))
    (reason : String) : outcome ≠ .failed reason := by
  rw [exec_run] at hexec
  rcases hprepare : (prepare backend config group targets requesterIsAdmin).exec world with
    ⟨error | (pending | skipped), prepared⟩ <;> rw [hprepare] at hexec
  · cases hexec
  · dsimp only at hexec
    cases hanswer : (backend.send (.toGroup group pending.message) prepared).1 with
    | error error =>
      rw [hanswer] at hexec
      cases hexec
      exact nofun
    | ok messageId =>
      rw [hanswer] at hexec
      cases Confirmation.of_exec hexec with
      | stale _ | committed _ _ _ => exact nofun
  · cases hexec
    cases Preparation.of_exec hprepare with
    | skipped _ hobstacle =>
      rintro rfl
      exact obstacle_ne_failed hobstacle

/-- **A confirmation that ends in an error** has offered its pair to the ledger. -/
theorem breaksOff_of_confirmation {pending : Rotation.Pending} {r : InFlight} {s : Traced σ}
    {after : World (Traced σ)} {error : ServiceError} {wrappers : List Wrapper}
    {begun : List Call} (stored : Option StoredGroup) (messageId : String)
    (h : Confirmation backend.traced pending r s (.error error) after)
    (hpair : ∀ pair, r.get? pending.groupId = some ⟨pending.attempt, pair⟩ → pair = pending.pair)
    (hcalls : s.calls = begun ++ [.loaded pending.groupId (.ok stored),
      .drew pending.pair.secret, .sent (.toGroup pending.groupId pending.message) (.ok messageId)])
    (hbody : pending.message.body = .keyPair wrappers)
    (hseals : ∀ wrapper ∈ wrappers, Wrapper.Seals pending.pair wrapper.recipient wrapper) :
    ∃ tail, after.calls = begun ++ tail ∧ BreaksOff pending.groupId error tail := by
  cases h with
  | @unfiled pair cause s' hcurrent happend =>
    obtain rfl := hpair pair hcurrent
    refine ⟨_, ?_, .unfiled stored messageId hbody hseals⟩
    · show s'.calls = _
      rw [Traced.calls_of_entered happend, hcalls, List.append_assoc]
      rfl
  | @uncommitted pair new cause s' s'' hcurrent happend hcommit =>
    obtain rfl := hpair pair hcurrent
    refine ⟨_, ?_, .uncommitted stored messageId new hbody hseals⟩
    · show s''.calls = _
      rw [Traced.calls_of_entered hcommit, Traced.calls_of_entered happend, hcalls,
        List.append_assoc, List.append_assoc]
      rfl

/-- **A rotation that ends in an error breaks off at one of four calls.** -/
theorem breaksOff_of_exec_run (hbackend : backend.KeepsPairs) {error : ServiceError}
    {world after : World (Traced σ)}
    (hexec : (run backend.traced config group targets requesterIsAdmin).exec world =
      (.error error, after)) :
    ∃ tail, after.calls = world.calls ++ tail ∧ BreaksOff group error tail := by
  rw [exec_run] at hexec
  rcases hprepare : (prepare backend.traced config group targets requesterIsAdmin).exec world with
    ⟨error' | (pending | skipped), prepared⟩ <;> rw [hprepare] at hexec
  · cases hexec
    cases Preparation.of_exec hprepare with
    | unread hload => exact ⟨_, Traced.calls_of_entered hload, .unread _⟩
    | unwrapped hload _ hdraw hwrap =>
      exact ⟨_, calls_of_wrapped hload hdraw hwrap, .unwrapped _ _ _⟩
  · dsimp only at hexec
    rcases hsend : backend.traced.send (.toGroup group pending.message) prepared with
      ⟨error' | messageId, sent⟩ <;> rw [hsend] at hexec
    · cases hexec
    · cases Preparation.of_exec hprepare with
      | @ready stored attempt wrappers identifier now read drawn wrapped named timed hload _ hdraw
          hwrap hname htime =>
        -- the send may give others a turn, but not swap the pair of a registered attempt
        have htimed : timed.calls = world.calls ++
            [.loaded group (.ok stored), .drew attempt.pair.secret] := by
          rw [Traced.calls_of_silently htime, Traced.calls_of_silently hname]
          exact calls_of_wrapped hload hdraw hwrap
        refine breaksOff_of_confirmation stored messageId (Confirmation.of_exec hexec)
          (fun pair hget =>
            Traced.pair_of_send hbackend hsend (InFlight.get?_register_self ..) hget)
          ?_ rfl (Wrapper.seals_of_wrapAll hwrap)
        have hsent : sent.calls = timed.calls ++ [.sent _ (.ok messageId)] :=
          Traced.calls_of_send hsend
        show sent.calls = _
        rw [hsent, htimed, List.append_assoc]
        rfl
  · cases hexec

end

end Rotation

namespace Service

variable {σ : Type} {backend : Backend σ} {config : Config} {group : Identifier} {name : String}
  {members : List Identifier} {reason : String}

open Act (Triple)

/-! ## The way to the rotation -/

/-- **A rotation ended the operation in an error**, the text of which is the reason, and before
it no key was handled. -/
def EndsInRotation (backend : Backend σ) (config : Config) (group : Identifier) (reason : String)
    (after : World (Traced σ)) : Prop :=
  ∃ begun targets requesterIsAdmin error, (∀ call ∈ begun.calls, call.handlesKey = false) ∧
    (Rotation.run backend.traced config group targets requesterIsAdmin).exec begun =
      (.error error, after) ∧ reason = error.message

/-- If the rotation after a removal failed, it ended in an error. -/
theorem endsInRotation_of_announceRemoval {current : StoredGroup} {snapshot : GroupSnapshot}
    {ids : List Identifier} {identifier : String} {records : List Delivery}
    {world after : World (Traced σ)}
    (hexec : (announceRemoval backend.traced config current snapshot ids identifier).exec world =
      (.ok (records, some (.failed reason)), after))
    (hworld : Progress group name members 2 ChangeRecorded world.inFlight world.calls) :
    EndsInRotation backend config snapshot.id reason after := by
  unfold announceRemoval at hexec
  obtain ⟨createdAt, timed, htime, hexec⟩ := Act.ok_of_exec_bind hexec
  obtain ⟨record, delivered, hdeliver, hexec⟩ := Act.ok_of_exec_bind hexec
  have htimed := (Triple.networkTime backend config (E := fun _ _ => True)).of_ok htime hworld
  have hdelivered := (order_deliver backend (E := fun _ _ => True) rfl).of_ok hdeliver htimed
  split at hexec
  · obtain ⟨outcome, rotated, hrotate, hexec⟩ := Act.ok_of_exec_bind hexec
    cases hexec
    -- the edit has not got beyond rank 2, and the first call with a key has rank 3
    have hquiet : ∀ call ∈ delivered.calls, call.handlesKey = false :=
      fun call hmem => Call.handlesKey_of_rank_le (hdelivered.1.rank_le call hmem)
    unfold rotateAfterRemoval at hrotate
    rw [Act.exec_tryCatch] at hrotate
    rcases hrun : (Rotation.run backend.traced config snapshot.id snapshot.members
      (current.isAdmin config.account)).exec delivered with ⟨error | outcome, ended⟩ <;>
      rw [hrun] at hrotate
    · cases hrotate
      exact ⟨delivered, _, _, error, hquiet, hrun, rfl⟩
    · cases hrotate
      exact absurd rfl (Rotation.run_ne_failed hrun reason)
  · cases hexec

/-- No other announcement has a rotation. -/
theorem endsInRotation_of_announce {current : StoredGroup} {snapshot : GroupSnapshot}
    {change : Change} {pair : Option KeyPair} {identifier : String} {records : List Delivery}
    {world after : World (Traced σ)}
    (hexec : (announce backend.traced config current snapshot change pair identifier).exec world =
      (.ok (records, some (.failed reason)), after))
    (hworld : Progress group name members 2 ChangeRecorded world.inFlight world.calls) :
    EndsInRotation backend config snapshot.id reason after := by
  unfold announce at hexec
  split at hexec
  · obtain ⟨_, _, _, hexec⟩ := Act.ok_of_exec_bind hexec
    cases hexec
  · obtain ⟨_, _, _, hexec⟩ := Act.ok_of_exec_bind hexec
    cases hexec
  · exact endsInRotation_of_announceRemoval hexec hworld
  · cases hexec
  · cases hexec

/-- Once its rotation is over, an edit commits the group. -/
theorem endsInRotation_of_publish {current : StoredGroup} {snapshot : GroupSnapshot}
    {change : Change} {pair : Option KeyPair} {report : EditReport} {world after : World (Traced σ)}
    (hexec : (publish backend.traced config current snapshot change pair).exec world =
      (.ok report, after))
    (hfailed : report.rotation = some (.failed reason))
    (hworld : Progress group name members 1 RosterWritten world.inFlight world.calls) :
    ∃ ended, EndsInRotation backend config snapshot.id reason ended ∧
      after.calls = ended.calls ++ [.committed snapshot.id (.ok ())] := by
  unfold publish at hexec
  split at hexec
  · obtain ⟨_, _, _, hexec⟩ := Act.ok_of_exec_bind hexec
    cases hexec
    cases hfailed
  · obtain ⟨sentAt, timed, htime, hexec⟩ := Act.ok_of_exec_bind hexec
    obtain ⟨notice, noticed, hnotice, hexec⟩ := Act.ok_of_exec_bind hexec
    obtain ⟨⟨records, rotation⟩, ended, hannounce, hexec⟩ := Act.ok_of_exec_bind hexec
    obtain ⟨_, committed, hcommit, hexec⟩ := Act.ok_of_exec_bind hexec
    cases hexec
    obtain rfl : rotation = some (.failed reason) := hfailed
    have htimed := (Triple.silently (E := fun _ _ => True)).of_ok htime hworld
    have hnoticed := (order_recordNotice backend config _ _ _ _ _).of_ok hnotice htimed
    exact ⟨ended, endsInRotation_of_announce hannounce hnoticed,
      (Act.ok_of_exec_entered hcommit).2⟩

/-- The group is read in its turn, before anything else. -/
theorem reached_loaded (answer : Except LedgerError (Option StoredGroup)) :
    Reached group name members 0 [.loaded group answer] :=
  Reached.concat ⟨.nil, fun _ hmem => absurd hmem List.not_mem_nil⟩ (.inl rfl) trivial
    (Nat.le_refl 0) (Nat.le_refl 0)

/-- **An edit whose rotation is reported as failed** went as far as that, and committed the
group. -/
theorem endsInRotation_of_edit {report : EditReport} {world : World σ} {after : World (Traced σ)}
    (hexec : (edit backend.traced config group name members).exec world.traced =
      (.ok report, after))
    (hfailed : report.rotation = some (.failed reason)) :
    ∃ ended, EndsInRotation backend config group reason ended ∧
      after.calls = ended.calls ++ [.committed group (.ok ())] := by
  unfold edit at hexec
  split at hexec
  · cases hexec
  obtain ⟨stored, loaded, hload, hexec⟩ := Act.ok_of_exec_bind hexec
  cases stored with
  | none => cases hexec
  | some current =>
    dsimp only at hexec
    split at hexec
    · cases hexec
    obtain ⟨activeAt, timed, htime, hexec⟩ := Act.ok_of_exec_bind hexec
    obtain ⟨pair, vetted, hvet, hexec⟩ := Act.ok_of_exec_bind hexec
    obtain ⟨state, written, hwrite, hexec⟩ := Act.ok_of_exec_bind hexec
    have hcalls : loaded.calls = [.loaded group (.ok (some current))] :=
      (Act.ok_of_exec_entered hload).2
    have hloaded : Progress group name members 0 (fun calls =>
        [.loaded group (.ok (some current))] <+: calls) loaded.inFlight loaded.calls := by
      rw [hcalls]
      exact ⟨reached_loaded _, List.prefix_rfl⟩
    have htimed := (Triple.silently (E := fun _ _ => True)).of_ok htime hloaded
    have hvetted := (order_vet backend config (fun hgrown h => h.trans hgrown) current _ _).of_ok
      hvet htimed
    have hwritten := (order_upsert backend current activeAt).of_ok hwrite hvetted
    -- the snapshot is known from what is published, and its identifier is that of the group
    have hpublished := endsInRotation_of_publish hexec hfailed hwritten
    exact hpublished

/-- **A rotation that is reported as failed distributed nothing exactly if no pair was offered
to the ledger of key pairs.** It was the last thing that the edit did before it committed the
group, it broke off at one of four calls with the error that the report tells, and no key was
handled before it. The histories are what they were, unless the pair was filed and the group
could not be committed. -/
theorem failed_rotation_distributes_iff_offered {histories : σ → KeyHistories}
    (hbackend : backend.KeepsPairs) (hfiles : backend.Files histories) {world : World σ}
    {report : EditReport} {after : World (Traced σ)}
    (hexec : (edit backend.traced config group name members).exec world.traced =
      (.ok report, after))
    (hfailed : report.rotation = some (.failed reason)) :
    ∃ front error tail, after.calls = front ++ tail ++ [.committed group (.ok ())] ∧
      (∀ call ∈ front, call.handlesKey = false) ∧
      Rotation.BreaksOff group error tail ∧ reason = error.message ∧
      ((∃ dispatch answer, .sent dispatch answer ∈ after.calls ∧
          dispatch.message.body.handsKeyOut = true) ↔
        ∃ pair answer, .pairAdded group pair answer ∈ after.calls) ∧
      (histories after.outside.outside = histories world.outside ∨
        ∃ pair new cause,
          [.pairAdded group pair (.ok new), .committed group (.error cause)] <:+ tail ∧
          histories after.outside.outside = (histories world.outside).file group pair) := by
  obtain ⟨ended, ⟨begun, targets, requesterIsAdmin, error, hkeyless, hrun, hreason⟩, hended⟩ :=
    endsInRotation_of_edit hexec hfailed
  obtain ⟨tail, htail, hbreaks⟩ := Rotation.breaksOff_of_exec_run hbackend hrun
  have hcalls : after.calls = begun.calls ++ tail ++ [.committed group (.ok ())] := by
    rw [hended, htail]
  -- no other part of the trace has to do with keys
  have hhandled : ∀ call : Call, call.handlesKey = true → (call ∈ after.calls ↔ call ∈ tail) := by
    intro call hkey
    rw [hcalls, List.mem_append, List.mem_append, List.mem_singleton]
    refine ⟨?_, fun hmem => .inl (.inr hmem)⟩
    rintro ((hfront | hmem) | rfl)
    · cases (hkeyless call hfront).symm.trans hkey
    · exact hmem
    · cases hkey
  have hhistories : histories after.outside.outside =
      tail.foldl KeyHistories.after (histories world.outside) := by
    rw [hfiles.edit config group name members hexec, hcalls, List.foldl_append, List.foldl_append,
      KeyHistories.foldl_after_of_keyless hkeyless]
    rfl
  refine ⟨begun.calls, error, tail, hcalls, hkeyless, hbreaks, hreason, ⟨?_, ?_⟩, ?_⟩
  · rintro ⟨dispatch, answer, hmem, hbody⟩
    obtain ⟨pair, offered, hoffered⟩ :=
      hbreaks.handsOut_iff.mp ⟨dispatch, answer,
        (hhandled (.sent dispatch answer) hbody).mp hmem, hbody⟩
    exact ⟨pair, offered, (hhandled _ rfl).mpr hoffered⟩
  · rintro ⟨pair, offered, hmem⟩
    obtain ⟨dispatch, answer, hsent, hbody⟩ :=
      hbreaks.handsOut_iff.mpr ⟨pair, offered, (hhandled _ rfl).mp hmem⟩
    exact ⟨dispatch, answer, (hhandled (.sent dispatch answer) hbody).mpr hsent, hbody⟩
  · rw [hhistories]
    exact hbreaks.histories_cases (histories world.outside)

/-- We remove the other member of our group, and the ledger of groups fails at the commit of the
rotation: the report says that the rotation failed, while its pair is the one on file. -/
theorem failed_rotation_distributes_iff_offered_of_commit :
    let backend := (Ledgers.backend Environment.still).armed
    let world : World (Armed (Local Unit)) := ⟨InFlight.empty,
      (Armed.unarmed ⟨Ledgers.sample, ()⟩).setFault .commit (some ⟨1, .backend "disk full"⟩)⟩
    ∃ report after pair, (edit backend.traced Config.sample StoredGroup.sample.id "friends"
        [Config.sample.account]).exec world.traced = (.ok report, after) ∧
      report.rotation = some (.failed "Storage error: Storage backend error: disk full") ∧
      (∃ dispatch answer, .sent dispatch answer ∈ after.calls ∧
        dispatch.message.body.handsKeyOut = true) ∧
      after.outside.outside.outside.ledgers.keys.history StoredGroup.sample.id =
        [KeyPair.toRow pair] := by
  intro backend world
  have hends : ((edit backend.traced Config.sample StoredGroup.sample.id "friends"
      [Config.sample.account]).exec world.traced).1.toOption.bind EditReport.rotation =
        some (.failed "Storage error: Storage backend error: disk full") ∧
      ((edit backend.traced Config.sample StoredGroup.sample.id "friends"
        [Config.sample.account]).exec world.traced).2.outside.outside.outside.ledgers.keys.history
          StoredGroup.sample.id ≠ [] := by
    decide +kernel
  rcases hexec : (edit backend.traced Config.sample StoredGroup.sample.id "friends"
    [Config.sample.account]).exec world.traced with ⟨e | report, after⟩ <;> rw [hexec] at hends
  · cases hends.1
  · obtain ⟨hfailed, hfiled⟩ := hends
    obtain ⟨front, _, tail, hcalls, _, _, _, hiff, hcases⟩ :=
      failed_rotation_distributes_iff_offered
        (Backend.KeepsPairs.armed (Environment.keepsPairs Environment.still))
        (Ledgers.files Environment.still).armed hexec hfailed
    rcases hcases with hsame | ⟨pair, new, cause, hsuffix, hhistories⟩
    · exact absurd (congrFun hsame StoredGroup.sample.id) hfiled
    · -- the pair on file was offered, and so it was handed out
      have hoffered : .pairAdded StoredGroup.sample.id pair (.ok new) ∈ after.calls := by
        rw [hcalls]
        exact List.mem_append_left _ (List.mem_append_right _ (hsuffix.subset List.mem_cons_self))
      refine ⟨report, after, pair, rfl, hfailed, hiff.mpr ⟨pair, _, hoffered⟩, ?_⟩
      exact (congrFun hhistories StoredGroup.sample.id).trans
        (KeyHistories.file_of_not_mem List.not_mem_nil)

end Service

end SealedGroup
