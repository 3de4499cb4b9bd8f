import SealedGroup.Proofs.Service.Trace
import SealedGroup.Service.Edit

/-!
# The order of what an edit does

An edit records first and delivers afterwards, and this is so whatever the backend does and
whichever of its calls fail. Each call has a rank, and no call of an edit is made after one of
the same or of a higher rank, except for those that may be made at any time, which have none.
And before each call there is what it is due: a message after the roster is written and the
notice is recorded, a key after the removal is confirmed, and the history of pairs after the key
is confirmed (`Orderly`).

Each step of an edit takes an orderly trace to an orderly one, and says how far the ranks have
got; so the trace of a whole edit is orderly, and `Service.edit_records_before_delivery` reads
off what that means.

## Ranks and dues

The two conditions do different things. Ranks say that nothing happens twice: a call of a rank
raises the bar above itself, so there is one roster, one notice, one key and one pair at most.
Dues say what has happened before, and since a trace only grows, what was once there remains
(`RosterWritten.lasts` and its like).

That a pair is stored only after its own key was confirmed needs the attempt to be the one that
was sent. While a message is on its way the registry is in the hands of others, and the
identifier of an attempt is all that is compared when the answer comes. So the backend has to
keep the pairs of attempts (`Backend.KeepsPairs`): nobody registers another pair under an
identifier that is in use.
-/

namespace SealedGroup

/-- **The state is the one that an edit proposes** for the group that was loaded. -/
structure StoredGroup.Proposed (current : StoredGroup) (name : String)
    (members : List Identifier) (state : StoredGroup) : Prop where
  named : state.name = name
  roster : state.members = Roster.ofList members
  /-- The zombies that are members no longer are dropped. -/
  dropped : state.zombies = current.zombies.intersection (Roster.ofList members)
  kept : current.admins ≠ [] → state.admins = current.admins

/-- Whatever state is updated, it becomes the proposed one. -/
theorem StoredGroup.proposed_updated (current stored : StoredGroup) (group : Identifier)
    (name : String) (members : List Identifier) (activeAt : Int64) :
    current.Proposed name members
      (stored.updated (current.edited group name members activeAt)) where
  named := rfl
  roster := Roster.ofList_toList _
  dropped := Roster.ofList_toList _
  kept := fun hadmins => if_neg fun hempty => hadmins (List.isEmpty_iff.mp hempty)

/-- **An attempt keeps its pair**, whatever happens to the registry while a message is on
its way: no other attempt goes by its identifier. -/
def Backend.KeepsPairs {σ : Type} (backend : Backend σ) : Prop :=
  ∀ {dispatch : Dispatch} {world : World σ} {group : Identifier} {attempt attempt' : Attempt},
    world.inFlight.get? group = some attempt →
      (backend.send dispatch world).2.inFlight.get? group = some attempt' →
        attempt'.id = attempt.id → attempt' = attempt

/-- The backend over ledgers in memory keeps them. -/
theorem Environment.keepsPairs {ε : Type} (environment : Environment ε) :
    (Ledgers.backend environment).KeepsPairs :=
  environment.distinct

/-- **The rank of a call.** Calls without a rank may be made at any time, and again. -/
def Call.rank : Call → Nat
  | loaded .. | committed .. | pairRead .. => 0
  | saved .. => 1
  | noticed .. => 2
  | drew _ => 3
  | sent dispatch _ => if dispatch.message.body.handsKeyOut then 4 else 0
  | pairAdded .. => 5

/-! ## What a trace tells -/

/-- The new roster is written. -/
def RosterWritten (calls : List Call) : Prop :=
  ∃ state, .saved state (.ok ()) ∈ calls

/-- The new roster is written, and the notice is recorded. -/
def ChangeRecorded (calls : List Call) : Prop :=
  RosterWritten calls ∧ ∃ notice, .noticed notice (.ok ()) ∈ calls

/-- The message of a removal is confirmed. -/
def RemovalConfirmed (calls : List Call) : Prop :=
  ∃ dispatch ids messageId,
    .sent dispatch (.ok messageId) ∈ calls ∧ dispatch.message.body = .removal ids

/-- The message that hands a pair out is confirmed, and the pair was drawn before. -/
def KeyConfirmed (group : Identifier) (pair : KeyPair) (calls : List Call) : Prop :=
  .drew pair.secret ∈ calls ∧ ∃ dispatch wrappers messageId,
    .sent dispatch (.ok messageId) ∈ calls ∧ dispatch.recipient = .group group ∧
      dispatch.message.body = .keyPair wrappers ∧
      ∀ wrapper ∈ wrappers, Wrapper.Seals pair wrapper.recipient wrapper

section

variable {calls calls' : List Call}

theorem RosterWritten.lasts (hgrown : calls <+: calls') : RosterWritten calls → RosterWritten calls'
  | ⟨state, hmem⟩ => ⟨state, hgrown.subset hmem⟩

theorem ChangeRecorded.lasts (hgrown : calls <+: calls') :
    ChangeRecorded calls → ChangeRecorded calls'
  | ⟨hwritten, notice, hmem⟩ => ⟨hwritten.lasts hgrown, notice, hgrown.subset hmem⟩

theorem RemovalConfirmed.lasts (hgrown : calls <+: calls') :
    RemovalConfirmed calls → RemovalConfirmed calls'
  | ⟨dispatch, ids, messageId, hmem, hbody⟩ =>
    ⟨dispatch, ids, messageId, hgrown.subset hmem, hbody⟩

end

section

variable (group : Identifier) (name : String) (members : List Identifier)

/-- **What a call is due**, given the trace before it. -/
def Due (calls : List Call) : Call → Prop
  | .saved state _ => ∃ current, [.loaded group (.ok (some current))] <+: calls ∧
      current.Proposed name members state
  | .sent dispatch _ => ChangeRecorded calls ∧
      (dispatch.message.body.handsKeyOut = true → RemovalConfirmed calls)
  | .pairAdded id pair _ => KeyConfirmed id pair calls
  | .loaded .. | .committed .. | .pairRead .. | .noticed .. | .drew _ => True

/-- **A trace in which each call comes in its turn**, after what it is due. -/
inductive Orderly : List Call → Prop where
  | nil : Orderly []
  | concat {calls : List Call} {call : Call} (h : Orderly calls)
      (hturn : call.rank = 0 ∨ ∀ earlier ∈ calls, earlier.rank < call.rank)
      (hdue : Due group name members calls call) : Orderly (calls ++ [call])

/-- The trace is orderly, and no call is of a higher rank than the given one. -/
structure Reached (rank : Nat) (calls : List Call) : Prop where
  orderly : Orderly group name members calls
  rank_le : ∀ call ∈ calls, call.rank ≤ rank

variable {group name members} {calls before after : List Call} {call : Call}

/-- **Each call of an orderly trace had what it is due.** -/
theorem Orderly.due (h : Orderly group name members calls)
    (hsplit : calls = before ++ call :: after) : Due group name members before call := by
  induction h generalizing after with
  | nil => exact absurd hsplit.symm (List.append_ne_nil_of_right_ne_nil _ (List.cons_ne_nil _ _))
  | concat _ _ hdue ih =>
    -- the call is the last one, or it was there before the last one came
    rcases List.eq_nil_or_concat' after with rfl | ⟨front, last, rfl⟩
    · obtain ⟨rfl, hlast⟩ := List.append_inj' hsplit rfl
      cases hlast
      exact hdue
    · rw [← List.cons_append, ← List.append_assoc] at hsplit
      exact ih (List.append_inj' hsplit rfl).1

/-- **At most one call of an orderly trace has a given rank**, if it is a rank. -/
theorem Orderly.countP_le_one (h : Orderly group name members calls) {p : Call → Bool} (rank : Nat)
    (hrank : 0 < rank) (hp : ∀ call, p call = true → call.rank = rank) : calls.countP p ≤ 1 := by
  induction h with
  | nil => exact Nat.zero_le 1
  | @concat calls call _ hturn _ ih =>
    rw [List.countP_append, List.countP_singleton]
    cases hcall : p call with
    | false => exact ih
    | true =>
      -- then none of the calls before is of this rank
      have hnone : calls.countP p = 0 := by
        rw [List.countP_eq_zero]
        intro earlier hearlier hpearlier
        have hlt := (hturn.resolve_left (by rw [hp call hcall]; omega)) earlier hearlier
        rw [hp call hcall, hp earlier hpearlier] at hlt
        exact Nat.lt_irrefl rank hlt
      rw [hnone]
      exact Nat.le_refl 1

/-- One more call of an orderly trace. -/
theorem Reached.concat {rank rank' : Nat} (h : Reached group name members rank calls)
    (hturn : call.rank = 0 ∨ rank < call.rank) (hdue : Due group name members calls call)
    (hle : rank ≤ rank') (hcall : call.rank ≤ rank') :
    Reached group name members rank' (calls ++ [call]) where
  orderly := h.orderly.concat
    (hturn.imp_right fun hlt earlier hearlier =>
      Nat.lt_of_le_of_lt (h.rank_le earlier hearlier) hlt) hdue
  rank_le := by
    intro other hother
    rcases List.mem_append.mp hother with hold | hnew
    · exact Nat.le_trans (h.rank_le other hold) hle
    · rwa [List.mem_singleton.mp hnew]

end

/-! ## The steps of an edit -/

open Act (Triple)

section

variable {σ α : Type} {group : Identifier} {name : String} {members : List Identifier}
  {rank : Nat} {F : List Call → Prop}

/-- **The trace has come so far**, and something holds of it. -/
def Progress (group : Identifier) (name : String) (members : List Identifier) (rank : Nat)
    (F : List Call → Prop) (_ : InFlight) (calls : List Call) : Prop :=
  Reached group name members rank calls ∧ F calls

/-- The trace is orderly. -/
def InOrder (group : Identifier) (name : String) (members : List Identifier) (_ : InFlight)
    (calls : List Call) : Prop :=
  Orderly group name members calls

theorem Progress.inOrder {r : InFlight} {calls : List Call}
    (h : Progress group name members rank F r calls) : InOrder group name members r calls :=
  h.1.orderly

/-- **A ledger is called in its turn**, once the call has what it is due. -/
theorem Progress.ledger (rank' : Nat)
    (hF : ∀ {calls calls'}, calls <+: calls' → F calls → F calls')
    {call : Except LedgerError α → Call} {action : StateM σ (Except LedgerError α)}
    (hturn : ∀ answer, (call answer).rank = 0 ∨ rank < (call answer).rank)
    (hle : rank ≤ rank') (hcall : ∀ answer, (call answer).rank ≤ rank')
    (hdue : ∀ calls answer, F calls → Due group name members calls (call answer)) :
    Triple (Progress group name members rank F) (Act.ledger (Traced.entered call action))
      (fun a => Progress group name members rank' fun calls => F calls ∧ call (.ok a) ∈ calls)
      (InOrder group name members) := by
  refine .ledger (fun r calls a hprogress => ?_) (fun r calls e hprogress => ?_)
  · exact ⟨hprogress.1.concat (hturn _) (hdue _ _ hprogress.2) hle (hcall _),
      hF (List.prefix_append ..) hprogress.2,
      List.mem_append_right _ (List.mem_singleton.mpr rfl)⟩
  · exact (hprogress.1.concat (hturn _) (hdue _ _ hprogress.2) hle (hcall _)).orderly

/-- A ledger is called in a way that may be at any time. -/
theorem Progress.anytime (hF : ∀ {calls calls'}, calls <+: calls' → F calls → F calls')
    {call : Except LedgerError α → Call} {action : StateM σ (Except LedgerError α)}
    (hrank : ∀ answer, (call answer).rank = 0)
    (hdue : ∀ calls answer, Due group name members calls (call answer)) :
    Triple (Progress group name members rank F) (Act.ledger (Traced.entered call action))
      (fun _ => Progress group name members rank F) (InOrder group name members) := by
  refine (Progress.ledger rank hF (fun answer => .inl (hrank answer)) (Nat.le_refl rank)
    (fun answer => ?_) fun calls answer _ => hdue calls answer).mono (fun _ _ h => h)
    (fun _ _ _ h => ⟨h.1, h.2.1⟩) fun _ _ h => h
  rw [hrank]
  exact Nat.zero_le rank

end

namespace Service

variable {σ : Type} (backend : Backend σ) (config : Config) {group : Identifier} {name : String}
  {members : List Identifier} {rank : Nat} {F : List Call → Prop}
  {E : InFlight → List Call → Prop}

/-- A commit may be made at any time. -/
theorem order_commit (id : Identifier) :
    Triple (InOrder group name members) (Act.ledger (backend.traced.commit id))
      (fun _ => InOrder group name members) (InOrder group name members) :=
  .ledger (fun _ _ _ horder => horder.concat (.inl rfl) trivial)
    fun _ _ _ horder => horder.concat (.inl rfl) trivial

/-- Vetting only reads. -/
theorem order_vet (hF : ∀ {calls calls'}, calls <+: calls' → F calls → F calls')
    (current : StoredGroup) (snapshot : GroupSnapshot) (change : Change) :
    Triple (Progress group name members rank F)
      (vet backend.traced config current snapshot change)
      (fun _ => Progress group name members rank F) (InOrder group name members) := by
  unfold vet
  cases change with
  | removed ids =>
    dsimp only
    split
    · exact .throw fun _ _ h => h.inOrder
    · split
      · exact .throw fun _ _ h => h.inOrder
      · exact .pure fun _ _ h => h
  | added ids withHistory =>
    refine .bind (Progress.anytime hF (fun _ => rfl) fun _ _ => trivial) fun pair? => ?_
    cases pair? with
    | none => exact .throw fun _ _ h => h.inOrder
    | some pair => exact .pure fun _ _ h => h
  | renamed newName => exact .pure fun _ _ h => h
  | unchanged => exact .pure fun _ _ h => h

/-- **The proposed roster is written**, and nothing else is. -/
theorem order_upsert (current : StoredGroup) (activeAt : Int64) :
    Triple (Progress group name members 0 fun calls =>
        [.loaded group (.ok (some current))] <+: calls)
      (upsert backend.traced (current.edited group name members activeAt))
      (fun _ => Progress group name members 1 RosterWritten) (InOrder group name members) := by
  unfold upsert
  refine .bind (Progress.anytime (fun hgrown h => h.trans hgrown) (fun _ => rfl)
    fun _ _ => trivial) fun stored => ?_
  refine .bind (Progress.ledger 1 (fun hgrown h => h.trans hgrown)
    (fun _ => .inr Nat.one_pos) (Nat.zero_le 1) (fun _ => Nat.le_refl 1) fun calls answer hloaded =>
      ⟨current, hloaded, current.proposed_updated _ group name members activeAt⟩) fun _ => ?_
  refine .weaken (.bind (Progress.anytime RosterWritten.lasts (fun _ => rfl) fun _ _ => trivial)
    fun _ => .pure fun _ _ h => h) fun _ _ h => ⟨h.1, ⟨_, h.2.2⟩⟩

/-- **The notice is recorded** once the roster is written. -/
theorem order_recordNotice (conversation : Identifier) (announcement : Announcement)
    (sender : Identifier) (sentAt : Int64) (update : Option ExpirationUpdate) :
    Triple (Progress group name members 1 RosterWritten)
      (recordNotice backend.traced config conversation announcement sender sentAt update)
      (fun _ => Progress group name members 2 ChangeRecorded) (InOrder group name members) := by
  unfold recordNotice
  refine .bind .silently fun id => ?_
  refine .bind (Progress.ledger 2 RosterWritten.lasts
    (fun _ => .inr (Nat.lt_succ_self 1)) (Nat.le_succ 1) (fun _ => Nat.le_refl 2)
    fun _ _ _ => trivial) fun _ => ?_
  exact .pure fun _ _ h => ⟨h.1, h.2.1, _, h.2.2⟩

/-- **A message goes out** once the change is recorded. -/
theorem order_deliver {dispatch : Dispatch} (hbody : dispatch.message.body.handsKeyOut = false) :
    Triple (Progress group name members 2 ChangeRecorded) (deliver backend.traced dispatch)
      (fun record => Progress group name members 2 fun calls => ChangeRecorded calls ∧
        (record.isConfirmed = true → ∃ messageId, .sent dispatch (.ok messageId) ∈ calls)) E := by
  have hrank : ∀ answer, (Call.sent dispatch answer).rank = 0 := fun _ => by
    rw [Call.rank, hbody]
    rfl
  unfold deliver
  refine .bind (.send fun r s calls hprogress => ?_) fun answer => .pure fun _ _ h => h
  generalize (backend.send dispatch ⟨r, s⟩).1 = answer
  refine ⟨hprogress.1.concat (.inl (hrank answer)) ⟨hprogress.2, fun hkey => ?_⟩ (Nat.le_refl 2)
    (by rw [hrank]; exact Nat.zero_le 2), hprogress.2.lasts (List.prefix_append ..), ?_⟩
  · rw [hbody] at hkey
    cases hkey
  · intro hconfirmed
    cases answer with
    | error e => cases hconfirmed
    | ok messageId => exact ⟨messageId, List.mem_append_right _ (List.mem_singleton.mpr rfl)⟩

/-- Any number of messages goes out once the change is recorded. -/
theorem order_deliverAll {dispatches : List Dispatch}
    (hbodies : ∀ dispatch ∈ dispatches, dispatch.message.body.handsKeyOut = false) :
    Triple (Progress group name members 2 ChangeRecorded) (deliverAll backend.traced dispatches)
      (fun _ => Progress group name members 2 ChangeRecorded) E := by
  induction dispatches with
  | nil => exact .pure fun _ _ h => h
  | cons dispatch rest ih =>
    obtain ⟨hbody, hrest⟩ := List.forall_mem_cons.mp hbodies
    refine .bind (order_deliver backend hbody) fun record => ?_
    exact .weaken (.bind (ih hrest) fun _ => .pure fun _ _ h => h) fun _ _ h => ⟨h.1, h.2.1⟩

/-! ### The rotation -/

/-- **A key is due**: the change is recorded, and its removal is confirmed. -/
def KeyDue (calls : List Call) : Prop :=
  ChangeRecorded calls ∧ RemovalConfirmed calls

theorem KeyDue.lasts {calls calls' : List Call} (hgrown : calls <+: calls') :
    KeyDue calls → KeyDue calls'
  | ⟨hrecorded, hconfirmed⟩ => ⟨hrecorded.lasts hgrown, hconfirmed.lasts hgrown⟩

/-- **A rotation may be committed**: its message is confirmed, and if its attempt is still
registered, then with its pair. -/
def Confirmable (group : Identifier) (name : String) (members : List Identifier)
    (pending : Rotation.Pending) (r : InFlight) (calls : List Call) : Prop :=
  Progress group name members 4 (KeyConfirmed pending.groupId pending.pair) r calls ∧
    ∀ pair, r.get? pending.groupId = some ⟨pending.attempt, pair⟩ → pair = pending.pair

/-- **The pair of a confirmed rotation is stored**, if its attempt is current. -/
theorem order_settle (pending : Rotation.Pending) :
    Triple (Confirmable group name members pending) (Rotation.settle backend.traced pending)
      (fun _ => InOrder group name members) (InOrder group name members) := by
  -- whatever the ledger answers, it is called in its turn
  have horder : ∀ r calls pair answer, Confirmable group name members pending r calls →
      r.get? pending.groupId = some ⟨pending.attempt, pair⟩ → InOrder group name members r
        (calls ++ [.pairAdded pending.groupId pair answer]) := by
    rintro r calls pair answer ⟨⟨hreached, hconfirmed⟩, hpair⟩ hget
    have hnext : Reached group name members 5
        (calls ++ [.pairAdded pending.groupId pending.pair answer]) :=
      hreached.concat (.inr (Nat.lt_succ_self 4)) hconfirmed (Nat.le_succ 4) (Nat.le_refl 5)
    rw [hpair pair hget]
    exact hnext.orderly
  exact .settle (fun _ _ h => h.1.inOrder) (fun r calls pair added => horder r calls pair _)
    fun r calls pair e => horder r calls pair _

/-- **A rotation that follows a removal** sends its message in order, and stores its pair
in order. -/
theorem order_run (hbackend : backend.KeepsPairs) (id : Identifier) (targets : List Identifier)
    (requesterIsAdmin : Bool) :
    Triple (Progress group name members 2 KeyDue)
      (Rotation.run backend.traced config id targets requesterIsAdmin)
      (fun _ => InOrder group name members) (InOrder group name members) := by
  unfold Rotation.run
  refine .bind (.prepare (D := fun calls => Reached group name members 3 calls ∧ KeyDue calls)
    (Progress.anytime KeyDue.lasts (fun _ => rfl) fun _ _ => trivial)
    (fun r calls secret h => ⟨h.1.concat (.inr (Nat.lt_succ_self 2)) trivial (Nat.le_succ 2)
      (Nat.le_refl 3), h.2.lasts (List.prefix_append ..)⟩)
    (fun _ _ h => h.1.orderly) config targets requesterIsAdmin) fun prepared => ?_
  cases prepared with
  | skipped outcome => exact .pure fun _ _ h => (h.1 outcome rfl).inOrder
  | ready pending =>
    dsimp only
    refine .bind (Q := fun answer r calls => InOrder group name members r calls ∧
      ∀ messageId, answer = .ok messageId → Confirmable group name members pending r calls)
      (.send fun r s calls h => ?_) fun answer => ?_
    · obtain ⟨⟨hreached, hdue⟩, rfl, hregistered, hdrawn, wrappers, hbody, hseals⟩ :=
        h.2 pending rfl
      generalize hsent : backend.send (.toGroup pending.groupId pending.message) ⟨r, s⟩ = sent
      have hrank : (Call.sent (.toGroup pending.groupId pending.message) sent.1).rank = 4 :=
        if_pos (Message.handsKeyOut_of_body hbody)
      have hnext : Reached group name members 4
          (calls ++ [.sent (.toGroup pending.groupId pending.message) sent.1]) :=
        hreached.concat (.inr (by rw [hrank]; exact Nat.lt_succ_self 3))
          ⟨hdue.1, fun _ => hdue.2⟩ (Nat.le_succ 3) (Nat.le_of_eq hrank)
      refine ⟨hnext.orderly, fun messageId hanswer => ⟨⟨hnext, ?_⟩, fun pair hget => ?_⟩⟩
      · refine ⟨List.mem_append_left _ hdrawn, .toGroup pending.groupId pending.message, wrappers,
          messageId, List.mem_append_right _ (List.mem_singleton.mpr ?_), rfl, hbody, hseals⟩
        rw [hanswer]
      · rw [← hsent] at hget
        have hkept : (⟨pending.attempt, pair⟩ : Attempt) = ⟨pending.attempt, pending.pair⟩ :=
          hbackend hregistered hget rfl
        exact congrArg Attempt.pair hkept
    · cases answer with
      | error error => exact .pure fun _ _ h => h.1
      | ok messageId =>
        exact .weaken (.confirm (order_settle backend pending) (order_commit backend _))
          fun r calls h => h.2 messageId rfl

/-! ### The announcement -/

/-- A removal is announced in order, and so is the key that follows it. -/
theorem order_announceRemoval (hbackend : backend.KeepsPairs) (current : StoredGroup)
    (snapshot : GroupSnapshot) (ids : List Identifier) (identifier : String) :
    Triple (Progress group name members 2 ChangeRecorded)
      (announceRemoval backend.traced config current snapshot ids identifier)
      (fun _ => InOrder group name members) (InOrder group name members) := by
  unfold announceRemoval
  refine .bind (.networkTime backend config) fun createdAt =>
    .bind (order_deliver backend rfl) fun record => ?_
  split
  · next hconfirmed =>
    -- the key is due now that the removal is confirmed
    refine .weaken (.bind (.tryCatch (order_run backend config hbackend _ _ _) fun _ =>
      .pure fun _ _ h => h) fun _ => .pure fun _ _ h => h) fun r calls h => ?_
    obtain ⟨messageId, hsent⟩ := h.2.2 hconfirmed
    exact ⟨h.1, h.2.1, _, ids, messageId, hsent, rfl⟩
  · exact .pure fun _ _ h => h.inOrder

/-- **A change is announced in order.** -/
theorem order_announce (hbackend : backend.KeepsPairs) (current : StoredGroup)
    (snapshot : GroupSnapshot) (change : Change) (pair : Option KeyPair) (identifier : String) :
    Triple (Progress group name members 2 ChangeRecorded)
      (announce backend.traced config current snapshot change pair identifier)
      (fun _ => InOrder group name members) (InOrder group name members) := by
  unfold announce
  split
  · refine .bind (Q := fun _ => InOrder group name members) ?_ fun _ => .pure fun _ _ h => h
    exact .bind (.networkTime backend config) fun createdAt =>
      .bind (order_deliver backend rfl) fun record => .pure fun _ _ h => h.inOrder
  · next ids withHistory pair =>
    refine .bind (Q := fun _ => InOrder group name members) ?_ fun _ => .pure fun _ _ h => h
    refine .bind (.networkTime backend config) fun createdAt =>
      .bind (order_deliver backend rfl) fun record => .bind (.networkTime backend config)
        fun createdAt => .bind (.weaken (order_deliverAll backend ?_) fun _ _ h => ⟨h.1, h.2.1⟩)
          fun records => .pure fun _ _ h => h.inOrder
    intro dispatch hmem
    obtain ⟨id, _, rfl⟩ := List.mem_map.mp hmem
    rfl
  · exact order_announceRemoval backend config hbackend current snapshot _ identifier
  · exact .pure fun _ _ h => h.inOrder
  · exact .pure fun _ _ h => h.inOrder

/-- A change whose roster is written is published in order. -/
theorem order_publish (hbackend : backend.KeepsPairs) (current : StoredGroup)
    (snapshot : GroupSnapshot) (change : Change) (pair : Option KeyPair) :
    Triple (Progress group name members 1 RosterWritten)
      (publish backend.traced config current snapshot change pair)
      (fun _ => InOrder group name members) (InOrder group name members) := by
  unfold publish
  split
  · exact .weaken (.bind (order_commit backend _) fun _ => .pure fun _ _ h => h)
      fun _ _ h => h.inOrder
  · refine .bind .silently fun sentAt => .bind (order_recordNotice backend config _ _ _ _ _)
      fun notice => .bind (order_announce backend config hbackend current snapshot change pair _)
        fun announced => ?_
    exact .bind (order_commit backend _) fun _ => .pure fun _ _ h => h

/-- **A whole edit is in order.** -/
theorem order_edit (hbackend : backend.KeepsPairs) :
    Triple (fun _ calls => calls = []) (edit backend.traced config group name members)
      (fun _ => InOrder group name members) (InOrder group name members) := by
  have hstart : InOrder group name members InFlight.empty [] := .nil
  unfold edit
  split
  · exact .throw fun r calls h => h ▸ hstart
  · refine .bind (Q := fun stored => Progress group name members 0 fun calls =>
      [.loaded group (.ok stored)] <+: calls) ?_ fun stored => ?_
    · have hload : ∀ answer, Reached group name members 0 [.loaded group answer] := fun answer =>
        Reached.concat ⟨.nil, fun call hmem => absurd hmem List.not_mem_nil⟩ (.inl rfl) trivial
          (Nat.le_refl 0) (Nat.le_refl 0)
      refine .ledger (fun r calls stored h => ?_) (fun r calls e h => ?_)
      · rw [h]
        exact ⟨hload _, List.prefix_rfl⟩
      · rw [h]
        exact (hload _).orderly
    · cases stored with
      | none => exact .throw fun _ _ h => h.inOrder
      | some current =>
        dsimp only
        split
        · exact .throw fun _ _ h => h.inOrder
        · refine .bind .silently fun activeAt => .bind (order_vet backend config
            (fun hgrown h => h.trans hgrown) current _ _) fun pair => ?_
          exact .bind (order_upsert backend current activeAt) fun _ =>
            order_publish backend config hbackend current _ _ pair

/-! ## What the order means -/

/-- **What is recorded comes first, and what is delivered comes after it.** -/
structure RecordsFirst (group : Identifier) (name : String) (members : List Identifier)
    (calls : List Call) : Prop where
  /-- Before any message the roster is written and the notice is recorded. -/
  delivers : ∀ before dispatch answer after, calls = before ++ .sent dispatch answer :: after →
    (∃ state, .saved state (.ok ()) ∈ before) ∧ ∃ notice, .noticed notice (.ok ()) ∈ before
  /-- Before a key is handed out a removal is confirmed. -/
  rekeys : ∀ before dispatch answer after wrappers,
    calls = before ++ .sent dispatch answer :: after → dispatch.message.body = .keyPair wrappers →
      ∃ removal ids messageId, .sent removal (.ok messageId) ∈ before ∧
        removal.message.body = .removal ids
  /-- Before a pair is stored the message is confirmed that hands out just this pair, which
  was drawn for it. -/
  stores : ∀ before id pair answer after, calls = before ++ .pairAdded id pair answer :: after →
    .drew pair.secret ∈ before ∧ ∃ dispatch wrappers messageId,
      .sent dispatch (.ok messageId) ∈ before ∧ dispatch.recipient = .group id ∧
        dispatch.message.body = .keyPair wrappers ∧
        ∀ wrapper ∈ wrappers, Wrapper.Seals pair wrapper.recipient wrapper
  /-- No roster is written but the proposed one. -/
  writes : ∀ state answer, .saved state answer ∈ calls →
    ∃ current, calls.head? = some (.loaded group (.ok (some current))) ∧
      current.Proposed name members state
  /-- There is at most one write, one notice, one pair drawn and handed out, and one
  stored. -/
  once : (calls.countP fun call => call matches .saved ..) ≤ 1 ∧
    (calls.countP fun call => call matches .noticed ..) ≤ 1 ∧
    (calls.countP fun call => call matches .drew _) ≤ 1 ∧
    (calls.countP fun call => call matches .sent ⟨_, ⟨_, _, _, _, .keyPair _⟩, _⟩ _) ≤ 1 ∧
    (calls.countP fun call => call matches .pairAdded ..) ≤ 1

/-- **An edit records first and delivers afterwards**, whatever the backend does, and
whichever of its calls fail. -/
theorem edit_records_before_delivery (hbackend : backend.KeepsPairs) (world : World σ) :
    RecordsFirst group name members
      ((edit backend.traced config group name members).exec world.traced).2.calls := by
  have horder : Orderly group name members
      ((edit backend.traced config group name members).exec world.traced).2.calls :=
    (order_edit backend config hbackend).of_exec rfl
  generalize ((edit backend.traced config group name members).exec world.traced).2.calls = calls
    at horder
  refine ⟨fun before dispatch answer after hsplit => (horder.due hsplit).1,
    fun before dispatch answer after wrappers hsplit hbody => (horder.due hsplit).2 ?_,
    fun before id pair answer after hsplit => horder.due hsplit, fun state answer hmem => ?_, ?_⟩
  · rw [hbody]
    rfl
  · obtain ⟨before, after, rfl⟩ := List.append_of_mem hmem
    obtain ⟨current, ⟨rest, rfl⟩, hproposed⟩ := horder.due rfl
    exact ⟨current, rfl, hproposed⟩
  · -- each of these kinds of calls has a rank to itself
    refine ⟨horder.countP_le_one 1 (Nat.succ_pos 0) ?_, horder.countP_le_one 2 (Nat.succ_pos 1) ?_,
      horder.countP_le_one 3 (Nat.succ_pos 2) ?_, horder.countP_le_one 4 (Nat.succ_pos 3) ?_,
      horder.countP_le_one 5 (Nat.succ_pos 4) ?_⟩
    all_goals
      intro call hcall
      split at hcall
      · rfl
      · cases hcall

/-- We remove the other member of our group: the removal is sent, then the key, and then
its pair is stored. -/
theorem edit_records_before_delivery_of_removal :
    ∃ calls, ((edit (Ledgers.backend Environment.still).traced Config.sample
        StoredGroup.sample.id "friends" [Config.sample.account]).exec
          (World.traced ⟨InFlight.empty, ⟨Ledgers.sample, ()⟩⟩)).2.calls = calls ∧
      RecordsFirst StoredGroup.sample.id "friends" [Config.sample.account] calls ∧
      (calls.countP fun call => call matches .sent ..) = 2 ∧
      (calls.countP fun call => call matches .pairAdded _ _ (.ok true)) = 1 := by
  refine ⟨_, rfl, edit_records_before_delivery (Ledgers.backend Environment.still) Config.sample
    (Environment.keepsPairs Environment.still) ⟨InFlight.empty, ⟨Ledgers.sample, ()⟩⟩, ?_⟩
  decide +kernel

end Service

end SealedGroup
