import SealedGroup.Proofs.Rotation.Steps
import SealedGroup.Service.Edit

/-!
# Two runs of one operation

An operation on a group asks its backend for what concerns this group, for the time, and for
fresh identifiers, secrets and coins. Two backends that answer all of that alike in worlds that
are related in some way, and leave the worlds so related, cannot be told apart by the operation.

`Act.Alike` says of two operations that they give the same result in related worlds and leave
the worlds related, and `Backend.Alike` says of two backends what makes it so. It holds then of
all that the service does for the group: of a rotation and each of its steps, of an upsert, of a
notice, and of a whole edit (`Backend.Alike.edit`).

The two worlds may be of different types, and the relation between them is a parameter. So one
and the same walk through the service serves for different ends: that other groups do not matter
(`Service.groups_are_independent`), where the worlds agree on the share of one group, and that a
record does not (`Ledgers.alike_recorded`), where one world has something that the other lacks.

## What an operation may rely on

An operation may only ask for its own group, and whether it does is not always seen from its
text: an edit reads the pair of the group that it has *loaded*, under the identifier found
there, and a confirmation settles the attempt of the rotation that it is *given*. So a loaded
group has to be filed under the right identifier (`Backend.Alike.bind_loadGroup`), and a
prepared rotation has to be one of its group (`Rotation.gives_prepare`). `Act.Gives` is the
notion for the second kind of fact, a property of every value that an operation gives.
-/

namespace SealedGroup

variable {σ δ α β : Type}

namespace Act

/-- **Two operations run alike**: from related worlds they give the same result, and the worlds
after them are related. -/
def Alike (R : World σ → World δ → Prop) (act : Act σ α) (act' : Act δ α) : Prop :=
  ∀ world world', R world world' →
    (act'.exec world').1 = (act.exec world).1 ∧ R (act.exec world).2 (act'.exec world').2

section

variable {R : World σ → World δ → Prop}

theorem Alike.pure (a : α) : Alike R (Pure.pure a : Act σ α) (Pure.pure a : Act δ α) :=
  fun _ _ h => ⟨rfl, h⟩

theorem Alike.throw (e : ServiceError) :
    Alike R (MonadExcept.throw e : Act σ α) (MonadExcept.throw e : Act δ α) :=
  fun _ _ h => ⟨rfl, h⟩

/-- One operation after another, where the second one may rely on what the first one gives. -/
theorem Alike.bind_of {act : Act σ α} {act' : Act δ α} {next : α → Act σ β} {next' : α → Act δ β}
    {P : α → Prop} (hact : Alike R act act')
    (hgives : ∀ world world', R world world' → ∀ a, (act.exec world).1 = .ok a → P a)
    (hnext : ∀ a, P a → Alike R (next a) (next' a)) :
    Alike R (act >>= next) (act' >>= next') := by
  intro world world' h
  obtain ⟨hresult, hafter⟩ := hact world world' h
  have hgiven := hgives world world' h
  rw [exec_bind, exec_bind]
  generalize act.exec world = ran at hresult hafter hgiven ⊢
  generalize act'.exec world' = ran' at hresult hafter ⊢
  obtain ⟨result, after⟩ := ran
  obtain ⟨result', after'⟩ := ran'
  cases hresult
  cases result with
  | error e => exact ⟨rfl, hafter⟩
  | ok a => exact hnext a (hgiven a rfl) after after' hafter

theorem Alike.bind {act : Act σ α} {act' : Act δ α} {next : α → Act σ β} {next' : α → Act δ β}
    (hact : Alike R act act') (hnext : ∀ a, Alike R (next a) (next' a)) :
    Alike R (act >>= next) (act' >>= next') :=
  hact.bind_of (P := fun _ => True) (fun _ _ _ _ _ => trivial) fun a _ => hnext a

theorem Alike.tryCatch {act : Act σ α} {act' : Act δ α} {handle : ServiceError → Act σ α}
    {handle' : ServiceError → Act δ α} (hact : Alike R act act')
    (hhandle : ∀ e, Alike R (handle e) (handle' e)) :
    Alike R (MonadExcept.tryCatch act handle) (MonadExcept.tryCatch act' handle') := by
  intro world world' h
  obtain ⟨hresult, hafter⟩ := hact world world' h
  rw [exec_tryCatch, exec_tryCatch]
  generalize act.exec world = ran at hresult hafter ⊢
  generalize act'.exec world' = ran' at hresult hafter ⊢
  obtain ⟨result, after⟩ := ran
  obtain ⟨result', after'⟩ := ran'
  cases hresult
  cases result with
  | error e => exact hhandle e after after' hafter
  | ok a => exact ⟨rfl, hafter⟩

/-- An operation runs alike itself in a world with a property, if it keeps the property. -/
theorem Alike.self {P : World σ → Prop} {act : Act σ α}
    (h : ∀ world, P world → P (act.exec world).2) :
    Alike (fun world world' => world' = world ∧ P world) act act := by
  rintro world _ ⟨rfl, hP⟩
  exact ⟨rfl, rfl, h _ hP⟩

/-- Actions of two ledgers that run alike still do so when their errors become ours. -/
theorem Alike.ledger {action : StateM σ (Except LedgerError α)}
    {action' : StateM δ (Except LedgerError α)}
    (h : Alike R (Act.outside action) (Act.outside action')) :
    Alike R (Act.ledger action) (Act.ledger action') := by
  intro world world' hR
  obtain ⟨hresult, hafter⟩ := h world world' hR
  exact ⟨congrArg (Except.mapError ServiceError.ledger) (Except.ok.inj hresult), hafter⟩

end

/-- **Every value that the operation gives has a property**, in any world. -/
def Gives (P : α → Prop) (act : Act σ α) : Prop :=
  ∀ world a, (act.exec world).1 = .ok a → P a

section

variable {P : α → Prop}

theorem Gives.pure {a : α} (h : P a) : Gives P (Pure.pure a : Act σ α) := by
  rintro world _ ⟨⟩
  exact h

theorem Gives.throw (e : ServiceError) : Gives P (MonadExcept.throw e : Act σ α) := by
  rintro world a ⟨⟩

theorem Gives.bind {act : Act σ β} {next : β → Act σ α} (hnext : ∀ b, Gives P (next b)) :
    Gives P (act >>= next) := by
  intro world a ha
  obtain ⟨b, between, -, hgiven⟩ := ok_of_exec_bind (Prod.ext ha rfl)
  exact hnext b between a (congrArg Prod.fst hgiven)

end

end Act

/-- **A prepared rotation is one of its group.** -/
theorem Rotation.gives_prepare (backend : Backend σ) (config : Config) (group : Identifier)
    (targets : List Identifier) (requesterIsAdmin : Bool) :
    Act.Gives (fun prepared => ∀ pending, prepared = .ready pending → pending.groupId = group)
      (Rotation.prepare backend config group targets requesterIsAdmin) := by
  refine .bind fun outcome? => ?_
  cases outcome? with
  | some outcome => exact .pure nofun
  | none =>
    refine .bind fun secret => .bind fun attempt => .bind fun _ => .bind fun result => ?_
    cases result with
    | error cause => exact .bind fun _ => .throw _
    | ok wrappers =>
      refine .bind fun identifier => .bind fun createdAt => .pure ?_
      rintro pending ⟨⟩
      rfl

/-- **Two backends answer alike for a group**, in related worlds: whatever is asked of the
ledgers about the group, of the clock, of the source of randomness and of the transport is
answered the same and leaves the worlds related, and so does a change of the attempt of the
group. A group that is loaded has the identifier that it was asked for by. -/
structure Backend.Alike (backend : Backend σ) (backend' : Backend δ) (group : Identifier)
    (R : World σ → World δ → Prop) : Prop where
  loadGroup : Act.Alike R (Act.outside (backend.loadGroup group))
    (Act.outside (backend'.loadGroup group))
  filed : ∀ {world world'}, R world world' → ∀ {state},
    (backend.loadGroup group world.outside).1 = .ok (some state) → state.id = group
  saveGroup : ∀ {state : StoredGroup}, state.id = group →
    Act.Alike R (Act.outside (backend.saveGroup state)) (Act.outside (backend'.saveGroup state))
  commit : Act.Alike R (Act.outside (backend.commit group)) (Act.outside (backend'.commit group))
  appendNotice : ∀ {notice : Notice}, notice.conversation = group →
    Act.Alike R (Act.outside (backend.appendNotice notice))
      (Act.outside (backend'.appendNotice notice))
  currentPair : Act.Alike R (Act.outside (backend.currentPair group))
    (Act.outside (backend'.currentPair group))
  appendPair : ∀ pair, Act.Alike R (Act.outside (backend.appendPair group pair))
    (Act.outside (backend'.appendPair group pair))
  now : Act.Alike R (Act.outside backend.now) (Act.outside backend'.now)
  drawUuid : Act.Alike R (Act.outside backend.drawUuid) (Act.outside backend'.drawUuid)
  drawSecret : Act.Alike R (Act.outside backend.drawSecret) (Act.outside backend'.drawSecret)
  drawCoins : Act.Alike R (Act.outside backend.drawCoins) (Act.outside backend'.drawCoins)
  send : ∀ dispatch, Act.Alike R (Act.whole (backend.send dispatch))
    (Act.whole (backend'.send dispatch))
  attempt : ∀ {world world'}, R world world' →
    world'.inFlight.get? group = world.inFlight.get? group
  register : ∀ {world world'}, R world world' → ∀ attempt pair,
    R ⟨world.inFlight.register group attempt pair, world.outside⟩
      ⟨world'.inFlight.register group attempt pair, world'.outside⟩
  erase : ∀ {world world'}, R world world' →
    R ⟨world.inFlight.erase group, world.outside⟩ ⟨world'.inFlight.erase group, world'.outside⟩

namespace Backend.Alike

variable {backend : Backend σ} {backend' : Backend δ} {group : Identifier}
  {R : World σ → World δ → Prop} (h : backend.Alike backend' group R)

include h

/-- What is done with the loaded group may rely on its identifier. -/
theorem bind_loadGroup {next : Option StoredGroup → Act σ α} {next' : Option StoredGroup → Act δ α}
    (hnext : ∀ stored, (∀ state ∈ stored, state.id = group) →
      Act.Alike R (next stored) (next' stored)) :
    Act.Alike R (Act.ledger (backend.loadGroup group) >>= next)
      (Act.ledger (backend'.loadGroup group) >>= next') := by
  refine h.loadGroup.ledger.bind_of (fun world world' hR stored hstored => ?_) hnext
  rintro state rfl
  refine h.filed hR ?_
  change (backend.loadGroup group world.outside).1.mapError ServiceError.ledger = _ at hstored
  cases hload : (backend.loadGroup group world.outside).1 with
  | error e =>
    rw [hload] at hstored
    cases hstored
  | ok stored =>
    rw [hload] at hstored
    cases hstored
    rfl

theorem networkTime (config : Config) :
    Act.Alike R (config.networkTime backend) (config.networkTime backend') :=
  h.now.bind fun _ => .pure _

/-! ## A rotation -/

variable (config : Config)

theorem refusal (requesterIsAdmin : Bool) :
    Act.Alike R (Rotation.refusal backend config group requesterIsAdmin)
      (Rotation.refusal backend' config group requesterIsAdmin) := by
  refine h.loadGroup.ledger.bind fun stored => ?_
  cases stored with
  | none => exact .pure _
  | some state =>
    dsimp only
    split
    · exact .pure _
    · split <;> exact .pure _

/-- Wrapping draws coins, as many on both sides. -/
theorem wrapAll (pair : KeyPair) (targets : List Identifier) :
    Act.Alike R (Act.outside (Wrapper.wrapAll backend.drawCoins pair targets))
      (Act.outside (Wrapper.wrapAll backend'.drawCoins pair targets)) := by
  induction targets with
  | nil => exact fun _ _ hR => ⟨rfl, hR⟩
  | cons recipient rest ih =>
    rintro ⟨r, s⟩ ⟨r', s'⟩ hR
    obtain ⟨hcoins, hdrawn⟩ := h.drawCoins _ _ hR
    rw [Act.exec_outside, Act.exec_outside] at hcoins hdrawn ⊢
    cases hkey : recipient.publicKey with
    | error cause =>
      rw [Wrapper.wrapAll_cons_of_error _ pair hkey, Wrapper.wrapAll_cons_of_error _ pair hkey]
      exact ⟨rfl, hdrawn⟩
    | ok key =>
      obtain ⟨hrest, hafter⟩ := ih _ _ hdrawn
      rw [Act.exec_outside, Act.exec_outside] at hrest hafter
      rw [Wrapper.wrapAll_cons_of_ok _ pair hkey, Wrapper.wrapAll_cons_of_ok _ pair hkey]
      rw [Except.ok.inj hcoins]
      generalize Wrapper.wrapAll backend.drawCoins pair rest (backend.drawCoins s).2 = wrapped
        at hrest hafter ⊢
      generalize Wrapper.wrapAll backend'.drawCoins pair rest (backend'.drawCoins s').2 = wrapped'
        at hrest hafter ⊢
      obtain ⟨result, t⟩ := wrapped
      obtain ⟨result', t'⟩ := wrapped'
      cases hrest
      cases result <;> exact ⟨rfl, hafter⟩

/-- An attempt is current on both sides or on neither. -/
theorem isCurrent {world : World σ} {world' : World δ} (hR : R world world') (attempt : Uuid) :
    world'.inFlight.isCurrent group attempt = world.inFlight.isCurrent group attempt := by
  unfold InFlight.isCurrent
  rw [h.attempt hR]

theorem withdraw (attempt : Uuid) :
    Act.Alike R (Act.registry fun r => r.withdraw group attempt)
      (Act.registry fun r => r.withdraw group attempt) := by
  rintro ⟨r, s⟩ ⟨r', s'⟩ hR
  have hcurrent := h.isCurrent hR attempt
  rw [Act.exec_registry, Act.exec_registry]
  unfold InFlight.withdraw
  dsimp only at hcurrent
  rw [hcurrent]
  split
  · exact ⟨rfl, h.erase hR⟩
  · exact ⟨rfl, hR⟩

/-- **Preparing a rotation.** -/
theorem prepare (targets : List Identifier) (requesterIsAdmin : Bool) :
    Act.Alike R (Rotation.prepare backend config group targets requesterIsAdmin)
      (Rotation.prepare backend' config group targets requesterIsAdmin) := by
  refine (h.refusal config requesterIsAdmin).bind fun outcome? => ?_
  cases outcome? with
  | some outcome => exact .pure _
  | none =>
    refine h.drawSecret.bind fun secret => h.drawUuid.bind fun attempt =>
      Act.Alike.bind (fun _ _ hR => ⟨rfl, h.register hR attempt _⟩) fun _ =>
        (h.wrapAll _ targets).bind fun result => ?_
    cases result with
    | error cause => exact (h.withdraw attempt).bind fun _ => .throw _
    | ok wrappers =>
      exact h.drawUuid.bind fun identifier => (h.networkTime config).bind fun createdAt => .pure _

theorem settle {pending : Rotation.Pending} (hpending : pending.groupId = group) :
    Act.Alike R (Rotation.settle backend pending) (Rotation.settle backend' pending) := by
  rintro ⟨r, s⟩ ⟨r', s'⟩ hR
  have hsame := h.attempt hR
  have hcurrent := h.isCurrent hR pending.attempt
  dsimp only at hsame hcurrent
  rw [Rotation.exec_settle, Rotation.exec_settle, hpending]
  cases hyes : r.isCurrent group pending.attempt with
  | false =>
    rw [InFlight.settle_of_stale hyes, InFlight.settle_of_stale (hcurrent.trans hyes)]
    exact ⟨rfl, hR⟩
  | true =>
    -- both registries hold the same pair, and both ledgers answer the same when it is stored
    obtain ⟨pair, hget⟩ := InFlight.isCurrent_iff.mp hyes
    obtain ⟨hstored, hafter⟩ := h.appendPair pair _ _ hR
    rw [Act.exec_outside, Act.exec_outside] at hstored hafter
    rw [InFlight.settle_of_current hget, InFlight.settle_of_current (hsame.trans hget)]
    simp only [Rotation.storePair, Bind.bind, StateT.bind]
    generalize backend.appendPair group pair s = stored at hstored hafter ⊢
    generalize backend'.appendPair group pair s' = stored' at hstored hafter ⊢
    obtain ⟨answer, t⟩ := stored
    obtain ⟨answer', t'⟩ := stored'
    cases hstored
    cases answer with
    | error e => exact ⟨rfl, hafter⟩
    | ok added => exact ⟨rfl, h.erase hafter⟩

/-- **Confirming a rotation.** -/
theorem confirm {pending : Rotation.Pending} (hpending : pending.groupId = group) :
    Act.Alike R (Rotation.confirm backend pending) (Rotation.confirm backend' pending) := by
  refine (h.settle hpending).bind fun settled => ?_
  rw [hpending]
  split
  · exact h.commit.ledger.bind fun _ => .pure _
  · exact .pure _

/-- **A whole rotation.** -/
theorem run (targets : List Identifier) (requesterIsAdmin : Bool) :
    Act.Alike R (Rotation.run backend config group targets requesterIsAdmin)
      (Rotation.run backend' config group targets requesterIsAdmin) := by
  refine (h.prepare config targets requesterIsAdmin).bind_of
    (fun world _ _ => Rotation.gives_prepare backend config group targets requesterIsAdmin world)
    fun prepared hprepared => ?_
  cases prepared with
  | skipped outcome => exact .pure _
  | ready pending =>
    refine (h.send _).bind fun answer => ?_
    cases answer with
    | error error => exact .pure _
    | ok messageId => exact h.confirm (hprepared pending rfl)

/-! ## An edit -/

theorem deliver (dispatch : Dispatch) :
    Act.Alike R (Service.deliver backend dispatch) (Service.deliver backend' dispatch) :=
  (h.send dispatch).bind fun _ => .pure _

theorem deliverAll (dispatches : List Dispatch) :
    Act.Alike R (Service.deliverAll backend dispatches)
      (Service.deliverAll backend' dispatches) := by
  induction dispatches with
  | nil => exact .pure _
  | cons dispatch rest ih => exact (h.deliver dispatch).bind fun _ => ih.bind fun _ => .pure _

/-- **Recording a notice** of the group. -/
theorem recordNotice (announcement : Announcement) (sender : Identifier) (sentAt : Int64)
    (update : Option ExpirationUpdate) :
    Act.Alike R
      (Service.recordNotice backend config group announcement sender sentAt update)
      (Service.recordNotice backend' config group announcement sender sentAt update) :=
  h.drawUuid.bind fun _ =>
    (h.appendNotice (Notice.stamped_fields _ update).1).ledger.bind fun _ => .pure _

variable (current : StoredGroup) {snapshot : GroupSnapshot} (hsnapshot : snapshot.id = group)

theorem vet (hcurrent : current.id = group) (change : Change) :
    Act.Alike R (Service.vet backend config current snapshot change)
      (Service.vet backend' config current snapshot change) := by
  unfold Service.vet
  cases change with
  | removed ids =>
    dsimp only
    split
    · exact .throw _
    · split
      · exact .throw _
      · exact .pure _
  | added ids withHistory =>
    rw [hcurrent]
    refine h.currentPair.ledger.bind fun pair? => ?_
    cases pair? with
    | none => exact .throw _
    | some pair => exact .pure _
  | renamed newName => exact .pure _
  | unchanged => exact .pure _

include hsnapshot

/-- **An upsert** of the group. -/
theorem upsert :
    Act.Alike R (Service.upsert backend snapshot) (Service.upsert backend' snapshot) := by
  unfold Service.upsert
  rw [hsnapshot]
  refine h.bind_loadGroup fun stored hstored => ?_
  have hid : ((stored.getD (StoredGroup.create group snapshot.name [])).updated snapshot).id =
      group := by
    show (stored.getD (StoredGroup.create group snapshot.name [])).id = group
    cases stored with
    | none => rfl
    | some state => exact hstored state rfl
  exact (h.saveGroup hid).ledger.bind fun _ => h.commit.ledger.bind fun _ => .pure _

theorem announceRemoval (ids : List Identifier) (identifier : String) :
    Act.Alike R (Service.announceRemoval backend config current snapshot ids identifier)
      (Service.announceRemoval backend' config current snapshot ids identifier) := by
  unfold Service.announceRemoval
  refine (h.networkTime config).bind fun _ => (h.deliver _).bind fun record => ?_
  split
  · refine Act.Alike.bind (.tryCatch ?_ fun _ => .pure _) fun _ => .pure _
    rw [hsnapshot]
    exact h.run config _ _
  · exact .pure _

/-- **Announcing a change** of the group. -/
theorem announce (change : Change) (pair : Option KeyPair) (identifier : String) :
    Act.Alike R (Service.announce backend config current snapshot change pair identifier)
      (Service.announce backend' config current snapshot change pair identifier) := by
  unfold Service.announce
  split
  · exact Act.Alike.bind ((h.networkTime config).bind fun _ => (h.deliver _).bind fun _ => .pure _)
      fun _ => .pure _
  · exact Act.Alike.bind ((h.networkTime config).bind fun _ => (h.deliver _).bind fun _ =>
      (h.networkTime config).bind fun _ => (h.deliverAll _).bind fun _ => .pure _)
        fun _ => .pure _
  · exact h.announceRemoval config current hsnapshot _ identifier
  · exact .pure _
  · exact .pure _

theorem publish (change : Change) (pair : Option KeyPair) :
    Act.Alike R (Service.publish backend config current snapshot change pair)
      (Service.publish backend' config current snapshot change pair) := by
  unfold Service.publish
  rw [hsnapshot]
  split
  · exact h.commit.ledger.bind fun _ => .pure _
  · exact h.now.bind fun sentAt => (h.recordNotice config _ _ sentAt _).bind fun notice =>
      (h.announce config current hsnapshot change pair _).bind fun announced =>
        h.commit.ledger.bind fun _ => .pure _

omit hsnapshot

/-- **A whole edit.** The stored group has the identifier that the edit is given, so that its
key pair is read under it. -/
theorem edit (name : String) (members : List Identifier) :
    Act.Alike R (Service.edit backend config group name members)
      (Service.edit backend' config group name members) := by
  unfold Service.edit
  split
  · exact .throw _
  · refine h.bind_loadGroup fun stored hstored => ?_
    cases stored with
    | none => exact .throw _
    | some current =>
      dsimp only
      split
      · exact .throw _
      · refine h.now.bind fun activeAt =>
          (h.vet config current (hstored current rfl) _).bind fun pair =>
            (h.upsert ?_).bind fun _ => h.publish config current ?_ _ pair
        · rfl
        · rfl

end Backend.Alike

end SealedGroup
