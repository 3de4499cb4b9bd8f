import SealedGroup.Proofs.Rotation.Steps

/-!
# What the operations of the backend keep

The service reaches the outside only through the operations of its backend. So a relation
between outside states that each of these keeps is kept by all that the service does with them
(`Backend.Keeps`): by a rotation, by the announcement of an edit, and, if writing a group keeps
it as well, by a whole edit (`Backend.Keeps.edit`).

Writing a group is left out of `Backend.Keeps` on purpose. It is the one operation that the
announcement of an edit never makes use of, and so what everything but an edit leaves alone,
namely the stored groups, is a relation that can be kept (`Ledgers.keeps_groups`). With writing
put back in, reachability is one: whatever an edit makes of reachable ledgers is reachable
(`Ledgers.Reachable.of_exec_edit`), so that what is known of reachable ledgers can be used
before and after each call of a run.

The proofs follow the definitions of the service line by line, and they use nothing of them but
which operations they call. A relation between *states* is all that can be dealt with in this
way. Whoever wants to know in which order things were done has to look at traces, and whoever
wants to know what is computed has to execute the operation; but what merely stays as it is
should not cost more than this.
-/

namespace SealedGroup

/-- **The backend keeps a relation**: each of its operations does, other than the one that
writes a group. -/
structure Backend.Keeps {σ : Type} (backend : Backend σ) (R : σ → σ → Prop) : Prop where
  refl : ∀ s, R s s
  trans : ∀ {s t u}, R s t → R t u → R s u
  loadGroup : ∀ id s, R s (backend.loadGroup id s).2
  commit : ∀ id s, R s (backend.commit id s).2
  appendNotice : ∀ notice s, R s (backend.appendNotice notice s).2
  currentPair : ∀ group s, R s (backend.currentPair group s).2
  appendPair : ∀ group pair s, R s (backend.appendPair group pair s).2
  now : ∀ s, R s (backend.now s).2
  drawUuid : ∀ s, R s (backend.drawUuid s).2
  drawSecret : ∀ s, R s (backend.drawSecret s).2
  drawCoins : ∀ s, R s (backend.drawCoins s).2
  send : ∀ dispatch world, R world.outside (backend.send dispatch world).2.outside

/-- The operation keeps a relation between outside states. -/
def Act.Keeps {σ α : Type} (R : σ → σ → Prop) (act : Act σ α) : Prop :=
  act.Respects fun world after => R world.outside after.outside

namespace Backend.Keeps

variable {σ α β : Type} {backend : Backend σ} {R : σ → σ → Prop} (h : backend.Keeps R)

include h

/-! ## The ways of making an operation -/

theorem pure (a : α) : Act.Keeps R (Pure.pure a : Act σ α) :=
  Act.Respects.pure (fun world => h.refl world.outside) a

theorem throw (e : ServiceError) : Act.Keeps R (MonadExcept.throw e : Act σ α) :=
  Act.Respects.throw (fun world => h.refl world.outside) e

theorem bind {act : Act σ α} {next : α → Act σ β} (hact : Act.Keeps R act)
    (hnext : ∀ a, Act.Keeps R (next a)) : Act.Keeps R (act >>= next) :=
  Act.Respects.bind (R := fun world after => R world.outside after.outside) h.trans hact hnext

theorem tryCatch {act : Act σ α} {handle : ServiceError → Act σ α} (hact : Act.Keeps R act)
    (hhandle : ∀ e, Act.Keeps R (handle e)) : Act.Keeps R (MonadExcept.tryCatch act handle) :=
  Act.Respects.tryCatch (R := fun world after => R world.outside after.outside) h.trans hact
    hhandle

theorem registry (change : InFlight → α × InFlight) :
    Act.Keeps R (Act.registry change : Act σ α) :=
  fun world => h.refl world.outside

theorem networkTime (config : Config) : Act.Keeps R (config.networkTime backend) :=
  h.bind (fun world => h.now world.outside) fun _ => h.pure _

/-! ## A rotation -/

variable (config : Config)

theorem refusal (group : Identifier) (requesterIsAdmin : Bool) :
    Act.Keeps R (Rotation.refusal backend config group requesterIsAdmin) := by
  unfold Rotation.refusal
  refine h.bind (fun world => h.loadGroup group world.outside) fun stored => ?_
  cases stored with
  | none => exact h.pure _
  | some state =>
    dsimp only
    split
    · exact h.pure _
    · split <;> exact h.pure _

theorem wrapAll (pair : KeyPair) (targets : List Identifier) :
    Act.Keeps R (Act.outside (Wrapper.wrapAll backend.drawCoins pair targets)) :=
  fun world => Wrapper.wrapAll_state backend.drawCoins pair h.refl h.trans h.drawCoins targets
    world.outside

theorem prepare (group : Identifier) (targets : List Identifier) (requesterIsAdmin : Bool) :
    Act.Keeps R (Rotation.prepare backend config group targets requesterIsAdmin) := by
  unfold Rotation.prepare
  refine h.bind (h.refusal config group requesterIsAdmin) fun outcome? => ?_
  cases outcome? with
  | some outcome => exact h.pure _
  | none =>
    refine h.bind (fun world => h.drawSecret world.outside) fun secret =>
      h.bind (fun world => h.drawUuid world.outside) fun attempt =>
        h.bind (h.registry _) fun _ => h.bind (h.wrapAll _ targets) fun result => ?_
    cases result with
    | error cause => exact h.bind (h.registry _) fun _ => h.throw _
    | ok wrappers =>
      exact h.bind (fun world => h.drawUuid world.outside) fun identifier =>
        h.bind (h.networkTime config) fun createdAt => h.pure _

theorem settle (pending : Rotation.Pending) : Act.Keeps R (Rotation.settle backend pending) := by
  rintro ⟨r, s⟩
  rw [Rotation.exec_settle]
  cases hcurrent : r.isCurrent pending.groupId pending.attempt with
  | false =>
    rw [InFlight.settle_of_stale hcurrent]
    exact h.refl s
  | true =>
    obtain ⟨pair, hget⟩ := InFlight.isCurrent_iff.mp hcurrent
    have happend := h.appendPair pending.groupId pair s
    rw [InFlight.settle_of_current hget]
    simp only [Rotation.storePair, Bind.bind, StateT.bind]
    rcases hanswer : backend.appendPair pending.groupId pair s with ⟨e | added, s'⟩ <;>
      rw [hanswer] at happend
    · exact happend
    · exact happend

/-- **A rotation keeps the relation**, however it ends. -/
theorem run (group : Identifier) (targets : List Identifier) (requesterIsAdmin : Bool) :
    Act.Keeps R (Rotation.run backend config group targets requesterIsAdmin) := by
  unfold Rotation.run
  refine h.bind (h.prepare config group targets requesterIsAdmin) fun prepared => ?_
  cases prepared with
  | skipped outcome => exact h.pure _
  | ready pending =>
    refine h.bind (fun world => h.send _ world) fun answer => ?_
    cases answer with
    | error error => exact h.pure _
    | ok messageId =>
      refine h.bind (h.settle pending) fun settled => ?_
      split
      · exact h.bind (fun world => h.commit _ world.outside) fun _ => h.pure _
      · exact h.pure _

/-! ## An edit -/

theorem deliver (dispatch : Dispatch) : Act.Keeps R (Service.deliver backend dispatch) :=
  h.bind (fun world => h.send dispatch world) fun _ => h.pure _

theorem deliverAll (dispatches : List Dispatch) :
    Act.Keeps R (Service.deliverAll backend dispatches) := by
  induction dispatches with
  | nil => exact h.pure _
  | cons dispatch rest ih => exact h.bind (h.deliver dispatch) fun _ => h.bind ih fun _ => h.pure _

variable (current : StoredGroup) (snapshot : GroupSnapshot)

theorem announceRemoval (ids : List Identifier) (identifier : String) :
    Act.Keeps R (Service.announceRemoval backend config current snapshot ids identifier) := by
  refine h.bind (h.networkTime config) fun _ => h.bind (h.deliver _) fun record => ?_
  split
  · exact h.bind (h.tryCatch (h.run config _ _ _) fun _ => h.pure _) fun _ => h.pure _
  · exact h.pure _

/-- **The announcement of a change keeps the relation.** -/
theorem announce (change : Change) (pair : Option KeyPair) (identifier : String) :
    Act.Keeps R (Service.announce backend config current snapshot change pair identifier) := by
  unfold Service.announce
  split
  · exact h.bind (h.bind (h.networkTime config) fun _ => h.bind (h.deliver _) fun _ => h.pure _)
      fun _ => h.pure _
  · exact h.bind (h.bind (h.networkTime config) fun _ => h.bind (h.deliver _) fun _ =>
      h.bind (h.networkTime config) fun _ => h.bind (h.deliverAll _) fun _ => h.pure _)
        fun _ => h.pure _
  · exact h.announceRemoval config current snapshot _ identifier
  · exact h.pure _
  · exact h.pure _

theorem vet (change : Change) :
    Act.Keeps R (Service.vet backend config current snapshot change) := by
  unfold Service.vet
  cases change with
  | removed ids =>
    dsimp only
    split
    · exact h.throw _
    · split
      · exact h.throw _
      · exact h.pure _
  | added ids withHistory =>
    refine h.bind (fun world => h.currentPair current.id world.outside) fun pair? => ?_
    cases pair? with
    | none => exact h.throw _
    | some pair => exact h.pure _
  | renamed newName => exact h.pure _
  | unchanged => exact h.pure _

theorem publish (change : Change) (pair : Option KeyPair) :
    Act.Keeps R (Service.publish backend config current snapshot change pair) := by
  unfold Service.publish
  split
  · exact h.bind (fun world => h.commit _ world.outside) fun _ => h.pure _
  · refine h.bind (fun world => h.now world.outside) fun sentAt => h.bind ?_ fun notice =>
      h.bind (h.announce config current snapshot change pair _) fun announced =>
        h.bind (fun world => h.commit _ world.outside) fun _ => h.pure _
    exact h.bind (fun world => h.drawUuid world.outside) fun id =>
      h.bind (fun world => h.appendNotice _ world.outside) fun _ => h.pure _

/-- **An edit keeps the relation** if writing a group does, however the edit ends. -/
theorem edit (hsave : ∀ state s, R s (backend.saveGroup state s).2) (group : Identifier)
    (name : String) (members : List Identifier) :
    Act.Keeps R (Service.edit backend config group name members) := by
  unfold Service.edit
  split
  · exact h.throw _
  · refine h.bind (fun world => h.loadGroup group world.outside) fun stored => ?_
    cases stored with
    | none => exact h.throw _
    | some current =>
      dsimp only
      split
      · exact h.throw _
      · refine h.bind (fun world => h.now world.outside) fun activeAt =>
          h.bind (h.vet config current _ _) fun pair => h.bind ?_ fun _ =>
            h.publish config current _ _ pair
        exact h.bind (fun world => h.loadGroup _ world.outside) fun _ =>
          h.bind (fun world => hsave _ world.outside) fun _ =>
            h.bind (fun world => h.commit _ world.outside) fun _ => h.pure _

end Backend.Keeps

namespace Ledgers

variable {ε : Type}

/-- **No stored group is changed** but by writing one. -/
theorem keeps_groups (environment : Environment ε) :
    (backend environment).Keeps fun s t =>
      ∀ id, t.ledgers.groups.get? id = s.ledgers.groups.get? id where
  refl := fun _ _ => rfl
  trans := fun h h' id => (h' id).trans (h id)
  loadGroup := fun _ _ _ => rfl
  commit := fun id s other => by
    cases hcommit : s.ledgers.groups.commit id with
    | error error => rw [commit_of_error environment hcommit]
    | ok groups =>
      rw [commit_of_ok environment hcommit]
      exact GroupLedger.get?_of_commit hcommit other
  appendNotice := fun _ _ _ => rfl
  currentPair := fun _ _ _ => rfl
  appendPair := fun _ _ _ _ => rfl
  now := fun _ _ => rfl
  drawUuid := fun _ _ => rfl
  drawSecret := fun _ _ => rfl
  drawCoins := fun _ _ => rfl
  send := fun _ _ _ => rfl

/-- **Reachable ledgers stay reachable.** -/
theorem keeps_reachable (environment : Environment ε) :
    (backend environment).Keeps fun s t => s.ledgers.Reachable → t.ledgers.Reachable where
  refl := fun _ h => h
  trans := fun h h' hs => h' (h hs)
  loadGroup := fun _ _ h => h
  commit := fun id s h => by
    cases hcommit : s.ledgers.groups.commit id with
    | error error => rwa [commit_of_error environment hcommit]
    | ok groups =>
      rw [commit_of_ok environment hcommit]
      exact h.commit hcommit
  appendNotice := fun notice _ h => h.append notice
  currentPair := fun _ _ h => h
  appendPair := fun group pair _ h => h.add group pair
  now := fun _ h => h
  drawUuid := fun _ h => h
  drawSecret := fun _ h => h
  drawCoins := fun _ h => h
  send := fun _ _ h => h

/-- Whatever an edit makes of reachable ledgers can be come by. -/
theorem Reachable.of_exec_edit {ledgers : Ledgers} (h : ledgers.Reachable)
    {environment : Environment ε} {config : Config} {group : Identifier} {name : String}
    {members : List Identifier} {r : InFlight} {e : ε} {result : Except ServiceError EditReport}
    {world : World (Local ε)}
    (hexec : (Service.edit (backend environment) config group name members).exec
      ⟨r, ⟨ledgers, e⟩⟩ = (result, world)) : world.outside.ledgers.Reachable := by
  have hkeeps := (keeps_reachable environment).edit config (fun state _ hs => hs.put state) group
    name members ⟨r, ⟨ledgers, e⟩⟩ h
  rwa [hexec] at hkeeps

end Ledgers

end SealedGroup
