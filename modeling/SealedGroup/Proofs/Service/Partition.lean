import SealedGroup.Proofs.Edit.Independence
import SealedGroup.Proofs.Service.Comparison

/-!
# Groups are independent

All groups share the ledgers and the registry. What an operation reads and writes there is the
share of one group: its state, its notices, its commits, its history, and its attempt in flight.
`Ledgers.share` gives that share of the ledgers, and one lemma for each way of writing says
whose share it changes.

So an operation on one group leaves the shares of all others as they are, and of two operations
on different groups neither can tell whether the other one came first:
`Service.groups_are_independent` says both, of every pair of requests. There are six kinds of
request, and they are put into one type, so that the second statement is about pairs of requests
and not about thirty-six pairs of functions.

## How it is proved

The first half is an invariant: `Concerns` relates the world at the start to the world
reached so far, and each operation of the backend keeps it (`Ledgers.concerns`). The second half
compares two runs of one request, in worlds where the share of its group is the same but the
rest may differ (`InCommon`, `Ledgers.inCommon`). From both together it follows that two
requests on different groups commute: each of them finds its own share untouched by the other
and leaves it changed in the same way.

The count of writes belongs to no group, and is followed separately: it grows by the same amount
on either side. While a message is on its way others may change the registry, and they are asked
to keep to the attempts of one group (`Environment.ConfinedTo`). Without that, independence
would be false for reasons that have nothing to do with the service.
-/

namespace SealedGroup

variable {ε δ α : Type}

/-! ## The share of a group -/

/-- **What the ledgers hold for one group.** -/
structure Share where
  stored : Option StoredGroup
  /-- The notices of the conversation, oldest first. -/
  notices : List Notice
  commits : Nat
  /-- The rows of the key pairs, oldest first. -/
  history : List KeyRow
  deriving DecidableEq

namespace Share

/-- What is stored is the group itself. -/
def Filed (share : Share) (group : Identifier) : Prop :=
  ∀ state, share.stored = some state → state.id = group

/-- The share with a group written. -/
def put (share : Share) (state : StoredGroup) : Share := { share with stored := some state }

/-- The share with one more notice. -/
def append (share : Share) (notice : Notice) : Share :=
  { share with notices := share.notices ++ [notice] }

/-- The share with one more commit. -/
def committed (share : Share) : Share := { share with commits := share.commits + 1 }

/-- The share with a key pair added, if it is new. -/
def add (share : Share) (pair : KeyPair) : Share :=
  if pair.toRow ∈ share.history then share
  else { share with history := share.history ++ [pair.toRow] }

end Share

namespace Ledgers

/-- The share of a group. -/
def share (ledgers : Ledgers) (id : Identifier) : Share where
  stored := ledgers.groups.get? id
  notices := ledgers.groups.notices id
  commits := ledgers.groups.commitsOf id
  history := ledgers.keys.history id

theorem Sound.share_filed {ledgers : Ledgers} (h : ledgers.Sound) (id : Identifier) :
    (ledgers.share id).Filed id :=
  fun _ hstored => h.filed hstored

variable (ledgers : Ledgers) (group : Identifier)

/-- **A write** sets the state in the share of its own group. -/
theorem share_put (state : StoredGroup) (id : Identifier) :
    share { ledgers with groups := ledgers.groups.put state } id =
      if id = state.id then (ledgers.share id).put state else ledgers.share id := by
  unfold share
  rw [GroupLedger.get?_put]
  split <;> rfl

/-- A written group is filed under its own identifier. -/
theorem filed_share_put {state : StoredGroup} {group : Identifier} (hid : state.id = group) :
    (share { ledgers with groups := ledgers.groups.put state } group).Filed group := by
  intro stored hstored
  rw [share_put, if_pos hid.symm] at hstored
  cases hstored
  exact hid

/-- **A notice** goes to the share of its conversation. -/
theorem share_append (notice : Notice) (id : Identifier) :
    share { ledgers with groups := ledgers.groups.append notice } id =
      if notice.conversation = id then (ledgers.share id).append notice
      else ledgers.share id := by
  unfold share
  rw [GroupLedger.notices_append]
  split
  · rfl
  · rw [List.append_nil]
    rfl

/-- **A commit** is counted in the share of its own group. -/
theorem share_committed (id : Identifier) :
    share { ledgers with groups := ledgers.groups.committed group } id =
      if id = group then (ledgers.share id).committed else ledgers.share id := by
  unfold share
  rw [GroupLedger.commitsOf_committed]
  split
  · next heq =>
    subst heq
    rfl
  · rfl

/-- **A key pair** goes to the share of its own group. -/
theorem share_add (pair : KeyPair) (id : Identifier) :
    share { ledgers with keys := (ledgers.keys.add group pair).2 } id =
      if id = group then (ledgers.share id).add pair else ledgers.share id := by
  unfold share Share.add
  rw [KeyLedger.history_add]
  by_cases hid : id = group
  · subst hid
    rw [if_pos rfl]
    by_cases hmem : pair.toRow ∈ ledgers.keys.history id
    · rw [if_neg fun h => h.2 hmem, if_pos hmem]
    · rw [if_pos ⟨rfl, hmem⟩, if_neg hmem]
  · rw [if_neg fun h => hid h.1, if_neg hid]

end Ledgers

/-! ## What an operation on a group concerns -/

/-- **Only one group was concerned** since the base: the shares of the others are what they
were, and so are those of their attempts that nobody else touches. -/
structure Concerns (environment : Environment ε) (group : Identifier)
    (base world : World (Local ε)) : Prop where
  filed : (world.outside.ledgers.share group).Filed group
  shares : ∀ other, other ≠ group →
    world.outside.ledgers.share other = base.outside.ledgers.share other
  attempts : ∀ other, other ≠ group → environment.LeavesAlone other →
    world.inFlight.get? other = base.inFlight.get? other

section

variable {environment : Environment ε} {group : Identifier} {base world : World (Local ε)}

/-- A change of the ledgers may change the share of the group. -/
theorem Concerns.ledgers (h : Concerns environment group base world) {ledgers : Ledgers}
    (hfiled : (ledgers.share group).Filed group)
    (hshares : ∀ other, other ≠ group → ledgers.share other = world.outside.ledgers.share other) :
    Concerns environment group base
      ⟨world.inFlight, { world.outside with ledgers := ledgers }⟩ where
  filed := hfiled
  shares := fun other hother => (hshares other hother).trans (h.shares other hother)
  attempts := h.attempts

/-- A change of the registry may change the attempt of the group. -/
theorem Concerns.inFlight (h : Concerns environment group base world) {r : InFlight}
    (hattempts : ∀ other, other ≠ group → environment.LeavesAlone other →
      r.get? other = world.inFlight.get? other) :
    Concerns environment group base ⟨r, world.outside⟩ where
  filed := h.filed
  shares := h.shares
  attempts := fun other hother halone =>
    (hattempts other hother halone).trans (h.attempts other hother halone)

variable (environment group base)

/-- **The operations of the backend concern the group that they are called for.** -/
theorem Ledgers.concerns :
    (backend environment).Alike (backend environment) group
      fun world world' => world' = world ∧ Concerns environment group base world where
  loadGroup := .self fun _ h => h
  filed := fun hR _ hload => hR.2.filed _ (Except.ok.inj hload)
  saveGroup := fun {state} hid => .self fun world h => by
    refine h.ledgers (filed_share_put _ hid) fun other hother => ?_
    rw [share_put, if_neg fun heq => hother (heq.trans hid)]
  commit := .self fun world h => by
    cases hstored : world.outside.ledgers.groups.get? group with
    | none =>
      rw [Act.exec_outside, commit_of_error environment
        (GroupLedger.commit_eq_error_iff.mpr ⟨hstored, rfl⟩)]
      exact h
    | some state =>
      rw [Act.exec_outside, commit_of_ok environment (GroupLedger.commit_of_stored hstored)]
      refine h.ledgers h.filed fun other hother => ?_
      rw [share_committed, if_neg hother]
  appendNotice := fun {notice} hconversation => .self fun world h => by
    refine h.ledgers h.filed fun other hother => ?_
    rw [share_append, if_neg fun heq => hother (heq.symm.trans hconversation)]
  currentPair := .self fun _ h => h
  appendPair := fun pair => .self fun world h =>
    h.ledgers h.filed fun other hother => (share_add _ group pair other).trans (if_neg hother)
  now := .self fun _ h => ⟨h.filed, h.shares, h.attempts⟩
  drawUuid := .self fun _ h => ⟨h.filed, h.shares, h.attempts⟩
  drawSecret := .self fun _ h => ⟨h.filed, h.shares, h.attempts⟩
  drawCoins := .self fun _ h => ⟨h.filed, h.shares, h.attempts⟩
  send := fun dispatch => .self fun world h =>
    ⟨h.filed, h.shares, (h.inFlight fun other _ halone => halone dispatch _ _).attempts⟩
  attempt := fun ⟨hsame, _⟩ => by rw [hsame]
  register := by
    rintro world _ ⟨rfl, h⟩ attempt pair
    refine ⟨rfl, h.inFlight fun other hother _ => ?_⟩
    exact InFlight.get?_register_of_ne _ _ _ hother
  erase := by
    rintro world _ ⟨rfl, h⟩
    refine ⟨rfl, h.inFlight fun other hother _ => ?_⟩
    exact InFlight.get?_erase_of_ne _ hother

end

/-! ## Two worlds with one share in common -/

/-- **Others keep to the attempt of one group** while a message is on its way: what they do
neither changes the attempt of another group nor depends on it. -/
structure Environment.ConfinedTo (environment : Environment ε) (group : Identifier) : Prop where
  leavesAlone : ∀ other, other ≠ group → environment.LeavesAlone other
  attempt : ∀ dispatch {r r' : InFlight} e, r'.get? group = r.get? group →
    (environment.meanwhile dispatch r' e).1.get? group =
      (environment.meanwhile dispatch r e).1.get? group
  state : ∀ dispatch {r r' : InFlight} e, r'.get? group = r.get? group →
    (environment.meanwhile dispatch r' e).2 = (environment.meanwhile dispatch r e).2

/-- If others do nothing meanwhile, they keep to any group. -/
theorem Environment.confinedTo_of_idle {environment : Environment ε}
    (h : ∀ dispatch r e, environment.meanwhile dispatch r e = (r, e)) (group : Identifier) :
    environment.ConfinedTo group where
  leavesAlone := fun other _ dispatch r e => by rw [h]
  attempt := fun dispatch r r' e hsame => by rw [h, h]; exact hsame
  state := fun dispatch r r' e _ => by rw [h, h]

/-- If others keep to the group, the attempts of all other groups are what they were. -/
theorem Concerns.attempts_of_confined {environment : Environment ε} {group : Identifier}
    {base world : World (Local ε)} (h : Concerns environment group base world)
    (hconfined : environment.ConfinedTo group) (id : Identifier) (hid : id ≠ group) :
    world.inFlight.get? id = base.inFlight.get? id :=
  h.attempts id hid (hconfined.leavesAlone id hid)

/-- **The worlds have the share of a group in common**, and their environment; and as many
groups were written since the one had `n` and the other one `m` writes. -/
structure InCommon (group : Identifier) (n m : Nat) (world world' : World (Local ε)) : Prop where
  filed : (world.outside.ledgers.share group).Filed group
  share : world'.outside.ledgers.share group = world.outside.ledgers.share group
  attempt : world'.inFlight.get? group = world.inFlight.get? group
  environment : world'.outside.environment = world.outside.environment
  writes : world'.outside.ledgers.groups.writes + n = world.outside.ledgers.groups.writes + m

section

variable {group : Identifier} {n m : Nat} {world world' : World (Local ε)}

theorem InCommon.stored (h : InCommon group n m world world') :
    world'.outside.ledgers.groups.get? group = world.outside.ledgers.groups.get? group :=
  congrArg Share.stored h.share

theorem InCommon.history (h : InCommon group n m world world') :
    world'.outside.ledgers.keys.history group = world.outside.ledgers.keys.history group :=
  congrArg Share.history h.share

/-- What the environment does, it does in both worlds. -/
theorem InCommon.environmental (action : StateM ε α) :
    Act.Alike (InCommon group n m) (Act.outside (Local.environmental action))
      (Act.outside (Local.environmental action)) := by
  intro world world' h
  have hsame : action world'.outside.environment = action world.outside.environment :=
    congrArg action h.environment
  exact ⟨congrArg Except.ok (congrArg Prod.fst hsame),
    ⟨h.filed, h.share, h.attempt, congrArg Prod.snd hsame, h.writes⟩⟩

/-- Ledgers that are changed alike keep the share in common. -/
theorem InCommon.ledgers (h : InCommon group n m world world') {ledgers ledgers' : Ledgers}
    (hfiled : (ledgers.share group).Filed group)
    (hshare : ledgers'.share group = ledgers.share group)
    (hwrites : ledgers'.groups.writes + n = ledgers.groups.writes + m) :
    InCommon group n m ⟨world.inFlight, { world.outside with ledgers := ledgers }⟩
      ⟨world'.inFlight, { world'.outside with ledgers := ledgers' }⟩ :=
  ⟨hfiled, hshare, h.attempt, h.environment, hwrites⟩

theorem InCommon.inFlight (h : InCommon group n m world world') {r r' : InFlight}
    (hattempt : r'.get? group = r.get? group) :
    InCommon group n m ⟨r, world.outside⟩ ⟨r', world'.outside⟩ :=
  ⟨h.filed, h.share, hattempt, h.environment, h.writes⟩

variable (group n m)

/-- **The operations of the backend cannot tell the worlds apart**, if others keep to the
group as well. -/
theorem Ledgers.inCommon {environment : Environment ε} (hconfined : environment.ConfinedTo group) :
    (backend environment).Alike (backend environment) group (InCommon group n m) where
  loadGroup := fun world world' h =>
    ⟨congrArg Except.ok (congrArg Except.ok h.stored), h⟩
  filed := fun h _ hload => h.filed _ (Except.ok.inj hload)
  saveGroup := fun {state} hid world world' h => by
    refine ⟨rfl, h.ledgers (filed_share_put _ hid) ?_ ?_⟩
    · rw [share_put, share_put, h.share]
    · have hwrites := h.writes
      show world'.outside.ledgers.groups.writes + 1 + n =
        world.outside.ledgers.groups.writes + 1 + m
      omega
  commit := fun world world' h => by
    cases hstored : world.outside.ledgers.groups.get? group with
    | none =>
      have hstored' := h.stored.trans hstored
      rw [Act.exec_outside, Act.exec_outside,
        commit_of_error environment (GroupLedger.commit_eq_error_iff.mpr ⟨hstored, rfl⟩),
        commit_of_error environment (GroupLedger.commit_eq_error_iff.mpr ⟨hstored', rfl⟩)]
      exact ⟨rfl, h⟩
    | some state =>
      have hstored' := h.stored.trans hstored
      rw [Act.exec_outside, Act.exec_outside,
        commit_of_ok environment (GroupLedger.commit_of_stored hstored),
        commit_of_ok environment (GroupLedger.commit_of_stored hstored')]
      refine ⟨rfl, h.ledgers h.filed ?_ h.writes⟩
      rw [share_committed, share_committed, h.share]
  appendNotice := fun {notice} hconversation world world' h => by
    refine ⟨rfl, h.ledgers h.filed ?_ h.writes⟩
    rw [share_append, share_append, h.share]
  currentPair := fun world world' h => by
    refine ⟨?_, h⟩
    show Except.ok (world'.outside.ledgers.keys.latest group) =
      .ok (world.outside.ledgers.keys.latest group)
    unfold KeyLedger.latest
    rw [h.history]
  appendPair := fun pair world world' h => by
    have hadded : (world'.outside.ledgers.keys.add group pair).1 =
        (world.outside.ledgers.keys.add group pair).1 := by
      rw [Bool.eq_iff_iff, KeyLedger.add_fst, KeyLedger.add_fst, h.history]
    refine ⟨congrArg Except.ok (congrArg Except.ok hadded),
      h.ledgers h.filed ?_ h.writes⟩
    have hafter := share_add world.outside.ledgers group pair group
    have hafter' := share_add world'.outside.ledgers group pair group
    rw [if_pos rfl] at hafter hafter'
    rw [h.share] at hafter'
    exact hafter'.trans hafter.symm
  now := InCommon.environmental _
  drawUuid := InCommon.environmental _
  drawSecret := InCommon.environmental _
  drawCoins := InCommon.environmental _
  send := fun dispatch world world' h => by
    have hattempt := hconfined.attempt dispatch world.outside.environment h.attempt
    have hstate := hconfined.state dispatch world.outside.environment h.attempt
    have hsent : (environment.send dispatch
        (environment.meanwhile dispatch world'.inFlight world'.outside.environment).2) =
        environment.send dispatch
          (environment.meanwhile dispatch world.inFlight world.outside.environment).2 := by
      rw [h.environment, hstate]
    refine ⟨congrArg Except.ok (congrArg Prod.fst hsent), h.filed, h.share, ?_,
      congrArg Prod.snd hsent, h.writes⟩
    show (environment.meanwhile dispatch world'.inFlight world'.outside.environment).1.get? group
      = _
    rw [h.environment]
    exact hattempt
  attempt := fun h => h.attempt
  register := fun h attempt pair => h.inFlight (by
    rw [InFlight.get?_register_self, InFlight.get?_register_self])
  erase := fun h => h.inFlight (by
    rw [InFlight.get?_erase_self, InFlight.get?_erase_self])

end

/-! ## Requests -/

namespace Service

/-- **A request to the service.** -/
inductive Request where
  | edit (group : Identifier) (name : String) (members : List Identifier)
  | upsert (snapshot : GroupSnapshot)
  | recordNotice (conversation : Identifier) (announcement : Announcement) (sender : Identifier)
      (sentAt : Int64) (update : Option ExpirationUpdate)
  | rotate (group : Identifier) (targets : List Identifier) (requesterIsAdmin : Bool)
  | prepare (group : Identifier) (targets : List Identifier) (requesterIsAdmin : Bool)
  | confirm (pending : Rotation.Pending)

/-- What a request gives if nothing fails. -/
inductive Reply where
  | edited (report : EditReport)
  | upserted (state : StoredGroup)
  | recorded (notice : Notice)
  | rotated (outcome : Rotation.Outcome)
  | prepared (prepared : Rotation.Prepared)

namespace Request

/-- The group that a request is for. -/
def group : Request → Identifier
  | edit group _ _ => group
  | upsert snapshot => snapshot.id
  | recordNotice conversation _ _ _ _ => conversation
  | rotate group _ _ => group
  | prepare group _ _ => group
  | confirm pending => pending.groupId

/-- **What the service does for a request.** -/
def perform {σ : Type} (backend : Backend σ) (config : Config) : Request → Act σ Reply
  | edit group name members => do
    let report ← Service.edit backend config group name members
    pure (.edited report)
  | upsert snapshot => do
    let state ← Service.upsert backend snapshot
    pure (.upserted state)
  | recordNotice conversation announcement sender sentAt update => do
    let notice ←
      Service.recordNotice backend config conversation announcement sender sentAt update
    pure (.recorded notice)
  | rotate group targets requesterIsAdmin => do
    let outcome ← Rotation.run backend config group targets requesterIsAdmin
    pure (.rotated outcome)
  | prepare group targets requesterIsAdmin => do
    let prepared ← Rotation.prepare backend config group targets requesterIsAdmin
    pure (.prepared prepared)
  | confirm pending => do
    let outcome ← Rotation.confirm backend pending
    pure (.rotated outcome)

/-- Backends that answer alike for the group of a request perform it alike. -/
theorem alike_perform {σ δ : Type} {backend : Backend σ} {backend' : Backend δ}
    {R : World σ → World δ → Prop} (config : Config) (request : Request)
    (h : backend.Alike backend' request.group R) :
    Act.Alike R (request.perform backend config) (request.perform backend' config) := by
  cases request with
  | edit group name members => exact (h.edit config name members).bind fun _ => .pure _
  | upsert snapshot => exact (h.upsert rfl).bind fun _ => .pure _
  | recordNotice conversation announcement sender sentAt update =>
    exact (h.recordNotice config announcement sender sentAt update).bind fun _ => .pure _
  | rotate group targets requesterIsAdmin =>
    exact (h.run config targets requesterIsAdmin).bind fun _ => .pure _
  | prepare group targets requesterIsAdmin =>
    exact (h.prepare config targets requesterIsAdmin).bind fun _ => .pure _
  | confirm pending => exact (h.confirm rfl).bind fun _ => .pure _

end Request

end Service

/-- The same registry and the same ledgers, in another environment. -/
def World.under (world : World (Local ε)) (e : δ) : World (Local δ) :=
  ⟨world.inFlight, ⟨world.outside.ledgers, e⟩⟩

namespace Service

section

variable {config : Config} {environment : Environment ε} {environment' : Environment δ}
  {request : Request} {reply : Except ServiceError Reply} {world after : World (Local ε)}

/-- **A request concerns its own group.** -/
theorem concerns_of_exec_perform
    (hfiled : (world.outside.ledgers.share request.group).Filed request.group)
    (hexec : (request.perform (Ledgers.backend environment) config).exec world = (reply, after)) :
    Concerns environment request.group world after := by
  have halike := request.alike_perform config (Ledgers.concerns environment request.group world)
  obtain ⟨-, -, hafter⟩ := halike world world ⟨rfl, hfiled, fun _ _ => rfl, fun _ _ _ => rfl⟩
  rwa [hexec] at hafter

/-- **A request after another one**, for a different group, gives what it gives without that
one and does the same. -/
theorem exec_perform_after
    (hfiled : (world.outside.ledgers.share request.group).Filed request.group)
    (hexec : (request.perform (Ledgers.backend environment) config).exec world = (reply, after))
    (hconfined : environment.ConfinedTo request.group) {group : Identifier}
    (hne : request.group ≠ group) (hconfined' : environment'.ConfinedTo group) {e : δ}
    {first : World (Local δ)} (hfirst : Concerns environment' group (world.under e) first) :
    ∃ last, (request.perform (Ledgers.backend environment) config).exec
        (first.under world.outside.environment) = (reply, last) ∧
      Concerns environment request.group (first.under world.outside.environment) last ∧
      InCommon request.group world.outside.ledgers.groups.writes
        first.outside.ledgers.groups.writes after last := by
  have hshare := hfirst.shares request.group hne
  have hstart : InCommon request.group world.outside.ledgers.groups.writes
      first.outside.ledgers.groups.writes world (first.under world.outside.environment) :=
    ⟨hfiled, hshare, hfirst.attempts _ hne (hconfined'.leavesAlone _ hne), rfl, Nat.add_comm ..⟩
  have halike := request.alike_perform config (Ledgers.inCommon _ _ _ hconfined) _ _ hstart
  rcases hlast : (request.perform (Ledgers.backend environment) config).exec
    (first.under world.outside.environment) with ⟨reply', last⟩
  rw [hexec, hlast] at halike
  obtain ⟨hreply, hcommon⟩ := halike
  cases hreply
  refine ⟨last, rfl, concerns_of_exec_perform (fun _ hstored => ?_) hlast, hcommon⟩
  exact hfiled _ ((congrArg Share.stored hshare).symm.trans hstored)

end

/-- Two changes at different places give the same in either order. -/
theorem eq_of_changes_apart {f first second last last' : Identifier → α} {a b : Identifier}
    (hne : b ≠ a) (hfirst : ∀ id, id ≠ a → first id = f id)
    (hsecond : ∀ id, id ≠ b → second id = f id) (hlast : ∀ id, id ≠ a → last id = second id)
    (hlast' : ∀ id, id ≠ b → last' id = first id) (ha : last a = first a)
    (hb : last' b = second b) (id : Identifier) : last' id = last id := by
  by_cases hid : id = a
  · subst hid
    rw [hlast' id hne.symm, ha]
  · rw [hlast id hid]
    by_cases hid' : id = b
    · rw [hid', hb]
    · rw [hlast' id hid', hfirst id hid, hsecond id hid']

/-- **Groups are independent.** A request leaves the shares of all other groups as they are,
however it ends, and their attempts, unless others change them while a message is on its way.
And two requests on different groups, each with an environment of its own, give the same two
replies in either order, and leave every share, the registry and the number of writes the
same. -/
theorem groups_are_independent {ledgers : Ledgers} (hledgers : ledgers.Reachable)
    {config : Config} {environment : Environment ε} {request : Request} {r : InFlight} {e : ε}
    {reply : Except ServiceError Reply} {after : World (Local ε)}
    (hexec : (request.perform (Ledgers.backend environment) config).exec ⟨r, ⟨ledgers, e⟩⟩ =
      (reply, after)) :
    (∀ other, other ≠ request.group →
      after.outside.ledgers.share other = ledgers.share other ∧
      (environment.LeavesAlone other → after.inFlight.get? other = r.get? other)) ∧
    ∀ {environment' : Environment δ} {request' : Request} {e' : δ}
      {reply' : Except ServiceError Reply} {after' : World (Local δ)},
      request'.group ≠ request.group →
      environment.ConfinedTo request.group → environment'.ConfinedTo request'.group →
      (request'.perform (Ledgers.backend environment') config).exec ⟨r, ⟨ledgers, e'⟩⟩ =
        (reply', after') →
      ∃ last last',
        (request.perform (Ledgers.backend environment) config).exec (after'.under e) =
          (reply, last) ∧
        (request'.perform (Ledgers.backend environment') config).exec (after.under e') =
          (reply', last') ∧
        (∀ id, last'.outside.ledgers.share id = last.outside.ledgers.share id) ∧
        last'.inFlight = last.inFlight ∧
        last'.outside.ledgers.groups.writes = last.outside.ledgers.groups.writes ∧
        last.outside.environment = after.outside.environment ∧
        last'.outside.environment = after'.outside.environment := by
  have hconcerns := concerns_of_exec_perform (hledgers.sound.share_filed _) hexec
  refine ⟨fun other hother => ⟨hconcerns.shares other hother, hconcerns.attempts other hother⟩, ?_⟩
  intro environment' request' e' reply' after' hne hconfined hconfined' hexec'
  have hconcerns' := concerns_of_exec_perform (hledgers.sound.share_filed _) hexec'
  obtain ⟨last, hlast, hsecond, hcommon⟩ := exec_perform_after
    (hledgers.sound.share_filed _) hexec hconfined hne.symm hconfined' hconcerns'
  obtain ⟨last', hlast', hsecond', hcommon'⟩ := exec_perform_after
    (hledgers.sound.share_filed _) hexec' hconfined' hne hconfined hconcerns
  refine ⟨last, last', hlast, hlast', ?_, InFlight.ext ?_, ?_, hcommon.environment,
    hcommon'.environment⟩
  · exact eq_of_changes_apart hne hconcerns.shares hconcerns'.shares hsecond.shares
      hsecond'.shares hcommon.share hcommon'.share
  · exact eq_of_changes_apart hne (hconcerns.attempts_of_confined hconfined)
      (hconcerns'.attempts_of_confined hconfined') (hsecond.attempts_of_confined hconfined)
      (hsecond'.attempts_of_confined hconfined') hcommon.attempt hcommon'.attempt
  · have hwrites := hcommon.writes
    have hwrites' := hcommon'.writes
    dsimp only at hwrites hwrites'
    omega

/-- The other member may be removed, and a name may be announced in another conversation, in
either order. -/
theorem groups_are_independent_of_removal :
    let removal : Request := .edit StoredGroup.sample.id "friends" [Config.sample.account]
    let naming : Request :=
      .recordNotice Identifier.stranger (.renamed "strangers") Identifier.sample 0 none
    let backend := Ledgers.backend Environment.still
    let start : World (Local Unit) := ⟨InFlight.empty, ⟨Ledgers.sampleWithKey, ()⟩⟩
    ∃ report notice after after' last last',
      (removal.perform backend Config.sample).exec start = (.ok (.edited report), after) ∧
      (naming.perform backend Config.sample).exec start = (.ok (.recorded notice), after') ∧
      (removal.perform backend Config.sample).exec after' = (.ok (.edited report), last) ∧
      (naming.perform backend Config.sample).exec after = (.ok (.recorded notice), last') ∧
      ∀ id, last'.outside.ledgers.share id = last.outside.ledgers.share id := by
  intro removal naming backend start
  obtain ⟨current, hallowed⟩ := refusal_eq_none_iff.mp refusal_sampleWithKey
  obtain ⟨report, after, hedit, -⟩ := exec_edit_ok Environment.still Config.sample
    (r := InFlight.empty) (e := ()) Ledgers.sampleWithKey_reachable.sound hallowed
  have hremoval : (removal.perform backend Config.sample).exec start =
      (.ok (.edited report), after) := Act.exec_bind_of_ok hedit
  obtain ⟨notice, after', hnaming⟩ : ∃ notice after',
      (naming.perform backend Config.sample).exec start = (.ok (.recorded notice), after') :=
    ⟨_, _, Act.exec_bind_of_ok (exec_recordNotice Environment.still Config.sample _ _ _ _ _)⟩
  have hidle (group : Identifier) : Environment.still.ConfinedTo group :=
    Environment.confinedTo_of_idle (fun _ _ _ => rfl) group
  have hdistinct : naming.group ≠ removal.group := by decide
  obtain ⟨-, hindependent⟩ := groups_are_independent Ledgers.sampleWithKey_reachable hremoval
  obtain ⟨last, last', hlast, hlast', hshares, -⟩ :=
    hindependent hdistinct (hidle _) (hidle _) hnaming
  exact ⟨report, notice, after, after', last, last', hremoval, hnaming, hlast, hlast', hshares⟩

end Service

end SealedGroup
