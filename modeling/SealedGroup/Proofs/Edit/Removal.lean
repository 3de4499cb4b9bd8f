import SealedGroup.Proofs.Edit.Announcement
import SealedGroup.Proofs.Edit.Classes
import SealedGroup.Proofs.KeyPair.Unwrapping

/-!
# Who is given the key after a removal

When members are removed from a group, those who stay are given a new key pair, and those who go
are not. `Service.Rekeyed` lists the three ways in which this can end: no key is handed out, or
one is handed out and not kept, since its message failed or another attempt took its place
meanwhile, or it is handed out and kept. `Service.removal_rekeys_members` says which of them
happens, who can open what is sent, and what becomes of the key ledger.

## Who can open what is sent

A message hands a pair out if it goes to the whole group and holds one wrapper for each target,
in their order, each of which gives the pair to whoever has the secret behind its recipient
(`Service.HandsOut`). The targets are the members who stay, in ascending order and each of them
once. So the recipients are those who stay and nobody else, and whoever was removed finds no
wrapper for themselves.

## Conditions

A new key needs three things: the message of the removal arrived, we are an administrator of the
group, and every member who stays holds a point of the curve. If one of them is missing, nothing
more is sent and the old key stays. The first is decided by the transport and the others by what
is stored, and the statement keeps them apart.

A key that was sent need not have been kept. If its message failed, its attempt remains
registered; if others registered another attempt meanwhile, it is superseded. In both cases the
ledger is as it was, and the report says which of them happened.
-/

namespace SealedGroup

/-- A message that was answered with an identifier is confirmed. -/
theorem Delivery.isConfirmed_ofResult_ok (dispatch : Dispatch) (messageId : String) :
    (ofResult dispatch (.ok messageId)).isConfirmed = true := rfl

namespace Service

/-- **A pair is handed out to the targets**: a message to the whole group holds one
wrapper for each of them, in their order, and each wrapper gives the pair to whoever
has the secret behind its recipient. -/
structure HandsOut (group : Identifier) (targets : List Identifier) (pair : KeyPair)
    (wrappers : List Wrapper) (dispatch : Dispatch) : Prop where
  addressed : dispatch.recipient = .group group
  carried : dispatch.message.body = .keyPair wrappers
  recipients : wrappers.map Wrapper.recipient = targets
  opens : ∀ wrapper ∈ wrappers, ∀ secret : Scalar,
    wrapper.recipient = Identifier.ofPublicKey secret.publicKey →
      wrapper.unwrap secret.toBytes = .ok pair

/-- The message of a rotation hands out its pair. -/
theorem handsOut_of_seals (group : Identifier) {targets : List Identifier} {pair : KeyPair}
    {wrappers : List Wrapper} (h : List.Forall₂ (Wrapper.Seals pair) targets wrappers)
    (identifier : String) (createdAt : Int64) :
    HandsOut group targets pair wrappers
      (.toGroup group (Message.create group identifier createdAt (.keyPair wrappers))) where
  addressed := rfl
  carried := rfl
  recipients := Wrapper.recipients_of_seals h
  opens := fun _ hmem _ hsecret => Wrapper.unwrap_of_seals (Wrapper.seals_of_mem h hmem) hsecret

/-- A pair that is handed out to a roster has one recipient for each member. -/
theorem HandsOut.mem_recipients {group : Identifier} {members : List Identifier} {pair : KeyPair}
    {wrappers : List Wrapper} {dispatch : Dispatch}
    (h : HandsOut group (Roster.ofList members).toList pair wrappers dispatch) {id : Identifier} :
    id ∈ wrappers.map Wrapper.recipient ↔ id ∈ members := by
  rw [h.recipients, Roster.mem_toList, Roster.mem_ofList]

/-- The recipients of a roster stand in ascending order. -/
theorem HandsOut.ascending {group : Identifier} {roster : Roster} {pair : KeyPair}
    {wrappers : List Wrapper} {dispatch : Dispatch}
    (h : HandsOut group roster.toList pair wrappers dispatch) :
    (wrappers.map Wrapper.recipient).Pairwise (· < ·) := by
  rw [h.recipients]
  exact roster.ascending

/-- **How the key of a group goes on**, given what was ready for a new one: what is
sent, what the key ledger becomes, and what is said of the rotation. -/
inductive Rekeyed (ready : Prop) (group : Identifier) (targets : List Identifier)
    (secrets : List Scalar) (keys : KeyLedger) :
    List (Dispatch × Except SendError String) → KeyLedger → Option Rotation.Outcome → Prop where
  /-- No key is handed out, and the old one stays. -/
  | kept {rotation : Option Rotation.Outcome} (hnot : ¬ready)
      (hrotation : ∀ publicKey count, rotation ≠ some (.committed publicKey count)) :
      Rekeyed ready group targets secrets keys [] keys rotation
  /-- A key is handed out, and the old one stays all the same. -/
  | unkept {pair : KeyPair} {wrappers : List Wrapper} {dispatch : Dispatch}
      {answer : Except SendError String} {rotation : Option Rotation.Outcome} (hready : ready)
      (hpair : HandsOut group targets pair wrappers dispatch)
      (hrotation : ∀ publicKey count, rotation ≠ some (.committed publicKey count)) :
      Rekeyed ready group targets secrets keys [(dispatch, answer)] keys rotation
  /-- A key is handed out, and is the key of the group from now on. -/
  | committed {pair : KeyPair} {wrappers : List Wrapper} {dispatch : Dispatch}
      {messageId : String} (hready : ready)
      (hpair : HandsOut group targets pair wrappers dispatch) (hdrawn : pair.secret ∈ secrets) :
      Rekeyed ready group targets secrets keys [(dispatch, .ok messageId)]
        (keys.add group pair).2 (some (.committed pair.publicText targets.length))

section

variable {ready : Prop} {group : Identifier} {targets : List Identifier} {secrets : List Scalar}
  {keys keys' : KeyLedger} {rest : List (Dispatch × Except SendError String)}
  {rotation : Option Rotation.Outcome}

/-- A key is handed out exactly if all was ready for it. -/
theorem Rekeyed.sends_iff (h : Rekeyed ready group targets secrets keys rest keys' rotation) :
    rest ≠ [] ↔ ready := by
  cases h with
  | kept hnot _ => exact iff_of_false (fun hrest => hrest rfl) hnot
  | unkept hready _ _ => exact iff_of_true (List.cons_ne_nil _ _) hready
  | committed hready _ _ => exact iff_of_true (List.cons_ne_nil _ _) hready

/-- Whatever is sent is one message that hands a pair out. -/
theorem Rekeyed.handsOut (h : Rekeyed ready group targets secrets keys rest keys' rotation)
    (hrest : rest ≠ []) :
    ∃ pair wrappers dispatch answer, rest = [(dispatch, answer)] ∧
      HandsOut group targets pair wrappers dispatch := by
  cases h with
  | kept _ _ => exact absurd rfl hrest
  | unkept _ hpair _ => exact ⟨_, _, _, _, rfl, hpair⟩
  | committed _ hpair _ => exact ⟨_, _, _, _, rfl, hpair⟩

/-- A rotation that was committed handed a pair out, and added it to the ledger. -/
theorem Rekeyed.add_of_committed {publicKey : String} {count : Nat}
    (h : Rekeyed ready group targets secrets keys rest keys'
      (some (.committed publicKey count))) :
    ∃ pair wrappers dispatch messageId, rest = [(dispatch, .ok messageId)] ∧
      HandsOut group targets pair wrappers dispatch ∧ publicKey = pair.publicText ∧
      count = targets.length ∧ pair.secret ∈ secrets ∧ keys' = (keys.add group pair).2 := by
  cases h with
  | kept _ hrotation => exact absurd rfl (hrotation publicKey count)
  | unkept _ _ hrotation => exact absurd rfl (hrotation publicKey count)
  | committed _ hpair hdrawn => exact ⟨_, _, _, _, rfl, hpair, rfl, rfl, hdrawn, rfl⟩

/-- Any other rotation leaves the ledger as it was. -/
theorem Rekeyed.keys_eq (h : Rekeyed ready group targets secrets keys rest keys' rotation)
    (hrotation : ∀ publicKey count, rotation ≠ some (.committed publicKey count)) :
    keys' = keys := by
  cases h with
  | kept _ _ => rfl
  | unkept _ _ _ => rfl
  | committed _ _ _ => exact absurd rfl (hrotation _ _)

end

variable {ε : Type} (environment : Environment ε) (config : Config) {r : InFlight}
  {ledgers : Ledgers} {e : Recorded ε}

/-- Of an edited group only an administrator may rotate the key. -/
theorem obstacle_of_edited (account : Identifier) {current state : StoredGroup}
    (hlegacy : state.isLegacy = true) (hadmins : state.admins = current.admins) :
    Rotation.obstacle account (current.isAdmin account) (some state) =
      if account ∈ current.admins then none else some .unauthorized := by
  unfold Rotation.obstacle StoredGroup.isAdmin
  dsimp only
  rw [hlegacy, hadmins]
  by_cases hadmin : account ∈ current.admins
  · rw [if_pos hadmin, decide_eq_true hadmin]
    rfl
  · rw [if_neg hadmin, decide_eq_false hadmin]
    rfl

/-- **The rotation after a removal** gives the group a new key exactly if we are an
administrator and every target is usable. -/
theorem exec_rotateAfterRemoval {current state : StoredGroup} {snapshot : GroupSnapshot}
    (hstored : ledgers.groups.get? snapshot.id = some state) (hlegacy : state.isLegacy = true)
    (hadmins : state.admins = current.admins) :
    ∃ outcome world, (rotateAfterRemoval (Ledgers.backend environment.recorded) config current
        snapshot).exec ⟨r, ⟨ledgers, e⟩⟩ = (.ok outcome, world) ∧
      ∃ rest, world.outside.environment.sends = e.sends ++ rest ∧
        Rekeyed (config.account ∈ current.admins ∧ ∀ id ∈ snapshot.members, id.Usable)
          snapshot.id snapshot.members world.outside.environment.secrets ledgers.keys rest
          world.outside.ledgers.keys (some outcome) := by
  have hobstacle := obstacle_of_edited config.account hlegacy hadmins
  rw [← hstored] at hobstacle
  unfold rotateAfterRemoval
  rw [Act.exec_tryCatch]
  by_cases hadmin : config.account ∈ current.admins
  · rw [if_pos hadmin] at hobstacle
    cases hfault : Identifier.firstFault snapshot.members with
    | some cause =>
      -- a pair was made, and nobody gets to see it
      obtain ⟨e', hquiet, hrun⟩ := Rotation.exec_run_of_fault environment.recorded (r := r)
        (e := e) hobstacle hfault
      rw [hrun]
      refine ⟨_, _, rfl, [], ?_, .kept (fun hready => ?_) nofun⟩
      · rw [List.append_nil]
        exact hquiet.recorded.1
      · rw [Identifier.firstFault_eq_none_iff.mpr hready.2] at hfault
        cases hfault
    | none =>
      have husable := Identifier.firstFault_eq_none_iff.mp hfault
      obtain ⟨e', wrappers, identifier, createdAt, hquiet, hseals, answer, _, e'', outcome, r',
        ledgers', hsent, hrun, hending⟩ :=
        Rotation.exec_run_of_usable environment.recorded (r := r) (e := e) hobstacle husable
      obtain ⟨hsends, hsecrets⟩ := Environment.transmit_recorded hsent
      rw [hquiet.recorded.1] at hsends
      rw [hquiet.recorded.2] at hsecrets
      have hdrawn : (Rotation.nextAttempt environment.recorded e).pair.secret ∈ e''.secrets := by
        rw [hsecrets]
        exact List.mem_append_right e.secrets (List.mem_singleton.mpr rfl)
      have hpair := handsOut_of_seals snapshot.id hseals identifier createdAt
      rw [hrun]
      refine ⟨outcome, _, rfl, _, hsends, ?_⟩
      cases hending with
      | committed _ => exact .committed ⟨hadmin, husable⟩ hpair hdrawn
      | superseded _ => exact .unkept ⟨hadmin, husable⟩ hpair nofun
      | outstanding _ => exact .unkept ⟨hadmin, husable⟩ hpair nofun
  · rw [if_neg hadmin] at hobstacle
    rw [Rotation.exec_run_of_obstacle environment.recorded hobstacle]
    exact ⟨_, _, rfl, [], (List.append_nil _).symm, .kept (fun hready => hadmin hready.1) nofun⟩

/-- **A removal is announced and followed up**: its message is the first to be sent, and
the group gets a new key if that message arrived, we are an administrator, and every
target is usable. -/
def FollowsUp (config : Config) (current : StoredGroup) (group : Identifier)
    (targets ids : List Identifier) (before after : Local (Recorded ε))
    (rotation : Option Rotation.Outcome) : Prop :=
  ∃ announcement answer rest, announcement.body = .removal ids ∧
    after.environment.sends =
      before.environment.sends ++ (.toGroup group announcement, answer) :: rest ∧
    Rekeyed ((∃ messageId, answer = .ok messageId) ∧ config.account ∈ current.admins ∧
        ∀ id ∈ targets, id.Usable)
      group targets after.environment.secrets before.ledgers.keys rest after.ledgers.keys rotation

/-- The announcement of a removal follows it up. -/
theorem exec_announceRemoval {current state : StoredGroup} {snapshot : GroupSnapshot}
    (hstored : ledgers.groups.get? snapshot.id = some state) (hlegacy : state.isLegacy = true)
    (hadmins : state.admins = current.admins) (ids : List Identifier) (identifier : String) :
    ∃ records rotation world, (announceRemoval (Ledgers.backend environment.recorded) config
        current snapshot ids identifier).exec ⟨r, ⟨ledgers, e⟩⟩ = (.ok (records, rotation), world) ∧
      FollowsUp config current snapshot.id snapshot.members ids ⟨ledgers, e⟩ world.outside
        rotation := by
  unfold announceRemoval
  rw [Act.exec_bind_of_ok (Ledgers.exec_networkTime environment.recorded r ledgers e config)]
  generalize hannouncement : Message.create snapshot.id identifier
    ((environment.recorded.now e).1 + config.networkOffset) (.removal ids) = announcement
  have hbody : announcement.body = .removal ids := hannouncement ▸ rfl
  rcases hsent : environment.recorded.transmit (.toGroup snapshot.id announcement) r
    (environment.recorded.now e).2 with ⟨answer, r', e'⟩
  have hannounced : e'.sends = e.sends ++ [(.toGroup snapshot.id announcement, answer)] :=
    (Environment.transmit_recorded hsent).1
  rw [Act.exec_bind_of_ok (exec_deliver environment.recorded hsent)]
  cases answer with
  | error error =>
    refine ⟨_, _, _, rfl, announcement, .error error, [], hbody, hannounced, .kept ?_ nofun⟩
    rintro ⟨⟨messageId, hanswer⟩, _⟩
    cases hanswer
  | ok messageId =>
    obtain ⟨outcome, world, hrotate, rest, hsends, hrekeyed⟩ := exec_rotateAfterRemoval environment
      config (r := r') (e := e') hstored hlegacy hadmins
    rw [if_pos (Delivery.isConfirmed_ofResult_ok _ messageId), Act.exec_bind_of_ok hrotate]
    refine ⟨_, _, world, rfl, announcement, .ok messageId, rest, hbody, ?_, ?_⟩
    · rw [hsends, hannounced, List.append_assoc]
      rfl
    · rwa [and_iff_right ⟨messageId, rfl⟩]

/-- Publishing a removal follows it up. -/
theorem exec_publish_removal {current state : StoredGroup} (snapshot : GroupSnapshot)
    (hstored : ledgers.groups.get? snapshot.id = some state) (hlegacy : state.isLegacy = true)
    (hadmins : state.admins = current.admins) (ids : List Identifier) (pair : Option KeyPair) :
    ∃ report world, (publish (Ledgers.backend environment.recorded) config current snapshot
        (.removed ids) pair).exec ⟨r, ⟨ledgers, e⟩⟩ = (.ok report, world) ∧
      FollowsUp config current snapshot.id snapshot.members ids ⟨ledgers, e⟩ world.outside
        report.rotation := by
  have hchange : (Change.removed ids).announcement? = some (.removed ids) := if_neg nofun
  obtain ⟨notice, e', hquiet, _, _, _, _, _, hannounce, hpublish, _⟩ :=
    exec_publish_of_announcement environment.recorded config current snapshot (r := r) (e := e)
      hchange pair hstored
  -- a notice is none of the groups
  have hstill : ({ ledgers with groups := ledgers.groups.append notice } : Ledgers).groups.get?
      snapshot.id = some state := hstored
  obtain ⟨_, _, _, hremoval, hfollows⟩ := exec_announceRemoval environment config (r := r)
    (e := e') hstill hlegacy hadmins ids notice.id
  unfold announce at hannounce
  cases hremoval.symm.trans hannounce
  refine ⟨_, _, hpublish, ?_⟩
  unfold FollowsUp at hfollows ⊢
  rwa [hquiet.recorded.1] at hfollows

/-- **An edit that removes members follows the removal up**, among those who stay. -/
theorem exec_edit_removal (hsound : ledgers.Sound) {group : Identifier} {name : String}
    {members ids : List Identifier} {report : EditReport} {world : World (Local (Recorded ε))}
    (hexec : (edit (Ledgers.backend environment.recorded) config group name members).exec
      ⟨r, ⟨ledgers, e⟩⟩ = (.ok report, world))
    (hremoved : report.change = .removed ids) :
    ∃ current, ledgers.groups.get? group = some current ∧
      current.changeOf name members = .removed ids ∧
      FollowsUp config current group (Roster.ofList members).toList ids ⟨ledgers, e⟩ world.outside
        report.rotation := by
  obtain ⟨current, hallowed, hchange, _⟩ :=
    allowed_of_exec_edit environment.recorded config hsound hexec
  rw [hchange] at hremoved
  obtain ⟨pair, _, hedit⟩ := exec_edit_of_allowed environment.recorded r e hsound hallowed
  -- when the edit was made does not matter from here on
  generalize (environment.recorded.now e).1 = activeAt at hedit
  have hid := hsound.filed hallowed.stored
  have hlegacy : (current.updated (current.edited group name members activeAt)).isLegacy =
      true := by
    show (!current.id.isKeyed) = true
    rw [hid, hallowed.notKeyed]
    rfl
  rw [hremoved] at hedit
  obtain ⟨report', world', hpublish, hfollows⟩ := exec_publish_removal environment config (r := r)
    (e := (environment.recorded.now e).2) (current.edited group name members activeAt)
    (ledgers.get?_written hid) hlegacy (current.admins_updated_edited group name members _) ids pair
  cases hexec.symm.trans (hedit.trans hpublish)
  exact ⟨current, hallowed.stored, hremoved, hfollows⟩

/-- **Those who stay are given the new key, and nobody else is.** The message of the
removal comes first. A second one is sent exactly if the first arrived, we are an
administrator of the group, and every member who stays holds a point of the curve; it
hands a pair out to just the members who stay, in ascending order. A rotation that is
reported as committed made this pair, which no earlier one equals, the last one of the
group, and any other leaves the key ledger as it was. -/
theorem removal_rekeys_members (hledgers : ledgers.Reachable) {start : ε} {group : Identifier}
    {name : String} {members kicked : List Identifier} {report : EditReport}
    {world : World (Local (Recorded ε))}
    (hexec : (edit (Ledgers.backend environment.recorded) config group name members).exec
      ⟨r, ⟨ledgers, .start start⟩⟩ = (.ok report, world))
    (hremoved : report.change = .removed kicked)
    (hfresh : ∀ secret ∈ world.outside.environment.secrets, ∀ earlier : KeyPair,
      earlier.toRow ∈ ledgers.keys.history group → earlier.secret ≠ secret) :
    ∃ current announcement answer rest,
      ledgers.groups.get? group = some current ∧ announcement.body = .removal kicked ∧
      world.outside.environment.sends = (.toGroup group announcement, answer) :: rest ∧
      (rest ≠ [] ↔ (∃ messageId, answer = .ok messageId) ∧ config.account ∈ current.admins ∧
        ∀ id ∈ members, ∃ key, id = Identifier.ofPublicKey key) ∧
      (rest ≠ [] → ∃ pair wrappers dispatch answer', rest = [(dispatch, answer')] ∧
        HandsOut group (Roster.ofList members).toList pair wrappers dispatch ∧
        (wrappers.map Wrapper.recipient).Pairwise (· < ·) ∧
        (∀ id, id ∈ wrappers.map Wrapper.recipient ↔ id ∈ members) ∧
        ∀ id ∈ kicked, id ∉ wrappers.map Wrapper.recipient) ∧
      (∀ publicKey count, report.rotation = some (.committed publicKey count) →
        ∃ pair wrappers dispatch messageId, rest = [(dispatch, .ok messageId)] ∧
          HandsOut group (Roster.ofList members).toList pair wrappers dispatch ∧
          publicKey = pair.publicText ∧ count = (Roster.ofList members).toList.length ∧
          world.outside.ledgers.keys.history group =
            ledgers.keys.history group ++ [pair.toRow] ∧
          world.outside.ledgers.keys.latest group = .ok (some pair) ∧
          ∀ earlier : KeyPair, earlier.toRow ∈ ledgers.keys.history group → earlier ≠ pair) ∧
      ((∀ publicKey count, report.rotation ≠ some (.committed publicKey count)) →
        world.outside.ledgers.keys = ledgers.keys) := by
  obtain ⟨current, hstored, hchange, announcement, answer, rest, hbody, hsends, hrekeyed⟩ :=
    exec_edit_removal environment config hledgers.sound hexec hremoved
  have husable : (∀ id ∈ (Roster.ofList members).toList, id.Usable) ↔
      ∀ id ∈ members, ∃ key, id = Identifier.ofPublicKey key := by
    refine forall_congr' fun id => imp_congr ?_ Identifier.usable_iff
    rw [Roster.mem_toList, Roster.mem_ofList]
  rw [husable] at hrekeyed
  dsimp only at hrekeyed
  refine ⟨current, announcement, answer, rest, hstored, hbody, hsends, hrekeyed.sends_iff,
    fun hrest => ?_, fun publicKey count hcommitted => ?_, hrekeyed.keys_eq⟩
  · obtain ⟨pair, wrappers, dispatch, answer', hsent, hpair⟩ := hrekeyed.handsOut hrest
    refine ⟨pair, wrappers, dispatch, answer', hsent, hpair, hpair.ascending,
      fun id => hpair.mem_recipients, fun id hmem => ?_⟩
    rw [hpair.mem_recipients]
    exact StoredGroup.not_mem_of_changeOf_removed hchange hmem
  · rw [hcommitted] at hrekeyed
    obtain ⟨pair, wrappers, dispatch, messageId, hsent, hpair, hpublic, hcount, hdrawn, hkeys⟩ :=
      hrekeyed.add_of_committed
    -- a pair is known by its secret, and this secret was drawn just now
    have hnew : ∀ earlier : KeyPair, earlier.toRow ∈ ledgers.keys.history group →
        earlier ≠ pair := by
      rintro earlier hearlier rfl
      exact hfresh _ hdrawn earlier hearlier rfl
    have hhistory : world.outside.ledgers.keys.history group =
        ledgers.keys.history group ++ [pair.toRow] := by
      rw [hkeys]
      exact KeyLedger.history_add_of_not_mem fun hmem => hnew pair hmem rfl
    exact ⟨pair, wrappers, dispatch, messageId, hsent, hpair, hpublic, hcount, hhistory,
      KeyLedger.latest_of_history_eq hhistory, hnew⟩

/-- Whoever stays alone with a group gets its new key. -/
theorem removal_rekeys_members_of_two :
    ∃ report world, (edit (Ledgers.backend Environment.still.recorded) Config.sample
        StoredGroup.sample.id "friends" [Config.sample.account]).exec
          ⟨InFlight.empty, ⟨Ledgers.sample, .start ()⟩⟩ = (.ok report, world) ∧
      report.change = .removed [Identifier.sample] ∧
      ∃ pair wrappers dispatch, HandsOut StoredGroup.sample.id
          (Roster.ofList [Config.sample.account]).toList pair wrappers dispatch ∧
        world.outside.ledgers.keys.latest StoredGroup.sample.id = .ok (some pair) := by
  have hallowed : Allowed Config.sample Ledgers.sample StoredGroup.sample.id StoredGroup.sample
      "friends" [Config.sample.account] :=
    ⟨Ledgers.get?_sample, by decide, by decide, by decide +kernel⟩
  obtain ⟨report, world, hexec, hchange, _⟩ := exec_edit_ok Environment.still.recorded
    Config.sample (r := InFlight.empty) (e := .start ()) Ledgers.sample_reachable.sound hallowed
  have hremoved : report.change = .removed [Identifier.sample] :=
    hchange.trans (by decide +kernel)
  -- the group had no key, so that any key is fresh, and has one afterwards
  have hhistory : Ledgers.sample.keys.history StoredGroup.sample.id = [] := rfl
  have hkeys : ((edit (Ledgers.backend Environment.still.recorded) Config.sample
      StoredGroup.sample.id "friends" [Config.sample.account]).exec
        ⟨InFlight.empty, ⟨Ledgers.sample, .start ()⟩⟩).2.outside.ledgers.keys.history
          StoredGroup.sample.id ≠ [] := by
    decide +kernel
  rw [hexec] at hkeys
  obtain ⟨_, _, _, _, _, _, _, _, _, hcommitted, hkept⟩ := removal_rekeys_members
    Environment.still Config.sample Ledgers.sample_reachable hexec hremoved
      (by rw [hhistory]; exact fun _ _ _ h => absurd h List.not_mem_nil)
  refine ⟨report, world, hexec, hremoved, ?_⟩
  by_contra hnone
  refine hkeys ?_
  rw [hkept ?_]
  · exact hhistory
  · intro publicKey count hrotation
    obtain ⟨pair, wrappers, dispatch, _, _, hpair, _, _, _, hlatest, _⟩ :=
      hcommitted publicKey count hrotation
    exact hnone ⟨pair, wrappers, dispatch, hpair, hlatest⟩

end Service

end SealedGroup
