import SealedGroup.Proofs.Ledger.Rows
import SealedGroup.Proofs.Service.Execution
import SealedGroup.Service.Ledgers

/-!
# The service over ledgers in memory

What each operation of the backend in memory does, as an equation between worlds. With these at
hand a run of the service is computed by rewriting, and what comes out is a statement about
ledgers in which the service does not occur any more.

## Which ledgers there are

Not all ledgers that can be written down can be come by, and some of the others would answer in
ways that no run ever sees: a group filed under the identifier of another one, or a row that is
no pair. `Ledgers.Reachable` are those that a sequence of their own operations makes of the
empty ones. They are *sound*: a group is filed under its own identifier, and a row was written
for a pair (`Ledgers.Reachable.sound`). So loading never gives a group under a wrong name, and
reading the latest pair never fails. Statements about runs ask for reachable ledgers; their
proofs make use of soundness alone.

## What surrounds the ledgers

The clock, the draws and the transport make an environment, which may be any state with any
answers, and may let others change the registry while a message is on its way. What it does
without sending or drawing a secret is `Environment.Quiet`, and needs no attention. A `Recorded`
environment notes what is handed to the transport and which secrets are drawn, and answers as
the environment it is made from does.

For examples there are two environments. In a `still` one nothing ever changes, and every
message arrives; a `counting` one does not give the same draw twice. They come with a group of
two, of which we are the administrator.
-/

namespace SealedGroup

/-! ## Environments -/

/-- **An environment in which nothing changes.** Every draw gives the same, and
every send is confirmed. -/
def Environment.still : Environment Unit where
  now := pure 0
  drawUuid := pure ⟨0⟩
  drawSecret := pure (Scalar.ofNat 0)
  drawCoins := pure ⟨Scalar.ofNat 0, List.replicate Gcm.nonceSize 0, List.length_replicate⟩
  send _ := pure (.ok "")

/-- **An environment that counts its draws**, so that no two of the first `2 ^ 122` are the same.
Every send is confirmed. -/
def Environment.counting : Environment Nat where
  now := pure 0
  drawUuid n := (⟨BitVec.ofNat 122 n⟩, n + 1)
  drawSecret n := (Scalar.ofNat n, n + 1)
  drawCoins n :=
    (⟨Scalar.ofNat n, List.replicate Gcm.nonceSize 0, List.length_replicate⟩, n + 1)
  send _ := pure (.ok "")

section

variable {ε : Type}

/-- **What an environment does without sending or drawing a secret.** -/
inductive Environment.Quiet (environment : Environment ε) : ε → ε → Prop where
  | refl (e : ε) : Quiet environment e e
  | now {e e' : ε} (h : Quiet environment e e') : Quiet environment e (environment.now e').2
  | drawUuid {e e' : ε} (h : Quiet environment e e') :
      Quiet environment e (environment.drawUuid e').2
  | drawCoins {e e' : ε} (h : Quiet environment e e') :
      Quiet environment e (environment.drawCoins e').2

theorem Environment.Quiet.trans {environment : Environment ε} {e e' e'' : ε}
    (h : environment.Quiet e e') (h' : environment.Quiet e' e'') : environment.Quiet e e'' := by
  induction h' with
  | refl => exact h
  | now _ ih => exact ih.now
  | drawUuid _ ih => exact ih.drawUuid
  | drawCoins _ ih => exact ih.drawCoins

/-- The state of an environment, with a record of what was asked of it. -/
structure Recorded (ε : Type) where
  inner : ε
  /-- Each message handed to the transport, with the answer, oldest first. -/
  sends : List (Dispatch × Except SendError String)
  /-- The secrets that were drawn, oldest first. -/
  secrets : List Scalar

/-- The record before anything is asked for. -/
def Recorded.start (e : ε) : Recorded ε := ⟨e, [], []⟩

/-- **The same environment, keeping a record** of the sends and the secrets. -/
def Environment.recorded (environment : Environment ε) : Environment (Recorded ε) where
  now := fun e => ((environment.now e.inner).1, { e with inner := (environment.now e.inner).2 })
  drawUuid := fun e =>
    ((environment.drawUuid e.inner).1, { e with inner := (environment.drawUuid e.inner).2 })
  drawSecret := fun e =>
    let (secret, inner) := environment.drawSecret e.inner
    (secret, { e with inner := inner, secrets := e.secrets ++ [secret] })
  drawCoins := fun e =>
    ((environment.drawCoins e.inner).1, { e with inner := (environment.drawCoins e.inner).2 })
  send dispatch := fun e =>
    let (result, inner) := environment.send dispatch e.inner
    (result, { e with inner := inner, sends := e.sends ++ [(dispatch, result)] })
  meanwhile dispatch r e :=
    let (r, inner) := environment.meanwhile dispatch r e.inner
    (r, { e with inner := inner })
  distinct := environment.distinct

/-- **An attempt keeps its pair** for as long as it is registered. -/
theorem Environment.pair_of_transmit {environment : Environment ε} {dispatch : Dispatch}
    {r r' : InFlight} {e e' : ε} {answer : Except SendError String}
    (h : environment.transmit dispatch r e = (answer, r', e'))
    {group : Identifier} {id : Uuid} {pair pair' : KeyPair}
    (hbefore : r.get? group = some ⟨id, pair⟩) (hafter : r'.get? group = some ⟨id, pair'⟩) :
    pair' = pair := by
  cases h
  exact congrArg Attempt.pair (environment.distinct hbefore hafter rfl)

/-- A message that is handed to the transport goes to the end of the record. -/
theorem Environment.transmit_recorded {environment : Environment ε} {dispatch : Dispatch}
    {r r' : InFlight} {e e' : Recorded ε} {answer : Except SendError String}
    (h : environment.recorded.transmit dispatch r e = (answer, r', e')) :
    e'.sends = e.sends ++ [(dispatch, answer)] ∧ e'.secrets = e.secrets := by
  cases h
  exact ⟨rfl, rfl⟩

/-- The record says it when nothing was sent and no secret was drawn. -/
theorem Environment.Quiet.recorded {environment : Environment ε} {e e' : Recorded ε}
    (h : environment.recorded.Quiet e e') : e'.sends = e.sends ∧ e'.secrets = e.secrets := by
  induction h with
  | refl => exact ⟨rfl, rfl⟩
  | now _ ih => exact ih
  | drawUuid _ ih => exact ih
  | drawCoins _ ih => exact ih

end

/-! ## Commits -/

/-- The group ledger with one more commit of a group. -/
def GroupLedger.committed (ledger : GroupLedger) (id : Identifier) : GroupLedger :=
  { ledger with commits := ledger.commits.insert id (ledger.commitsOf id + 1) }

/-- A group that is stored can be committed. -/
theorem GroupLedger.commit_of_stored {ledger : GroupLedger} {id : Identifier} {state : StoredGroup}
    (h : ledger.get? id = some state) : ledger.commit id = .ok (ledger.committed id) := by
  rw [commit, h]
  rfl

/-! ## Reachable ledgers -/

namespace Ledgers

/-- **The ledgers that their own operations can make.** -/
inductive Reachable : Ledgers → Prop where
  | empty : Reachable Ledgers.empty
  | put {ledgers : Ledgers} (h : Reachable ledgers) (state : StoredGroup) :
      Reachable { ledgers with groups := ledgers.groups.put state }
  | commit {ledgers : Ledgers} (h : Reachable ledgers) {id : Identifier} {groups : GroupLedger}
      (hcommit : ledgers.groups.commit id = .ok groups) :
      Reachable { ledgers with groups := groups }
  | append {ledgers : Ledgers} (h : Reachable ledgers) (notice : Notice) :
      Reachable { ledgers with groups := ledgers.groups.append notice }
  | add {ledgers : Ledgers} (h : Reachable ledgers) (group : Identifier) (pair : KeyPair) :
      Reachable { ledgers with keys := (ledgers.keys.add group pair).2 }

/-- Every group is filed under its own identifier, and every row was written
for a pair. -/
structure Sound (ledgers : Ledgers) : Prop where
  filed : ∀ {id : Identifier} {state : StoredGroup},
    ledgers.groups.get? id = some state → state.id = id
  rows : ∀ {group : Identifier} {row : KeyRow},
    row ∈ ledgers.keys.history group → ∃ pair : KeyPair, pair.toRow = row

variable {ledgers : Ledgers}

theorem sound_empty : Sound Ledgers.empty where
  filed := fun h => absurd (show (none : Option StoredGroup) = some _ from h) nofun
  rows := fun h => absurd (show _ ∈ ([] : List KeyRow) from h) List.not_mem_nil

theorem Sound.put (h : Sound ledgers) (state : StoredGroup) :
    Sound { ledgers with groups := ledgers.groups.put state } where
  filed := by
    intro id stored hstored
    have hput := GroupLedger.get?_put ledgers.groups state id
    rw [show (ledgers.groups.put state).get? id = some stored from hstored] at hput
    by_cases hid : id = state.id
    · rw [if_pos hid] at hput
      cases hput
      exact hid.symm
    · rw [if_neg hid] at hput
      exact h.filed hput.symm
  rows := h.rows

/-- A change of the groups that leaves every state as it is keeps ledgers
sound. -/
theorem Sound.of_get? (h : Sound ledgers) {groups : GroupLedger}
    (hget : ∀ id, groups.get? id = ledgers.groups.get? id) :
    Sound { ledgers with groups := groups } where
  filed := fun hstored => h.filed ((hget _).symm.trans hstored)
  rows := h.rows

theorem Sound.add (h : Sound ledgers) (group : Identifier) (pair : KeyPair) :
    Sound { ledgers with keys := (ledgers.keys.add group pair).2 } where
  filed := h.filed
  rows := by
    intro other row hrow
    have hadd := KeyLedger.history_add ledgers.keys group other pair
    rw [show ((ledgers.keys.add group pair).2).history other = _ from hadd] at hrow
    split at hrow
    · rcases List.mem_append.mp hrow with hold | hnew
      · exact h.rows hold
      · exact ⟨pair, (List.mem_singleton.mp hnew).symm⟩
    · exact h.rows hrow

/-- **Reachable ledgers are sound.** -/
theorem Reachable.sound (h : Reachable ledgers) : Sound ledgers := by
  induction h with
  | empty => exact sound_empty
  | put _ state ih => exact ih.put state
  | commit _ hcommit ih => exact ih.of_get? (GroupLedger.get?_of_commit hcommit)
  | append _ notice ih => exact ih.of_get? fun _ => rfl
  | add _ group pair ih => exact ih.add group pair

/-- In sound ledgers the latest pair of a group can be read: there is none
exactly if the history is empty. -/
theorem Sound.latest (h : Sound ledgers) (group : Identifier) :
    (ledgers.keys.history group = [] ∧ ledgers.keys.latest group = .ok none) ∨
      ∃ pair, ledgers.keys.history group ≠ [] ∧ ledgers.keys.latest group = .ok (some pair) := by
  cases hlast : (ledgers.keys.history group).getLast? with
  | none =>
    have hnil := List.getLast?_eq_none_iff.mp hlast
    exact .inl ⟨hnil, KeyLedger.latest_of_nil hnil⟩
  | some row =>
    obtain ⟨pair, rfl⟩ := h.rows (List.mem_of_getLast? hlast)
    refine .inr ⟨pair, fun hnil => ?_, KeyLedger.latest_of_getLast? hlast⟩
    rw [hnil] at hlast
    cases hlast

end Ledgers

/-! ## A group of two -/

/-- We, whose secret is one. -/
def Config.sample : Config := ⟨Identifier.ofPublicKey PublicKey.generator, 0⟩

/-- Someone else. -/
def Identifier.sample : Identifier := ⟨0x05, List.replicate PublicKey.compressedSize 0⟩

/-- Someone who is not in our group. -/
def Identifier.stranger : Identifier := ⟨0x05, List.replicate PublicKey.compressedSize 1⟩

/-- A group of the two, of which we are the administrator. -/
def StoredGroup.sample : StoredGroup :=
  { StoredGroup.create ⟨0x05, []⟩ "friends" [Config.sample.account, Identifier.sample] with
    admins := [Config.sample.account] }

namespace Ledgers

/-- The ledgers with that group, which has no key yet. -/
def sample : Ledgers := { Ledgers.empty with groups := GroupLedger.empty.put StoredGroup.sample }

theorem sample_reachable : Reachable sample := Reachable.empty.put StoredGroup.sample

theorem get?_sample : sample.groups.get? StoredGroup.sample.id = some StoredGroup.sample := by
  rw [show sample.groups = GroupLedger.empty.put StoredGroup.sample from rfl,
    GroupLedger.get?_put, if_pos rfl]

/-- The ledgers with that group and a key for it. -/
def sampleWithKey : Ledgers :=
  { sample with
    keys := (sample.keys.add StoredGroup.sample.id (KeyPair.ofSecret (Scalar.ofNat 1))).2 }

theorem sampleWithKey_reachable : Reachable sampleWithKey := sample_reachable.add _ _

end Ledgers

/-! ## The operations of the backend -/

namespace Ledgers

variable {ε α : Type} (environment : Environment ε) (r : InFlight) (ledgers : Ledgers) (e : ε)

@[simp] theorem exec_loadGroup (id : Identifier) :
    (Act.ledger ((Ledgers.backend environment).loadGroup id)).exec ⟨r, ⟨ledgers, e⟩⟩ =
      (.ok (ledgers.groups.get? id), ⟨r, ⟨ledgers, e⟩⟩) := rfl

@[simp] theorem exec_saveGroup (state : StoredGroup) :
    (Act.ledger ((Ledgers.backend environment).saveGroup state)).exec ⟨r, ⟨ledgers, e⟩⟩ =
      (.ok (), ⟨r, ⟨{ ledgers with groups := ledgers.groups.put state }, e⟩⟩) := rfl

@[simp] theorem exec_appendNotice (notice : Notice) :
    (Act.ledger ((Ledgers.backend environment).appendNotice notice)).exec ⟨r, ⟨ledgers, e⟩⟩ =
      (.ok (), ⟨r, ⟨{ ledgers with groups := ledgers.groups.append notice }, e⟩⟩) := rfl

/-- A commit that the group ledger accepts is made. -/
theorem commit_of_ok {id : Identifier} {groups : GroupLedger} {s : Local ε}
    (h : s.ledgers.groups.commit id = .ok groups) :
    (Ledgers.backend environment).commit id s =
      (.ok (), { s with ledgers := { s.ledgers with groups := groups } }) := by
  simp only [Ledgers.backend, Local.onGroups, h]

/-- A commit that the group ledger refuses changes nothing. -/
theorem commit_of_error {id : Identifier} {error : LedgerError} {s : Local ε}
    (h : s.ledgers.groups.commit id = .error error) :
    (Ledgers.backend environment).commit id s = (.error error, s) := by
  simp only [Ledgers.backend, Local.onGroups, h]

theorem exec_commit {id : Identifier} {state : StoredGroup}
    (h : ledgers.groups.get? id = some state) :
    (Act.ledger ((Ledgers.backend environment).commit id)).exec ⟨r, ⟨ledgers, e⟩⟩ =
      (.ok (), ⟨r, ⟨{ ledgers with groups := ledgers.groups.committed id }, e⟩⟩) := by
  show ((((Ledgers.backend environment).commit id ⟨ledgers, e⟩).1.mapError ServiceError.ledger),
    (⟨r, ((Ledgers.backend environment).commit id ⟨ledgers, e⟩).2⟩ : World (Local ε))) = _
  have hcommit : (⟨ledgers, e⟩ : Local ε).ledgers.groups.commit id =
      .ok (ledgers.groups.committed id) := GroupLedger.commit_of_stored h
  rw [commit_of_ok environment hcommit]
  rfl

theorem exec_currentPair {group : Identifier} {pair? : Option KeyPair}
    (h : ledgers.keys.latest group = .ok pair?) :
    (Act.ledger ((Ledgers.backend environment).currentPair group)).exec ⟨r, ⟨ledgers, e⟩⟩ =
      (.ok pair?, ⟨r, ⟨ledgers, e⟩⟩) := by
  show ((ledgers.keys.latest group).mapError ServiceError.ledger, _) = _
  rw [h]
  rfl

@[simp] theorem exec_now :
    (Act.outside (Ledgers.backend environment).now).exec ⟨r, ⟨ledgers, e⟩⟩ =
      (.ok (environment.now e).1, ⟨r, ⟨ledgers, (environment.now e).2⟩⟩) := rfl

@[simp] theorem exec_networkTime (config : Config) :
    (config.networkTime (Ledgers.backend environment)).exec ⟨r, ⟨ledgers, e⟩⟩ =
      (.ok ((environment.now e).1 + config.networkOffset),
        ⟨r, ⟨ledgers, (environment.now e).2⟩⟩) := rfl

@[simp] theorem exec_drawUuid :
    (Act.outside (Ledgers.backend environment).drawUuid).exec ⟨r, ⟨ledgers, e⟩⟩ =
      (.ok (environment.drawUuid e).1, ⟨r, ⟨ledgers, (environment.drawUuid e).2⟩⟩) := rfl

@[simp] theorem exec_drawSecret :
    (Act.outside (Ledgers.backend environment).drawSecret).exec ⟨r, ⟨ledgers, e⟩⟩ =
      (.ok (environment.drawSecret e).1, ⟨r, ⟨ledgers, (environment.drawSecret e).2⟩⟩) := rfl

@[simp] theorem exec_send (dispatch : Dispatch) :
    (Act.whole ((Ledgers.backend environment).send dispatch)).exec ⟨r, ⟨ledgers, e⟩⟩ =
      (.ok (environment.transmit dispatch r e).1,
        ⟨(environment.transmit dispatch r e).2.1,
          ⟨ledgers, (environment.transmit dispatch r e).2.2⟩⟩) := rfl

end Ledgers

end SealedGroup
