import SealedGroup.Proofs.Ledger.Rows
import SealedGroup.Proofs.Service.Keeping
import SealedGroup.Proofs.Service.Trace
import SealedGroup.Service.Fault

/-!
# Key pairs on file

A backend has its own way of keeping the key pairs of the groups, and any of its calls may fail.
`Backend.Files` says what can be relied on all the same: a pair that the backend says it took is
at the end of the history of its group, unless it had been there before; a pair that it refused
has left no trace; and nothing else that the service does touches a history. The histories
themselves are a view of the outside state, so that a backend may keep them in any form.

These are conditions on single calls, of a kind that can be checked for a given backend, and
they hold of the ones at hand. The backend over ledgers in memory files pairs so
(`Ledgers.files`), and it goes on doing so when its ledgers are made to fail
(`Backend.Files.armed`): a fault strikes before the ledger is touched. A backend that takes a
pair and then loses the answer is not of this kind.

## From calls to runs

Whether a run of the service has filed a pair is not to be seen from its result. It is seen from
its trace: the histories after a run are those before, with each pair filed that a call was
answered to have taken (`Traced.Accounted`), and every operation of the service accounts for
them in this way (`Backend.Files.keeps_accounted`). And so the trace of a whole edit tells what
has become of the histories (`Backend.Files.edit`), and a statement about stored keys turns into
one about the order of calls.
-/

namespace SealedGroup

/-- The key pairs that each group has had, as rows, the latest last. -/
abbrev KeyHistories := Identifier → List KeyRow

/-- **The histories with a pair filed**: at the end of the history of its group, unless it is
in there. -/
def KeyHistories.file (histories : KeyHistories) (group : Identifier) (pair : KeyPair) :
    KeyHistories := fun other =>
  if other = group ∧ pair.toRow ∉ histories group then histories group ++ [pair.toRow]
  else histories other

/-- A new pair is the last one of its group. -/
theorem KeyHistories.file_of_not_mem {histories : KeyHistories} {group : Identifier}
    {pair : KeyPair} (h : pair.toRow ∉ histories group) :
    histories.file group pair group = histories group ++ [pair.toRow] :=
  if_pos ⟨rfl, h⟩

/-- **The backend files key pairs**, and its outside state shows the histories. -/
structure Backend.Files {σ : Type} (backend : Backend σ) (histories : σ → KeyHistories) :
    Prop where
  /-- A pair is filed if the backend says so, whether it was new or not. -/
  filed : ∀ {group pair s new s'}, backend.appendPair group pair s = (.ok new, s') →
    histories s' = (histories s).file group pair
  /-- A failed addition adds nothing. -/
  refused : ∀ {group pair s error s'}, backend.appendPair group pair s = (.error error, s') →
    histories s' = histories s
  /-- The current pair is the last one of the history, if it can be read. -/
  latest : ∀ {group s current s' pair}, backend.currentPair group s = (.ok current, s') →
    (histories s group).getLast? = some pair.toRow → current = some pair
  loadGroup : ∀ id s, histories (backend.loadGroup id s).2 = histories s
  saveGroup : ∀ state s, histories (backend.saveGroup state s).2 = histories s
  commit : ∀ id s, histories (backend.commit id s).2 = histories s
  appendNotice : ∀ notice s, histories (backend.appendNotice notice s).2 = histories s
  currentPair : ∀ group s, histories (backend.currentPair group s).2 = histories s
  now : ∀ s, histories (backend.now s).2 = histories s
  drawUuid : ∀ s, histories (backend.drawUuid s).2 = histories s
  drawSecret : ∀ s, histories (backend.drawSecret s).2 = histories s
  drawCoins : ∀ s, histories (backend.drawCoins s).2 = histories s
  send : ∀ dispatch world,
    histories (backend.send dispatch world).2.outside = histories world.outside

/-- **Both ledgers take their part** in committing a pair: the one files it, the other marks the
group as changed. -/
def Backend.Accepts {σ : Type} (backend : Backend σ) (group : Identifier) (pair : KeyPair)
    (s s' : σ) : Prop :=
  ∃ new between, backend.appendPair group pair s = (.ok new, between) ∧
    backend.commit group between = (.ok (), s')

namespace Backend.Files

variable {σ : Type} {backend : Backend σ} {histories : σ → KeyHistories} {group : Identifier}
  {pair : KeyPair} {s s' t : σ}

/-- A commit after a pair was taken leaves it on file. -/
theorem filed_of_commit (h : backend.Files histories) {new : Bool} {between : σ}
    {answer : Except LedgerError Unit}
    (happend : backend.appendPair group pair s = (.ok new, between))
    (hcommit : backend.commit group between = (answer, s')) :
    histories s' = (histories s).file group pair := by
  have hkept := h.commit group between
  rw [hcommit] at hkept
  exact hkept.trans (h.filed happend)

/-- **A new pair that both ledgers take** is the current one of its group. -/
theorem current_of_accepts (h : backend.Files histories)
    (haccepts : backend.Accepts group pair s s') (hnew : pair.toRow ∉ histories s group)
    {current : Option KeyPair} (hread : backend.currentPair group s' = (.ok current, t)) :
    current = some pair := by
  obtain ⟨new, between, happend, hcommit⟩ := haccepts
  refine h.latest hread ?_
  rw [h.filed_of_commit happend hcommit, KeyHistories.file_of_not_mem hnew, List.getLast?_concat]

end Backend.Files

/-- **Ledgers in memory file key pairs.** -/
theorem Ledgers.files {ε : Type} (environment : Environment ε) :
    (Ledgers.backend environment).Files fun s => s.ledgers.keys.history where
  filed := by
    intro group pair s new s' h
    cases h
    exact funext fun other => KeyLedger.history_add s.ledgers.keys group other pair
  refused := nofun
  latest := by
    intro group s current s' pair h hlast
    have hanswer : s.ledgers.keys.latest group = .ok current := congrArg Prod.fst h
    exact Except.ok.inj (hanswer.symm.trans (KeyLedger.latest_of_getLast? hlast))
  loadGroup := fun _ _ => rfl
  saveGroup := fun _ _ => rfl
  commit := fun id s => by
    cases hcommit : s.ledgers.groups.commit id with
    | error error => rw [commit_of_error environment hcommit]
    | ok groups => rw [commit_of_ok environment hcommit]
  appendNotice := fun _ _ => rfl
  currentPair := fun _ _ => rfl
  now := fun _ => rfl
  drawUuid := fun _ => rfl
  drawSecret := fun _ => rfl
  drawCoins := fun _ => rfl
  send := fun _ _ => rfl

namespace Armed

variable {σ α : Type} {operation : LedgerOperation} {action : StateM σ (Except LedgerError α)}
  {s s' : Armed σ}

/-- **A call under a fault** is a call of the ledger, or it fails and the ledger is not
touched. -/
theorem call_cases (operation : LedgerOperation) (action : StateM σ (Except LedgerError α))
    (s : Armed σ) :
    ((call operation action s).1 = (action s.outside).1 ∧
      (call operation action s).2.outside = (action s.outside).2) ∨
    (∃ error, (call operation action s).1 = .error error) ∧
      (call operation action s).2.outside = s.outside := by
  unfold call
  rcases s.faults operation with _ | ⟨_ | skip, error⟩
  · exact .inl ⟨rfl, rfl⟩
  · exact .inr ⟨⟨error, rfl⟩, rfl⟩
  · refine .inl ⟨rfl, ?_⟩
    -- the fault is counted down or not, and the ledger is where the call left it
    show (if (action s.outside).1.toBool then (⟨(action s.outside).2, s.faults⟩ : Armed σ).setFault
      operation (some ⟨skip, error⟩) else ⟨(action s.outside).2, s.faults⟩).outside = _
    split <;> rfl

/-- A call that gave a value is a call of the ledger. -/
theorem of_call_ok {a : α} (h : call operation action s = (.ok a, s')) :
    action s.outside = (.ok a, s'.outside) := by
  rcases call_cases operation action s with ⟨hanswer, houtside⟩ | ⟨⟨error, hanswer⟩, _⟩ <;>
    rw [h] at hanswer
  · rw [h] at houtside
    exact Prod.ext hanswer.symm houtside.symm
  · cases hanswer

/-- What a call of the ledger leaves as it is, a call under a fault does. -/
theorem call_keeps {β : Type} {view : σ → β} (h : ∀ s, view (action s).2 = view s)
    (s : Armed σ) : view (call operation action s).2.outside = view s.outside := by
  rcases call_cases operation action s with ⟨_, houtside⟩ | ⟨_, houtside⟩ <;> rw [houtside]
  exact h s.outside

end Armed

/-- **Faults do not keep a backend from filing key pairs.** -/
theorem Backend.Files.armed {σ : Type} {backend : Backend σ} {histories : σ → KeyHistories}
    (h : backend.Files histories) : backend.armed.Files fun s => histories s.outside where
  filed := fun hcall => h.filed (Armed.of_call_ok hcall)
  refused := by
    intro group pair s error s' hcall
    -- the ledger itself refused the pair, or a fault kept the call from it
    rcases Armed.call_cases .appendPair (backend.appendPair group pair) s with
      ⟨hanswer, houtside⟩ | ⟨_, houtside⟩
    · have hrefused : backend.appendPair group pair s.outside = (.error error, s'.outside) := by
        refine Prod.ext (hanswer.symm.trans (congrArg Prod.fst hcall)) (houtside.symm.trans ?_)
        exact congrArg (fun result => result.2.outside) hcall
      exact h.refused hrefused
    · have hsame : s'.outside = s.outside :=
        (congrArg (fun result => result.2.outside) hcall).symm.trans houtside
      rw [hsame]
  latest := fun hcall => h.latest (Armed.of_call_ok hcall)
  loadGroup := fun id => Armed.call_keeps (h.loadGroup id)
  saveGroup := fun state => Armed.call_keeps (h.saveGroup state)
  commit := fun id => Armed.call_keeps (h.commit id)
  appendNotice := fun notice => Armed.call_keeps (h.appendNotice notice)
  currentPair := fun group => Armed.call_keeps (h.currentPair group)
  now := fun s => h.now s.outside
  drawUuid := fun s => h.drawUuid s.outside
  drawSecret := fun s => h.drawSecret s.outside
  drawCoins := fun s => h.drawCoins s.outside
  send := fun dispatch world => h.send dispatch ⟨world.inFlight, world.outside.outside⟩

/-! ## What a trace tells of the histories -/

/-- The histories after a call: only a pair that was taken makes a difference. -/
def KeyHistories.after (histories : KeyHistories) : Call → KeyHistories
  | .pairAdded group pair (.ok _) => histories.file group pair
  | _ => histories

section

variable {σ α : Type} {backend : Backend σ} {histories : σ → KeyHistories}

/-- The histories are those before with what the new part of the trace made of them. -/
def Traced.Accounted (histories : σ → KeyHistories) (s t : Traced σ) : Prop :=
  ∃ more, t.calls = s.calls ++ more ∧
    histories t.outside = more.foldl KeyHistories.after (histories s.outside)

/-- A call that leaves the histories alone, and that does not say otherwise, is accounted for. -/
theorem Traced.accounted_entered {call : α → Call} {action : StateM σ α}
    (hcall : ∀ (h : KeyHistories) a, h.after (call a) = h)
    (hkeeps : ∀ s, histories (action s).2 = histories s) (s : Traced σ) :
    Accounted histories s (Traced.entered call action s).2 :=
  ⟨[call (action s.outside).1], rfl, (hkeeps s.outside).trans (hcall _ _).symm⟩

/-- So is what leaves no trace. -/
theorem Traced.accounted_silently {action : StateM σ α}
    (hkeeps : ∀ s, histories (action s).2 = histories s) (s : Traced σ) :
    Accounted histories s (Traced.silently action s).2 :=
  ⟨[], (List.append_nil _).symm, hkeeps s.outside⟩

/-- **Whatever the service does, its trace accounts for the histories.** -/
theorem Backend.Files.keeps_accounted (h : backend.Files histories) :
    backend.traced.Keeps (Traced.Accounted histories) where
  refl := fun _ => ⟨[], (List.append_nil _).symm, rfl⟩
  trans := by
    rintro s t u ⟨more, hmore, hst⟩ ⟨rest, hrest, htu⟩
    refine ⟨more ++ rest, ?_, ?_⟩
    · rw [hrest, hmore, List.append_assoc]
    · rw [htu, hst, List.foldl_append]
  loadGroup := fun id => Traced.accounted_entered (fun _ _ => rfl) (h.loadGroup id)
  commit := fun id => Traced.accounted_entered (fun _ _ => rfl) (h.commit id)
  appendNotice := fun notice => Traced.accounted_entered (fun _ _ => rfl) (h.appendNotice notice)
  currentPair := fun group => Traced.accounted_entered (fun _ _ => rfl) (h.currentPair group)
  appendPair := fun group pair s => by
    refine ⟨[.pairAdded group pair (backend.appendPair group pair s.outside).1], rfl, ?_⟩
    show histories (backend.appendPair group pair s.outside).2 =
      (histories s.outside).after
        (.pairAdded group pair (backend.appendPair group pair s.outside).1)
    rcases happend : backend.appendPair group pair s.outside with ⟨error | new, s'⟩
    · exact h.refused happend
    · exact h.filed happend
  now := Traced.accounted_silently h.now
  drawUuid := Traced.accounted_silently h.drawUuid
  drawSecret := Traced.accounted_entered (fun _ _ => rfl) h.drawSecret
  drawCoins := Traced.accounted_silently h.drawCoins
  send := fun dispatch world =>
    ⟨[.sent dispatch _], rfl, h.send dispatch ⟨world.inFlight, world.outside.outside⟩⟩

/-- **The trace of an edit tells what the histories are after it.** -/
theorem Backend.Files.edit (h : backend.Files histories) (config : Config) (group : Identifier)
    (name : String) (members : List Identifier) {world : World σ}
    {result : Except ServiceError EditReport} {after : World (Traced σ)}
    (hexec : (Service.edit backend.traced config group name members).exec world.traced =
      (result, after)) :
    histories after.outside.outside =
      after.calls.foldl KeyHistories.after (histories world.outside) := by
  have hsave : ∀ state s, Traced.Accounted histories s (backend.traced.saveGroup state s).2 :=
    fun state => Traced.accounted_entered (fun _ _ => rfl) (h.saveGroup state)
  obtain ⟨more, hmore, hhistories⟩ :=
    h.keeps_accounted.edit config hsave group name members world.traced
  rw [hexec] at hmore hhistories
  have hcalls : after.calls = more := hmore
  rw [hcalls]
  exact hhistories

end

end SealedGroup
