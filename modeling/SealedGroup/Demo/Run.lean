import SealedGroup.Demo.Arguments
import SealedGroup.Entropy
import SealedGroup.Json.Printer
import SealedGroup.Json.Report
import SealedGroup.Service.Ledgers

/-!
# The demo

The demo makes a group in memory, with ourselves and some random members in
it, applies one local edit to it and shows what happens: a line for every
message that is sent, and the report of the edit.

A run is a function of the arguments, of a source of randomness and of the
time on the clock.
-/

namespace SealedGroup

namespace Demo

/-- What the demo keeps besides the ledgers. -/
structure Desk where
  entropy : Entropy
  /-- The time on the clock. -/
  time : Int64
  /-- Every send fails. -/
  failing : Bool
  /-- The messages sent, the latest first. -/
  sent : List Dispatch

namespace Desk

/-- Draws from the source of randomness. -/
def draw {α : Type} (action : StateM Entropy α) : StateM Desk α := fun desk =>
  let (a, entropy) := action desk.entropy
  (a, { desk with entropy := entropy })

/-- The error of a send while sends are disabled. -/
def refusal : Recipient → SendError
  | .group id => .groupSendFailed id.text "sends disabled"
  | .member id => .memberSendFailed id.text "sends disabled"

/-- Shows a message instead of sending it, and numbers the messages from
one. -/
def present (dispatch : Dispatch) : StateM Desk (Except SendError String) := fun desk =>
  if desk.failing then (.error (refusal dispatch.recipient), desk)
  else
    (.ok ("msg-" ++ toString (desk.sent.length + 1)), { desk with sent := dispatch :: desk.sent })

/-- The environment of the demo. -/
def environment : Environment Desk where
  now := fun desk => (desk.time, desk)
  drawUuid := draw Entropy.uuid
  drawSecret := draw Entropy.secret
  drawCoins := draw Entropy.coins
  send := present

end Desk

/-- The line that shows a message. -/
def line (dispatch : Dispatch) : String :=
  "-> " ++ dispatch.recipient.id.text ++ " [" ++ toString dispatch.channel.tag ++ "] " ++
    dispatch.message.toJson.compact

/-- A random account. -/
def account : StateM Entropy Identifier := do
  let secret ← Entropy.secret
  pure (Identifier.ofPublicKey secret.publicKey)

/-- As many random accounts as asked for. -/
def accounts : Nat → StateM Entropy (List Identifier)
  | 0 => pure []
  | n + 1 => do
    let id ← account
    let ids ← accounts n
    pure (id :: ids)

/-- The group that a demo starts with, and those who take part in it. -/
structure Stage where
  us : Identifier
  others : List Identifier
  group : Identifier
  admin : Identifier
  /-- The key pair that the group starts with. -/
  initial : KeyPair

/-- Draws those who take part. The administrator is ourselves or the first
other member; without other members a stranger is. -/
def stage (args : Arguments) : StateM Entropy Stage := do
  let us ← account
  let others ← accounts args.members
  let group ← account
  let admin ← match args.role, others with
    | .admin, _ => pure us
    | .member, first :: _ => pure first
    | .member, [] => account
  let initial ← Entropy.secret
  pure ⟨us, others, group, admin, KeyPair.ofSecret initial⟩

/-- The members of the group at the start: the others, and us. -/
def Stage.members (s : Stage) : List Identifier :=
  s.others ++ [s.us]

/-- The ledgers that the demo starts with. -/
def Stage.ledgers (s : Stage) (groupName : String) : Ledgers where
  groups := GroupLedger.empty.put
    { StoredGroup.create s.group groupName s.members with admins := [s.admin] }
  keys := (KeyLedger.empty.add s.group s.initial).2

/-- Those of the others who are to be removed. Acting as a member we leave the
first of them, the administrator, in place. -/
def Stage.removable (s : Stage) (args : Arguments) : List Identifier :=
  (s.others.filter fun id => args.role == .admin || s.others.head? != some id).take args.remove

/-- The members that the edit asks for, without the new ones. -/
def Stage.remaining (s : Stage) (args : Arguments) : List Identifier :=
  s.members.filter fun id => !(s.removable args).contains id

/-- What a run of the demo leaves. -/
structure Result where
  stage : Stage
  /-- The messages sent, in order. -/
  sent : List Dispatch
  report : Except ServiceError EditReport
  ledgers : Ledgers

/-- **A run of the demo.** -/
def run (args : Arguments) (entropy : Entropy) (time : Int64) : Result :=
  let (s, entropy) := (stage args).run entropy
  let (fresh, entropy) := (accounts args.add).run entropy
  let config : Config := ⟨s.us, 0⟩
  let name := args.rename.getD args.groupName
  let world : World (Local Desk) :=
    ⟨InFlight.empty, s.ledgers args.groupName, ⟨entropy, time, args.failSends, []⟩⟩
  let (report, world) := (Service.edit (Ledgers.backend Desk.environment) config
    s.group name (s.remaining args ++ fresh)).exec world
  ⟨s, world.outside.environment.sent.reverse, report, world.outside.ledgers⟩

/-- What a run prints: the messages, then the report. -/
def Result.lines (result : Result) : List String :=
  result.sent.map line ++
    match result.report with
    | .ok report => [report.toJson.pretty]
    | .error _ => []

end Demo

end SealedGroup
