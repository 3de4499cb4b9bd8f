import SealedGroup.Demo.Run
import Std.Time.DateTime.Timestamp

/-!
# The program

Reads the command line, takes a seed and the time from the system, runs the
demo and prints what it shows.
-/

namespace SealedGroup.Demo

/-- The lines of the help text. -/
def helpLines : List String :=
  ["Apply a local change to a legacy closed group",
    "",
    "Usage: closed-group [OPTIONS]",
    "",
    "Options:",
    "  -n, --group-name <GROUP_NAME>  Group display name [default: Demo group]",
    "  -m, --members <MEMBERS>        Members besides ourselves [default: 3]",
    "  -r, --role <ROLE>              Whether we act as the group admin [default: admin] " ++
      "[possible values: admin, member]",
    "      --rename <RENAME>          New group name",
    "      --add <ADD>                Number of fresh members to add [default: 0]",
    "      --remove <REMOVE>          Number of existing members to remove [default: 0]",
    "      --fail-sends               Make every send fail",
    "  -h, --help                     Print help",
    "  -V, --version                  Print version"]

end SealedGroup.Demo

open SealedGroup

/-- Runs the demo that the command line asks for. -/
def main (args : List String) : IO UInt32 := do
  match Demo.Arguments.parse args with
  | .error .help =>
    for shown in Demo.helpLines do
      IO.println shown
    pure 0
  | .error .version =>
    IO.println "closed-group 1.0.0"
    pure 0
  | .error .usage =>
    IO.eprintln "error: invalid arguments, try --help"
    pure 2
  | .ok arguments =>
    let seed ← IO.getRandomBytes 32
    let now ← Std.Time.Timestamp.now
    let time := Int64.ofInt now.toMillisecondsSinceUnixEpoch.val
    let result := Demo.run arguments (Entropy.ofSeed seed.toList) time
    for shown in result.lines do
      IO.println shown
    match result.report with
    | .ok _ => pure 0
    | .error e =>
      IO.eprintln ("Error: " ++ e.message)
      pure 1
