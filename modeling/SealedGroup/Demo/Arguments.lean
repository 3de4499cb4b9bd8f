/-!
# The command line of the demo

Options are written long, as `--add 2` or `--add=2`, or short, as `-m 2`,
`-m2` or `-m=2`. A value that is an argument of its own must not begin with a
hyphen, unless it is a lone one. An option is given at most once, and there
are no other arguments; a bare double hyphen may end the options.

Arguments are judged from left to right. A request for help or for the
version is answered as soon as it is reached, if nothing before it is wrong.
-/

namespace SealedGroup

namespace Demo

/-- As whom we act in the demo group. -/
inductive Role where
  | admin
  | member
  deriving DecidableEq, Repr

/-- **What the demo is asked to do.** -/
structure Arguments where
  groupName : String
  /-- The members besides ourselves. -/
  members : Nat
  role : Role
  /-- A new name for the group. -/
  rename : Option String
  /-- How many new members to add. -/
  add : Nat
  /-- How many of the other members to remove. -/
  remove : Nat
  /-- Every send fails. -/
  failSends : Bool
  deriving DecidableEq, Repr

/-- The answer to a command line that is not to be run. -/
inductive Refusal where
  /-- The command line is wrong. -/
  | usage
  /-- The help text is asked for. -/
  | help
  /-- The version is asked for. -/
  | version
  deriving DecidableEq, Repr

/-- An option of the command line. -/
inductive Flag where
  | groupName
  | members
  | role
  | rename
  | add
  | remove
  | failSends
  | help
  | version
  deriving DecidableEq, Repr

namespace Role

/-- The word by which a role is named. -/
def name : Role → String
  | admin => "admin"
  | member => "member"

/-- The role with a name. -/
def ofName? (name : String) : Option Role :=
  [admin, member].find? fun role => role.name == name

end Role

namespace Flag

/-- The option with a long name. -/
def ofLong? (name : String) : Option Flag :=
  if name = "group-name" then some groupName
  else if name = "members" then some members
  else if name = "role" then some role
  else if name = "rename" then some rename
  else if name = "add" then some add
  else if name = "remove" then some remove
  else if name = "fail-sends" then some failSends
  else if name = "help" then some help
  else if name = "version" then some version
  else none

/-- The option with a short name. -/
def ofShort? (c : Char) : Option Flag :=
  if c = 'n' then some groupName
  else if c = 'm' then some members
  else if c = 'r' then some role
  else if c = 'h' then some help
  else if c = 'V' then some version
  else none

/-- The option is followed by a value. -/
def takesValue : Flag → Bool
  | failSends | help | version => false
  | groupName | members | role | rename | add | remove => true

end Flag

/-- The number that decimal digits spell, with a plus sign allowed before
them, if it has at most 64 bits. -/
def count? (value : String) : Option Nat :=
  let digits := match value.toList with
    | '+' :: rest => rest
    | cs => cs
  if digits.isEmpty || digits.any (fun c => c < '0' || '9' < c) then none
  else
    let n := digits.foldl (fun n c => n * 10 + (c.toNat - 0x30)) 0
    if n < UInt64.size then some n else none

namespace Arguments

/-- What the demo does if nothing is asked for. -/
def default : Arguments where
  groupName := "Demo group"
  members := 3
  role := .admin
  rename := none
  add := 0
  remove := 0
  failSends := false

/-- The arguments with the value of an option taken in. -/
def withValue (args : Arguments) (flag : Flag) (value : String) : Option Arguments :=
  match flag with
  | .groupName => some { args with groupName := value }
  | .members => (count? value).map fun n => { args with members := n }
  | .role => (Role.ofName? value).map fun role => { args with role := role }
  | .rename => some { args with rename := some value }
  | .add => (count? value).map fun n => { args with add := n }
  | .remove => (count? value).map fun n => { args with remove := n }
  | .failSends | .help | .version => none

/-- How far the arguments are judged: what they ask for, and which options
were given. -/
structure Progress where
  args : Arguments
  given : List Flag

/-- Takes in an option with its value. -/
def Progress.take (p : Progress) (flag : Flag) (value : String) : Except Refusal Progress :=
  if flag ∈ p.given then .error .usage
  else
    match p.args.withValue flag value with
    | some args => .ok ⟨args, flag :: p.given⟩
    | none => .error .usage

/-- Takes in an option without a value. -/
def Progress.set (p : Progress) (flag : Flag) : Except Refusal Progress :=
  match flag with
  | .help => .error .help
  | .version => .error .version
  | flag =>
    if flag ∈ p.given then .error .usage
    else .ok ⟨{ p.args with failSends := true }, flag :: p.given⟩

/-- One argument, taken apart. -/
inductive Token where
  /-- A bare double hyphen. -/
  | endOfOptions
  /-- An option, with the value attached to it if there is one. -/
  | option (flag : Flag) (attached : Option String)
  /-- Something that begins like an option and is none. -/
  | unknown
  /-- Anything else. -/
  | word (s : String)

/-- What an argument that begins with two hyphens is. -/
def longToken (cs : List Char) : Token :=
  let name := String.ofList (cs.takeWhile (· ≠ '='))
  let attached := match cs.dropWhile (· ≠ '=') with
    | _ :: value => some (String.ofList value)
    | [] => none
  match Flag.ofLong? name with
  | none => .unknown
  | some flag => if attached.isSome && !flag.takesValue then .unknown else .option flag attached

/-- What an argument that begins with one hyphen is. A flag without a value
that stands here ends the command line, so that nothing behind it counts. -/
def shortToken (c : Char) (rest : List Char) : Token :=
  match Flag.ofShort? c with
  | none => .unknown
  | some flag =>
    if flag.takesValue then
      match rest with
      | [] => .option flag none
      | '=' :: value => .option flag (some (String.ofList value))
      | value => .option flag (some (String.ofList value))
    else .option flag none

/-- What an argument is. -/
def token (s : String) : Token :=
  match s.toList with
  | ['-', '-'] => .endOfOptions
  | '-' :: '-' :: cs => longToken cs
  | '-' :: c :: rest => shortToken c rest
  | _ => .word s

/-- Judges the arguments from left to right. -/
def judge (p : Progress) : List String → Except Refusal Progress
  | [] => .ok p
  | s :: rest =>
    match token s with
    | .endOfOptions => if rest.isEmpty then .ok p else .error .usage
    | .unknown => .error .usage
    | .word _ => .error .usage
    | .option flag (some value) => (p.take flag value).bind fun p => judge p rest
    | .option flag none =>
      if flag.takesValue then
        match rest with
        | [] => .error .usage
        | value :: rest =>
          match token value with
          | .word value => (p.take flag value).bind fun p => judge p rest
          | _ => .error .usage
      else (p.set flag).bind fun p => judge p rest

/-- **The arguments that a command line spells**, or why it is not to be
run. -/
def parse (args : List String) : Except Refusal Arguments :=
  (judge ⟨default, []⟩ args).map (·.args)

end Arguments

end Demo

end SealedGroup
