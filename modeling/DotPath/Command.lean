import DotPath.Environment
import DotPath.Json.WellFormed
import DotPath.Text.Utf8

/-!
# The command line

The program takes a path and prints what it leads to in the document on standard input, or checks
that the input is one well-formed value. With lines, the path is followed from every value of a
stream.
-/

namespace DotPath

/-- What the program is asked to do. -/
inductive Command where
  /-- Follow a path; with `lines`, from every value of a stream. -/
  | query (path : Text) (lines : Bool)
  /-- Check that the input is well-formed. -/
  | validate
  deriving DecidableEq, Repr

/-- Why the program does not answer. -/
inductive CommandError where
  /-- The arguments ask for nothing, for too much, or for help. -/
  | usage
  | unknownOption (option : Text)
  /-- The path does not compile. -/
  | path (e : PathError)
  | invalidJson
  /-- The path leads nowhere. -/
  | noMatch
  /-- The input is no UTF-8. -/
  | notUtf8
  deriving DecidableEq, Repr

/-- What is told to the user. -/
def CommandError.message : CommandError → Text
  | .usage => "usage: json-lens <path> [--lines] | json-lens --valid".toList
  | .unknownOption option => "unknown option: ".toList ++ option
  | .path e => "invalid path: ".toList ++ e.message
  | .invalidJson => "input is not well-formed JSON".toList
  | .noMatch => "no match".toList
  | .notUtf8 => "stream did not contain valid UTF-8".toList

/-- What the arguments read so far ask for. -/
structure Arguments where
  path : Option Text
  lines : Bool
  validate : Bool
  deriving DecidableEq, Repr

namespace Command

/-- Reads one argument. -/
def readArgument (read : Arguments) (argument : Text) : Except CommandError Arguments :=
  if argument == "--lines".toList then .ok { read with lines := true }
  else if argument == "--valid".toList then .ok { read with validate := true }
  else if argument == "-h".toList || argument == "--help".toList then .error .usage
  else if ['-', '-'].isPrefixOf argument then .error (.unknownOption argument)
  else if read.path.isSome then .error .usage
  else .ok { read with path := some argument }

/-- The command that all arguments together ask for. -/
def ofArguments (read : Arguments) : Except CommandError Command :=
  match read.validate, read.path with
  | true, none => if read.lines then .error .usage else .ok .validate
  | true, some _ => .error .usage
  | false, some path => .ok (.query path read.lines)
  | false, none => if read.lines then .ok (.query [] true) else .error .usage

/-- The command that a list of arguments asks for. -/
def parse (arguments : List Text) : Except CommandError Command := do
  let read ← arguments.foldlM readArgument ⟨none, false, false⟩
  ofArguments read

/-- The text of an input. -/
def readInput (octets : ByteArray) : Except CommandError Text :=
  match Text.ofUtf8? octets with
  | some t => .ok t
  | none => .error .notUtf8

/-- The path that a query follows: for lines, two dots in front of the path that is given. -/
def queryPath (path : Text) (lines : Bool) : Text :=
  if lines then '.' :: '.' :: path else path

/-- The answer of a command on an input. -/
def run (env : Environment) (command : Command) (input : Text) : Except CommandError Text :=
  match command with
  | .validate => if Json.valid input then .ok "true".toList else .error .invalidJson
  | .query path lines =>
    match Path.compile (queryPath path lines) with
    | .error e => .error (.path e)
    | .ok compiled =>
      let found := env.shared.eval input compiled
      if found.isPresent then .ok found.raw else .error .noMatch

/-- Whether a command aborts on an input. -/
def aborts (env : Environment) (memory : Memory) (command : Command) (input : Text) : Bool :=
  match command with
  | .validate => false
  | .query path lines =>
    env.shared.getAborts (env.aborts memory env.registry) input (queryPath path lines)

end Command

/-- What the program leaves behind: its status and what it writes. -/
structure Outcome where
  status : Nat
  output : Text
  errors : Text
  deriving DecidableEq, Repr

namespace Outcome

/-- Nothing but an error message, on a line of its own. -/
def failure (status : Nat) (e : CommandError) : Outcome :=
  ⟨status, [], e.message ++ ['\n']⟩

/--
What a run of the program leaves behind. Arguments that ask for nothing give status 2, and a path
that leads nowhere gives status 1 without a message.
-/
def ofRun (arguments : List Text) (input : ByteArray) : Outcome :=
  match Command.parse arguments with
  | .error e => failure 2 e
  | .ok command =>
    match Command.readInput input with
    | .error e => failure 1 e
    | .ok text =>
      match command.run .initial text with
      | .ok answer => ⟨0, answer ++ ['\n'], []⟩
      | .error .noMatch => ⟨1, [], []⟩
      | .error e => failure 1 e

/-- Whether a run of the program aborts, and leaves nothing of this behind. -/
def aborts (memory : Memory) (arguments : List Text) (input : ByteArray) : Bool :=
  match Command.parse arguments, Command.readInput input with
  | .ok command, .ok text => command.aborts .initial memory text
  | _, _ => false

/-- The status of a program that aborts. -/
def abortStatus : Nat := 101

end Outcome

end DotPath
