import LayeredConfig.Configuration
import LayeredConfig.Projection

/-!
# Running a command

A run loads the configuration, does what the command says, and ends with an exit code: 0 for success, 1 for a failure,
which is described on the error output. What understands the arguments and what writes documents and lists as text are
tools that a run is given.
-/

namespace LayeredConfig.CommandLine

/-! ## Commands -/

inductive OutputFormat where
  | json
  | toml
  deriving DecidableEq, Repr

inductive Command where
  | dump (format : OutputFormat)
  | get (within key : String) (kind : ScalarKind)
  | environment
  deriving DecidableEq, Repr

structure Invocation where
  directory : String
  overrides : Option Overrides
  command : Command

def Invocation.layers (invocation : Invocation) : Layers := { overrides := invocation.overrides }

/-! ## Outcomes -/

/-- What a run ends with. The lines that are logged on the error output on the way are no part of it. -/
inductive Outcome where
  | success (output : String)
  | failure (description : String)
  /-- There was nothing to run: the arguments asked for help, or were refused. -/
  | answered (code : UInt8) (output : String)
  deriving DecidableEq, Repr

namespace Outcome

def code : Outcome → UInt8
  | .success _ => 0
  | .failure _ => 1
  | .answered code _ => code

def output : Outcome → String
  | .success output => output
  | .failure _ => ""
  | .answered _ output => output

/-- What the error output ends with after a failure. -/
def report : Outcome → Option String
  | .failure description => some ("Error: " ++ description ++ "\n")
  | _ => none

def ofResult : Except Failure Outcome → Outcome
  | .ok outcome => outcome
  | .error reason => .failure reason.describe

/-- A text that could be written is printed. -/
def ofWritten (ending : String) : Except String String → Outcome
  | .ok text => .success (text ++ ending)
  | .error description => .failure description

end Outcome

/-! ## Tools -/

/-- What the arguments of a run come to. -/
inductive Parsed where
  | invoked (invocation : Invocation)
  | answered (code : UInt8) (output : String)

structure Tools where
  parse : (arguments : List String) → Parsed
  /-- The text of a document in a format, or what is wrong with the document. -/
  write : OutputFormat → Projection → Except String String
  /-- The text of a list of texts on one line. -/
  writeList : List String → Except String String

/-- The end of the line, where the text of a document does not have it. -/
def OutputFormat.ending : OutputFormat → String
  | .json => "\n"
  | .toml => ""

namespace Tools

variable (tools : Tools)

/-- What is printed for a value. A section is not. -/
def writeValue? : Value → Option (Except String String)
  | .scalar (.array items) => some (tools.writeList items)
  | value => value.render.map .ok

/-- Does what a command says with a configuration that has been loaded. -/
def execute (store : Store) (snapshot : Snapshot) : Command → Except Failure Outcome
  | .dump format => do
    let document ← snapshot.handle.projection store
    return .ofWritten format.ending (tools.write format document)
  | .get within key kind => do
    let (value?, _) ← snapshot.handle.read store (.scalar kind) (some within) key
    match value?.bind tools.writeValue? with
    | some written => return .ofWritten "\n" written
    | none => return .failure ("no value at " ++ within ++ "." ++ key)
  | .environment => return .success (snapshot.environment ++ "\n")

/-- Loads the configuration of an invocation, and does what its command says. -/
def invoke (disk : Disk) (vars : List (String × String)) (invocation : Invocation) : Except Failure Outcome := do
  let (snapshot, store) ← invocation.layers.load ⟨.ofDirectory disk invocation.directory, vars⟩ .empty
  tools.execute store snapshot invocation.command

def run (disk : Disk) (vars : List (String × String)) (arguments : List String) : Outcome :=
  match tools.parse arguments with
  | .answered code output => .answered code output
  | .invoked invocation => .ofResult (tools.invoke disk vars invocation)

end Tools

end LayeredConfig.CommandLine
