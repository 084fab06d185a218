import LayeredConfig.CommandLine.Command
import LayeredConfig.Entries
import LayeredConfig.Text.Split

/-!
# Arguments of the command line

Options are `--name value`, `--name=value`, `-n value`, `-nvalue` or `-n=value`. Each is given at most once,
and a value that starts with a hyphen has to be attached. The general options come before the command, and
the options of a command after it, in any order with its words. After `--` there are only words. The first argument
that is not understood, or that asks for help, ends the reading.
-/

namespace LayeredConfig.CommandLine

/-! ## Options -/

/-- An option, which takes a value. -/
structure OptionName where
  long : String
  short : Option Char
  accepts : String → Bool

inductive Argument where
  | word
  /-- The mark after which there are only words. -/
  | escape
  | help
  | option (known : OptionName) (attached : Option String)
  | unknown

def Argument.ofText (options : List OptionName) (argument : String) : Argument :=
  match argument.toList with
  | ['-', '-'] => .escape
  | '-' :: '-' :: long =>
    let (name, attached) :=
      match Text.cutAtChar '=' long with
      | some (name, value) => (String.ofList name, some (String.ofList value))
      | none => (String.ofList long, none)
    if name = "help" ∧ attached = none then .help
    else
      match options.find? fun known => known.long = name with
      | some known => .option known attached
      | none => .unknown
  | '-' :: 'h' :: _ => .help
  | '-' :: short :: rest =>
    match options.find? fun known => known.short = some short with
    | none => .unknown
    | some known =>
      match rest with
      | [] => .option known none
      | '=' :: value => .option known (some (String.ofList value))
      | value => .option known (some (String.ofList value))
  | _ => .word

/-- An argument that may stand for the value of the option before it. -/
def isSeparateValue (argument : String) : Bool :=
  argument.toList.head? ≠ some '-' || argument = "-"

/-- Why arguments are not taken. -/
inductive Refusal where
  | misuse
  | help

structure Collected where
  options : List (String × String)
  words : List String

def Collected.addOption (name value : String) (collected : Collected) : Collected :=
  { collected with options := (name, value) :: collected.options }

def Collected.addWord (word : String) (collected : Collected) : Collected :=
  { collected with words := word :: collected.words }

/-- Takes arguments apart, after the options of `seen` and with at most so many words. If no number of words is given,
options are only taken up to the first word, and what follows counts as words. -/
def collect (options : List OptionName) (words : Option Nat) (seen : List String) : List String → Except Refusal Collected
  | [] => .ok ⟨[], []⟩
  | argument :: rest =>
    match Argument.ofText options argument with
    | .word =>
      match words with
      | none => .ok ⟨[], argument :: rest⟩
      | some 0 => .error .misuse
      | some (more + 1) => (collect options (some more) seen rest).map (.addWord argument)
    | .escape => if words.any (rest.length ≤ ·) then .ok ⟨[], rest⟩ else .error .misuse
    | .help => .error .help
    | .option known (some value) =>
      if known.accepts value ∧ known.long ∉ seen then
        (collect options words (known.long :: seen) rest).map (.addOption known.long value)
      else .error .misuse
    | .option known none =>
      match rest with
      | [] => .error .misuse
      | value :: rest =>
        if isSeparateValue value ∧ known.accepts value ∧ known.long ∉ seen then
          (collect options words (known.long :: seen) rest).map (.addOption known.long value)
        else .error .misuse
    | .unknown => .error .misuse

/-! ## Reading -/

def OutputFormat.ofName? : String → Option OutputFormat
  | "json" => some .json
  | "toml" => some .toml
  | _ => none

def kindOfName? (name : String) : Option ScalarKind :=
  [ScalarKind.text, .int, .long, .bool, .array].find? fun kind => kind.name = name

/-- The command with a name, given the arguments after it. -/
def Command.ofArguments (name : String) (arguments : List String) : Except Refusal Command :=
  match name with
  | "dump" => do
    let collected ← collect [⟨"format", some 'f', fun name => (OutputFormat.ofName? name).isSome⟩] (some 0) [] arguments
    return .dump (((Entries.get? collected.options "format").bind OutputFormat.ofName?).getD .json)
  | "get" => do
    let collected ← collect [⟨"as", none, fun name => (kindOfName? name).isSome⟩] (some 2) [] arguments
    match collected.words with
    | [within, key] => return .get within key (((Entries.get? collected.options "as").bind kindOfName?).getD .text)
    | _ => .error .misuse
  | "env" => (collect [] (some 0) [] arguments).map fun _ => .environment
  | "help" => .error (if arguments ∈ [[], ["dump"], ["get"], ["env"], ["help"]] then .help else .misuse)
  | _ => .error .misuse

/-- The options that come before the command. Directory and separator may not be empty. -/
def generalOptions : List OptionName :=
  [⟨"dir", some 'd', (· ≠ "")⟩, ⟨"env-prefix", none, fun _ => true⟩,
    ⟨"env-separator", none, fun separator => (Overrides.ofNames? "" separator).isSome⟩]

def Invocation.ofArguments (arguments : List String) : Except Refusal Invocation := do
  let collected ← collect generalOptions none [] arguments
  match collected.words with
  | [] => .error .misuse
  | name :: rest =>
    let command ← Command.ofArguments name rest
    let separator := (Entries.get? collected.options "env-separator").getD "__"
    return {
      directory := (Entries.get? collected.options "dir").getD "config"
      overrides := (Entries.get? collected.options "env-prefix").bind (Overrides.ofNames? · separator)
      command }

/-- What is printed as help. -/
def usage : String :=
  "Usage: [--dir DIR] [--env-prefix PREFIX] [--env-separator SEPARATOR] COMMAND\n\n"
    ++ "Commands:\n  dump [--format json|toml]\n  get SECTION KEY [--as text|int|long|bool|array]\n  env\n  help\n"

def Parsed.ofArguments (arguments : List String) : Parsed :=
  match Invocation.ofArguments arguments with
  | .ok invocation => .invoked invocation
  | .error .help => .answered 0 usage
  | .error .misuse => .answered 2 ""

end LayeredConfig.CommandLine
