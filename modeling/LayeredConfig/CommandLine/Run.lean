import LayeredConfig.CommandLine.Arguments
import LayeredConfig.Projection.TomlText

/-!
# Runs of the program

A run with the program's own tools, and what it reads.
-/

namespace LayeredConfig.CommandLine

def Tools.ofProgram : Tools where
  parse := Parsed.ofArguments
  write
    | .json, document => .ok (document.jsonText "")
    | .toml, document => .ok document.tomlText
  writeList items := .ok (jsonList items)

def run (disk : Disk) (vars : List (String × String)) (arguments : List String) : Outcome :=
  Tools.ofProgram.run disk vars arguments

/-- What is written to the error output where nothing is logged. -/
def Outcome.errorOutput (outcome : Outcome) : String := outcome.report.getD ""

/-- The paths that a run reads, as far as what is on the disk allows to say. -/
def pathsRead (disk : Disk) (vars : List (String × String)) (arguments : List String) :
    List String :=
  match Parsed.ofArguments arguments with
  | .answered _ _ => []
  | .invoked invocation =>
    let world : World := ⟨.ofDirectory disk invocation.directory, vars⟩
    (invocation.layers.documents world).map (documentPath invocation.directory)

end LayeredConfig.CommandLine
