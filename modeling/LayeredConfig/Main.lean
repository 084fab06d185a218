import LayeredConfig.CommandLine.Run

/-!
# The program

Reads the files that a run asks for and the variables of the process, and prints how the run ends.
-/

namespace LayeredConfig.Main

def readFailure : IO.Error → ReadFailure
  | .noFileOrDirectory .. => .notFound
  | .inappropriateType _ code _ => if code = 20 then .notDirectory else .isDirectory
  | .permissionDenied .. => .accessDenied
  | .invalidArgument .. => .nameTooLong
  | _ => .notFound

def readFile (path : String) : IO (Except ReadFailure ByteArray) := do
  if '\x00' ∈ path.toList then return .error .nulInPath
  try return .ok (← IO.FS.readBinFile path) catch error => return .error (readFailure error)

/-- The files that have been read; any other is taken to be missing. -/
def knownDisk (known : List (String × Except ReadFailure ByteArray)) : Disk where
  read path := (Entries.get? known path).getD (.error .notFound)

def readFiles (paths : List String) : IO Disk := do
  return knownDisk (← paths.mapM fun path => return (path, ← readFile path))

/-- One variable of the process, from its text with an equals sign. -/
def variableOfText? (bytes : ByteArray) : Option (String × String) := do
  let text ← String.fromUTF8? bytes
  let (name, value) ← Text.cutAtChar '=' text.toList
  return (String.ofList name, String.ofList value)

def readVariables : IO (List (String × String)) := do
  let bytes ← try IO.FS.readBinFile "/proc/self/environ" catch _ => return []
  let (texts, last) := bytes.toList.foldl
    (fun (texts, text) byte => if byte = 0 then (texts.push text, ByteArray.empty) else (texts, text.push byte))
    (#[], ByteArray.empty)
  return (texts.push last).toList.filterMap variableOfText?

end LayeredConfig.Main

open LayeredConfig LayeredConfig.Main in
def main (arguments : List String) : IO UInt32 := do
  let vars ← readVariables
  let layers ← readFiles (CommandLine.pathsRead (knownDisk []) vars arguments)
  let disk ← readFiles (CommandLine.pathsRead layers vars arguments)
  let outcome := CommandLine.run disk vars arguments
  IO.print outcome.output
  IO.eprint outcome.errorOutput
  return outcome.code.toUInt32
