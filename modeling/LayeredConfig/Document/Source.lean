import LayeredConfig.Entries
import LayeredConfig.Failure

/-!
# Sources of documents

Documents are read by name. They are held in memory, or in files of a directory, one file for each name.
-/

namespace LayeredConfig

/-- The texts of documents, by name. -/
structure Source where
  read : (name : String) → Except Failure String

/-- The contents of files, by path. -/
structure Disk where
  read : (path : String) → Except ReadFailure ByteArray

/-- The path of the file for a document. A name that starts with a slash is not looked for in the
directory. -/
def documentPath (directory name : String) : String :=
  let file := name ++ ".conf"
  if file.toList.head? = some '/' ∨ directory = "" then file
  else if directory.toList.getLast? = some '/' then directory ++ file
  else directory ++ "/" ++ file

def Disk.readText (disk : Disk) (path : String) : Except ReadFailure String := do
  match String.fromUTF8? (← disk.read path) with
  | some text => return text
  | none => throw .notText

namespace Source

def ofDocuments (documents : List (String × String)) : Source where
  read name :=
    match Entries.get? documents name with
    | some text => .ok text
    | none => .error (.documentNotFound name)

/-- Documents held in a directory. -/
def ofDirectory (disk : Disk) (directory : String) : Source where
  read name :=
    let path := documentPath directory name
    match disk.readText path with
    | .ok text => .ok text
    | .error .notFound => .error (.documentNotFound path)
    | .error failure => .error (.unreadable path failure)

end Source

end LayeredConfig
