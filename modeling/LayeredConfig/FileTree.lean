import LayeredConfig.Document.Source
import LayeredConfig.Text.Split

/-!
# File trees

The files that a process can reach from its working directory and from the root. A path is walked name by
name: `.` stays, `..` goes up, and every name but the last has to be a directory. Writing a file makes the
directories on the way to it.
-/

namespace LayeredConfig

/-! ## Places -/

/-- The directory from which the names of a place count. -/
inductive Origin where
  | root
  /-- The directory some levels above the working directory. -/
  | above (levels : Nat)
  deriving DecidableEq, Repr

/-- A file or directory, by the names that lead down to it. -/
structure Place where
  origin : Origin
  names : List String
  deriving DecidableEq, Repr

namespace Place

/-- The directory that a place is in. The root is in itself. -/
def parent (place : Place) : Place :=
  match place.origin, place.names with
  | .root, [] => place
  | .above levels, [] => ⟨.above (levels + 1), []⟩
  | origin, names => ⟨origin, names.dropLast⟩

def step (place : Place) (name : String) : Place :=
  if name = "" ∨ name = "." then place
  else if name = ".." then place.parent
  else { place with names := place.names ++ [name] }

def start (path : String) : Place :=
  ⟨if path.toList.head? = some '/' then .root else .above 0, []⟩

end Place

def pathNames (path : String) : List String :=
  (Text.splitAtChar '/' path.toList).map String.ofList

/-! ## Trees -/

inductive FileContent where
  | bytes (content : ByteArray)
  | directory

structure FileTree where
  files : List (Place × FileContent)

namespace FileTree

/-- What is at a place. The directories that names count from are always there. -/
def find? (tree : FileTree) (place : Place) : Option FileContent :=
  if place.names = [] then some .directory
  else (tree.files.find? fun file => file.1 = place).map Prod.snd

def put (tree : FileTree) (place : Place) (content : FileContent) : FileTree :=
  ⟨(place, content) :: tree.files.filter fun file => file.1 ≠ place⟩

def makeDirectory (tree : FileTree) (place : Place) : FileTree :=
  if (tree.find? place).isSome then tree else tree.put place .directory

/-- Puts something where some names lead to, and makes every directory that they go through. -/
def insertFrom (tree : FileTree) (place : Place) (content : FileContent) : List String → FileTree
  | [] => tree.put place content
  | name :: rest => (tree.makeDirectory place).insertFrom (place.step name) content rest

def insert (tree : FileTree) (path : String) (content : FileContent) : FileTree :=
  tree.insertFrom (.start path) content (pathNames path)

/-- No files but the null device, which is there on every machine. -/
def fresh : FileTree := (⟨[]⟩ : FileTree).insert "/dev/null" (.bytes .empty)

/-! ## Reading -/

/-- The longest name that a file or directory can have, in bytes. -/
def longestName : Nat := 255

/-- The length from which on a path is too long, in bytes. -/
def pathLimit : Nat := 4096

def walk (tree : FileTree) (place : Place) : List String → Except ReadFailure ByteArray
  | [] => .error .isDirectory
  | name :: rest =>
    if name = "" ∨ name = "." ∨ name = ".." then tree.walk (place.step name) rest
    else if longestName < name.utf8ByteSize then .error .nameTooLong
    else
      match tree.find? (place.step name) with
      | none => .error .notFound
      | some .directory => tree.walk (place.step name) rest
      | some (.bytes content) => if rest = [] then .ok content else .error .notDirectory

def read (tree : FileTree) (path : String) : Except ReadFailure ByteArray :=
  if '\x00' ∈ path.toList then .error .nulInPath
  else if pathLimit ≤ path.utf8ByteSize then .error .nameTooLong
  else tree.walk (.start path) (pathNames path)

def disk (tree : FileTree) : Disk := ⟨tree.read⟩

end FileTree

end LayeredConfig
