import LayeredConfig.Handle
import LayeredConfig.Json.Schema
import LayeredConfig.Projection
import LayeredConfig.Version

/-!
# Snapshots

A snapshot is a configuration as it was loaded once: its root section and the environment that it is for.
-/

namespace LayeredConfig

structure Snapshot where
  handle : Handle
  environment : String
  deriving DecidableEq, Repr

namespace Snapshot

/-- The section that names the environment and the version. -/
def applicationSection : String := "application"

variable (store : Store) (snapshot : Snapshot)

def isDev : Bool := snapshot.environment == "dev"

def isStaging : Bool := snapshot.environment == "staging"

def isProd : Bool := snapshot.environment == "prod"

def version : Except Failure (Option String × Store) :=
  snapshot.handle.readText store (some applicationSection) "version"

/-- The number that stands for the version. -/
def versionNumber : Except Failure (Option Int32 × Store) := do
  let (version, store) ← snapshot.version store
  return (version.map LayeredConfig.versionNumber, store)

/-- The configuration in the shape of a schema, with the types of its texts inferred. -/
def extract (schema : Schema) : Except Failure Json := do
  let projection ← snapshot.handle.projection store
  match schema.extract projection.toJson.infer with
  | some json => return json
  | none => throw .shapeMismatch

end Snapshot

end LayeredConfig
