import LayeredConfig.Document.Draft
import LayeredConfig.Document.Source
import LayeredConfig.Overrides
import LayeredConfig.Snapshot

/-!
# Layers

A configuration is loaded in three layers: the application document, the model document, and the document for the
environment that the first two name. A top-level section of a later layer replaces the one of that name.
Variables override entries before the environment is read and again at the end, so that they win over every
layer.
-/

namespace LayeredConfig

/-- What documents are read from, and the variables that override them. -/
structure World where
  source : Source
  vars : List (String × String)

/-- Which documents a configuration is made of, and which variables override it. -/
structure Layers where
  applicationDocument : String := "app"
  modelDocument : String := "model"
  /-- The name of the environment document, with a place for the environment. -/
  environmentTemplate : String := "env.$\x7benv\x7d"
  overrides : Option Overrides := none

namespace Layers

/-- The mark in a template that the environment takes the place of. -/
def environmentMark : List Char := "$\x7benv\x7d".toList

def environmentDocument (layers : Layers) (environment : String) : String :=
  String.ofList
    (Text.replaceAll environmentMark environment.toList layers.environmentTemplate.toList)

def addLayer (source : Source) (store : Store) (root : SectionId) (name : String) :
    Except Failure Store := do
  let text ← source.read name
  return store.merge root (Document.ofText text)

def override (layers : Layers) (vars : List (String × String)) (store : Store)
    (root : SectionId) : Store :=
  match layers.overrides with
  | some overrides => (overrides.apply store root vars).2
  | none => store

/-- Loads the two layers that come before the environment is known. -/
def loadBase (layers : Layers) (world : World) (store : Store) :
    Except Failure (SectionId × Store) := do
  let (root, store) := store.alloc []
  let store ← addLayer world.source store root layers.applicationDocument
  let store ← addLayer world.source store root layers.modelDocument
  return (root, layers.override world.vars store root)

def readEnvironment (store : Store) (root : SectionId) : Except Failure (String × Store) :=
  match (Handle.ofRoot root).readText store (some Snapshot.applicationSection) "env" with
  | .ok (some environment, store) => .ok (environment, store)
  | .ok (none, _) | .error (.sectionNotFound _) => .error .missingEnvironment
  | .error error => .error error

/-- Loads a configuration. Nothing in it is shared with what the store holds already. -/
def load (layers : Layers) (world : World) (store : Store) : Except Failure (Snapshot × Store) := do
  let (root, store) ← layers.loadBase world store
  let (environment, store) ← readEnvironment store root
  let store ← addLayer world.source store root (layers.environmentDocument environment)
  return (⟨.ofRoot root, environment⟩, layers.override world.vars store root)

/-- The names of the documents that loading reads, as far as the documents themselves allow to say. -/
def documents (layers : Layers) (world : World) : List String :=
  let environment := do
    let (root, store) ← layers.loadBase world .empty
    let (environment, _) ← readEnvironment store root
    return layers.environmentDocument environment
  layers.applicationDocument :: layers.modelDocument :: environment.toOption.toList

end Layers

end LayeredConfig
