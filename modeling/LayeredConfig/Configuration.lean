import LayeredConfig.Layers

/-!
# The current configuration

A configuration in use is the snapshot that was loaded last. Reloading replaces it only once the new one is
complete; handles on the old one go on to see the old one.
-/

namespace LayeredConfig

structure Configuration where
  layers : Layers
  current : Snapshot

namespace Configuration

/-- Loads a configuration for the first time. -/
def build (layers : Layers) (world : World) (store : Store) :
    Except Failure (Configuration × Store) := do
  let (current, store) ← layers.load world store
  return (⟨layers, current⟩, store)

/-- Loads the configuration again. If that fails, nothing changes. -/
def reload (configuration : Configuration) (world : World) (store : Store) :
    Except Failure (Configuration × Store) := do
  let (current, store) ← configuration.layers.load world store
  return ({ configuration with current }, store)

end Configuration

end LayeredConfig
