import LayeredConfig.Layers
import LayeredConfig.Proofs.Text.Cut

/-!
# Names of environment documents

Which name the template gives the document of an environment, said by the parts of the template that stay as they are.
-/

namespace LayeredConfig.Layers

variable {layers : Layers} {environment name : String}

/-- The name is the template with the environment in every place of the mark `$\x7benv\x7d`. -/
def Names (layers : Layers) (environment name : String) : Prop :=
  Text.Replaces "$\x7benv\x7d".toList environment.toList layers.environmentTemplate.toList name.toList

theorem names_iff : layers.Names environment name ↔ name = layers.environmentDocument environment := by
  have hfirst : '$' ∉ "\x7benv\x7d".toList := by decide
  calc layers.Names environment name
    _ ↔ name.toList = Text.replaceAll environmentMark environment.toList layers.environmentTemplate.toList :=
        Text.replaces_iff hfirst
    _ ↔ name = layers.environmentDocument environment := by
        rw [environmentDocument, ← String.toList_inj, String.toList_ofList]

theorem names_environmentDocument (layers : Layers) (environment : String) :
    layers.Names environment (layers.environmentDocument environment) :=
  names_iff.mpr rfl

/-- The mark in an environment is kept. -/
example : environmentDocument { environmentTemplate := "$\x7benv\x7d/$\x7benv\x7d.d" } "$\x7benv\x7d" =
    "$\x7benv\x7d/$\x7benv\x7d.d" := by
  cbv

example : environmentDocument { environmentTemplate := "tier-$\x7benv\x7d/$\x7benv\x7d" } "prod" = "tier-prod/prod" := by
  cbv

end LayeredConfig.Layers
