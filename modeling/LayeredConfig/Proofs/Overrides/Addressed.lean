import LayeredConfig.Document.Draft
import LayeredConfig.Proofs.Store.Overriding
import LayeredConfig.Proofs.Store.Planting

/-!
# What a name addresses

Every path of two or more words can be overridden, whatever the prefix and the separator, as long as the separator does not
begin in a word. The name that is put together from the words sets the path of these words and nothing beside it, and the
sections that were on the way to it are still there.
-/

namespace LayeredConfig.Overrides

theorem apply_singleton (overrides : Overrides) {name : String} {path : List String}
    (hspells : overrides.Spells name path) (store : Store) (id : SectionId) (text : String) :
    overrides.apply store id [(name, text)] = (1, store.setPath id path text) := by
  simp [apply, applyOne, path?_eq_some_iff.mpr hspells]

/-- A variable that is named by words is applied, and to the path of the words in lower case. In a tree the text is then at
the path and the way to it is one of sections, of which those that were there are the same as before. What is not on the
way, nor at the end of it or below, is as it was. -/
theorem apply_nameOf (overrides : Overrides) {words : List String} (hlength : 2 ≤ words.length)
    (hwords : ∀ word ∈ words, overrides.Admits word) (text : String) (store : Store) (id : SectionId) :
    let path := words.map Text.lowered
    let root : Value := .nested .plain id
    let after := overrides.apply store id [(overrides.nameOf words, text)]
    overrides.path? (overrides.nameOf words) = some path ∧ after.1 = 1 ∧
      (store.Spread root →
        after.2.follow root path = some (.text text) ∧
        (∀ before, before <+: path → before ≠ path → ∃ inner, after.2.sectionAt root before = some inner) ∧
        (∀ before inner, before <+: path → before ≠ path → store.sectionAt root before = some inner →
          after.2.follow root before = store.follow root before) ∧
        ∀ other, Unrelated path other →
          after.2.follow root other = store.follow root other ∧
            after.2.shapeAt root other = store.shapeAt root other) := by
  intro path root after
  have hspells := spells_nameOf hlength hwords
  have hafter : after = (1, store.setPath id path text) := overrides.apply_singleton hspells store id text
  rw [hafter]
  refine ⟨path?_eq_some_iff.mpr hspells, rfl, fun h => ?_⟩
  have hset := Store.setPath_setsPath_root h rfl hspells.ne_nil text
  refine ⟨hset.self, fun before => ?_, fun before inner hway hne hinner => ?_, fun other hother => ⟨?_, ?_⟩⟩
  · exact Store.exists_sectionAt_of_prefix hset.self
  · exact Store.follow_setPath_of_sectionAt h rfl hinner hway hne text
  · exact Store.follow_setPath_of_unrelated h rfl hspells.ne_nil hother text
  · exact hset.elsewhere other hother

/-- A document in the store, with a section of two leaves. -/
def addressSection : SectionId × Store := Store.empty.addDocument (Document.ofText "server:\n- port: 80\n- host: h\n")

/-- The separator overlaps itself, one of the words stands in it, and the second word names a leaf. -/
theorem apply_overlappingName :
    let overrides : Overrides := ⟨"APP", "_X_", by decide⟩
    let root : Value := .nested .plain addressSection.1
    let after := overrides.apply addressSection.2 addressSection.1 [("APP_X_SERVER_X_PORT_X_X_X_HIGH", "90")]
    after.1 = 1 ∧ after.2.follow root ["server", "port", "x", "high"] = some (.text "90") ∧
      (∃ inner, after.2.sectionAt root ["server", "port"] = some inner) ∧
      after.2.follow root ["server"] = addressSection.2.follow root ["server"] ∧
      after.2.follow root ["server", "host"] = some (.text "h") := by
  intro overrides root after
  have hspread : addressSection.2.Spread root :=
    (Store.empty.addDocument_planted (Document.ofText "server:\n- port: 80\n- host: h\n")).spread
  have hname : overrides.nameOf ["SERVER", "PORT", "X", "HIGH"] = "APP_X_SERVER_X_PORT_X_X_X_HIGH" := by
    decide +kernel
  have hpath : ["SERVER", "PORT", "X", "HIGH"].map Text.lowered = ["server", "port", "x", "high"] := by
    decide +kernel
  have hwords : ∀ word ∈ ["SERVER", "PORT", "X", "HIGH"], overrides.Admits word := by
    simp [overrides, Admits]
  have haddressed := overrides.apply_nameOf (by decide) hwords "90" addressSection.2 addressSection.1
  rw [hname, hpath] at haddressed
  obtain ⟨-, hcount, htree⟩ := haddressed
  obtain ⟨hself, hway, hkept, helsewhere⟩ := htree hspread
  refine ⟨hcount, hself, hway _ (by decide) (by decide), ?_, ?_⟩
  · have hserver : addressSection.2.sectionAt root ["server"] = some 0 := by decide +kernel
    exact hkept _ 0 (by decide) (by decide) hserver
  · rw [(helsewhere ["server", "host"] ⟨by decide, by decide⟩).1]
    decide +kernel

end LayeredConfig.Overrides
