import LayeredConfig.Overrides
import LayeredConfig.Proofs.Text.Cut

/-!
# Names of variables

Which variables override something, and which path: the name is the prefix, the separator, and a rest that the
separator divides into at least two segments, none of them empty. Words that the separator does not begin in can be put
together to such a name, and it spells them in lower case.
-/

namespace LayeredConfig

namespace Text

theorem lowerChar_ne_nil (c : Char) : lowerChar c ≠ [] := by
  rw [lowerChar]
  split
  · exact List.cons_ne_nil _ _
  · split <;> exact List.cons_ne_nil _ _

theorem lowercase_eq_nil_iff {cs : List Char} : lowercase cs = [] ↔ cs = [] := by
  cases cs with
  | nil => simp [lowercase, lowercaseAfter]
  | cons c rest =>
      simp only [lowercase, lowercaseAfter, List.append_eq_nil_iff, reduceCtorEq, iff_false, not_and]
      intro h
      split at h
      · cases h
      · exact absurd h (lowerChar_ne_nil c)

/-- The word in lower case. -/
def lowered (word : String) : String := String.ofList (lowercase word.toList)

end Text

namespace Overrides

variable {overrides : Overrides} {name : String} {path : List String}

/-- The name is the prefix, the separator and the names of the path with separators between them, up to the case of
letters. -/
def Spells (overrides : Overrides) (name : String) (path : List String) : Prop :=
  ∃ rest, name.toList = (overrides.namePrefix ++ overrides.separator).toList ++ rest ∧
    2 ≤ (Text.splitAt overrides.separator.toList rest).length ∧
    [] ∉ Text.splitAt overrides.separator.toList rest ∧
    path = (Text.splitAt overrides.separator.toList rest).map fun segment => String.ofList (Text.lowercase segment)

theorem path?_eq_some_iff : overrides.path? name = some path ↔ overrides.Spells name path := by
  have hnil (segments : List (List Char)) : [] ∈ segments.map Text.lowercase ↔ [] ∈ segments := by
    simp [Text.lowercase_eq_nil_iff]
  simp only [path?, Option.bind_eq_bind, Option.bind_eq_some_iff, Text.dropMark_eq_some_iff, Spells]
  refine exists_congr fun rest => and_congr_right fun _ => ?_
  simp only [hnil, List.length_map, List.map_map, Option.ite_none_right_eq_some, Option.some.injEq,
    Function.comp_def, and_assoc, eq_comm (a := path)]

theorem Spells.two_le_length (h : overrides.Spells name path) : 2 ≤ path.length := by
  obtain ⟨rest, -, hlength, -, rfl⟩ := h
  rwa [List.length_map]

theorem Spells.ne_nil (h : overrides.Spells name path) : path ≠ [] :=
  List.ne_nil_of_length_pos (Nat.lt_of_lt_of_le Nat.zero_lt_two h.two_le_length)

/-! ## Names from words -/

/-- The name that spells the words one after another. -/
def nameOf (overrides : Overrides) (words : List String) : String :=
  overrides.namePrefix ++ overrides.separator ++ overrides.separator.intercalate words

/-- The word can stand between separators: it is not empty, and it does not have the character that the separator begins
with. -/
def Admits (overrides : Overrides) (word : String) : Prop :=
  word ≠ "" ∧ ∀ first ∈ overrides.separator.toList.head?, first ∉ word.toList

variable {words : List String}

theorem splitAt_separator (hne : words ≠ []) (hwords : ∀ word ∈ words, overrides.Admits word) :
    Text.splitAt overrides.separator.toList (overrides.separator.intercalate words).toList =
      words.map String.toList := by
  obtain ⟨first, mark, hmark⟩ := List.exists_cons_of_ne_nil (mt String.toList_eq_nil_iff.mp overrides.separator_ne)
  have hfree : ∀ word ∈ words.map String.toList, first ∉ word := by
    intro _ hword
    obtain ⟨word, hmem, rfl⟩ := List.mem_map.mp hword
    exact (hwords word hmem).2 first (by rw [hmark, List.head?_cons, Option.mem_some])
  rw [String.toList_intercalate, hmark]
  exact Text.splitAt_intercalate (mt List.map_eq_nil_iff.mp hne) hfree

theorem spells_nameOf (hlength : 2 ≤ words.length) (hwords : ∀ word ∈ words, overrides.Admits word) :
    overrides.Spells (overrides.nameOf words) (words.map Text.lowered) := by
  have hne : words ≠ [] := List.ne_nil_of_length_pos (Nat.lt_of_lt_of_le Nat.zero_lt_two hlength)
  have hsplit := splitAt_separator hne hwords
  refine ⟨(overrides.separator.intercalate words).toList, String.toList_append, ?_, ?_, ?_⟩
  · rwa [hsplit, List.length_map]
  · rw [hsplit]
    intro hempty
    obtain ⟨word, hmem, hword⟩ := List.mem_map.mp hempty
    exact (hwords word hmem).1 (String.toList_eq_nil_iff.mp hword)
  · rw [hsplit, List.map_map]
    rfl

end Overrides

end LayeredConfig
