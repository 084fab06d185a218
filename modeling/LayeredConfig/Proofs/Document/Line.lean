import LayeredConfig.Document.Draft
import LayeredConfig.Proofs.Text.Cut
import LayeredConfig.Proofs.Text.Trim

/-!
# Reading one line

How the reading of a line follows from its first character that is no blank and from its last one.
-/

namespace LayeredConfig

open Text

theorem trim_eq_nil_of_trimStart {cs : List Char} (h : trimStart cs = []) : trim cs = [] := by
  rw [trim, h, trimEnd_nil]

theorem headerText?_eq_some_iff {trimmed head : List Char} :
    headerText? trimmed = some head ↔ trimmed = head ++ [':'] := by
  unfold headerText?
  split
  · rename_i hlast
    obtain ⟨before, rfl⟩ := List.getLast?_eq_some_iff.mp hlast
    simp
  · rename_i hlast
    constructor
    · intro h
      cases h
    · rintro rfl
      simp at hlast

theorem leaf?_eq_some_iff {trimmed : List Char} {key value : String} :
    leaf? trimmed = some (key, value) ↔ ∃ before named content : List Char,
      trimmed.filter (· ≠ '\t') = before ++ '-' :: (named ++ ':' :: content) ∧ '-' ∉ before ∧
        ':' ∉ named ∧ String.ofList (trim named) = key ∧ String.ofList (trim content) = value := by
  unfold leaf?
  constructor
  · intro h
    obtain ⟨⟨before, rest⟩, hmark, h⟩ := Option.bind_eq_some_iff.mp h
    obtain ⟨⟨named, content⟩, hcolon, h⟩ := Option.bind_eq_some_iff.mp h
    obtain ⟨hkey, hvalue⟩ := Prod.mk.inj (Option.some.inj h)
    obtain ⟨heq, hbefore⟩ := cutAtChar_eq_some_iff.mp hmark
    obtain ⟨rfl, hnamed⟩ := cutAtChar_eq_some_iff.mp hcolon
    exact ⟨before, named, content, heq, hbefore, hnamed, hkey, hvalue⟩
  · rintro ⟨before, named, content, heq, hbefore, hnamed, rfl, rfl⟩
    rw [heq, cutAtChar_append hbefore]
    simp only [Option.bind_eq_bind, Option.bind_some, cutAtChar_append hnamed]
    rfl

/-! ## Marked lines -/

theorem Line.ofText_of_marked {line : List Char} (h : (trimStart line).head? = some '-') :
    Line.ofText line = .marked (line.takeWhile isBlank).length (.ofText (trim line)) := by
  obtain ⟨rest, hrest⟩ := List.head?_eq_some_iff.mp h
  simp only [Line.ofText, hrest]

theorem Line.head?_of_marked {line : List Char} {column : Nat} {item : Item}
    (h : Line.ofText line = .marked column item) : (trimStart line).head? = some '-' := by
  unfold Line.ofText at h
  split at h
  · cases h
  · rename_i hmark
    rw [hmark]
    rfl
  · split at h <;> cases h

/-! ## Other lines -/

theorem Line.ofText_of_header {line : List Char} (h : (trimStart line).head? ≠ some '-')
    (hlast : (trim line).getLast? = some ':') :
    Line.ofText line = .header (String.ofList (trim (trim line).dropLast)) := by
  unfold Line.ofText
  split
  · rename_i hnil
    rw [trim_eq_nil_of_trimStart hnil] at hlast
    cases hlast
  · rename_i hmark
    rw [hmark] at h
    exact absurd rfl h
  · simp only [headerText?, hlast, if_true]

theorem Line.ofText_of_plain {line : List Char} (h : (trimStart line).head? ≠ some '-')
    (hlast : (trim line).getLast? ≠ some ':') :
    Line.ofText line = .blank ∨ Line.ofText line = .stray := by
  unfold Line.ofText
  split
  · exact .inl rfl
  · rename_i hmark
    rw [hmark] at h
    exact absurd rfl h
  · right
    simp only [headerText?, hlast, if_false]

/-! ## Blanks at the end -/

theorem takeWhile_concat_of_trimStart {line : List Char} (h : trimStart line ≠ []) (c : Char) :
    (line ++ [c]).takeWhile isBlank = line.takeWhile isBlank := by
  have hshort : (line.takeWhile isBlank).length ≠ line.length := by
    intro hlength
    have hall : line.takeWhile isBlank = line := (List.takeWhile_prefix isBlank).eq_of_length hlength
    exact h (List.dropWhile_eq_nil_iff.mpr (List.takeWhile_eq_self_iff.mp hall))
  rw [List.takeWhile_append, if_neg hshort]

theorem Line.ofText_of_unmarked {line others : List Char} {first : Char} (h : trimStart line = first :: others)
    (hfirst : first ≠ '-') : Line.ofText line =
      ((headerText? (trim line)).map fun head => Line.header (String.ofList (trim head))).getD .stray := by
  simp only [Line.ofText, h]
  split
  · contradiction
  · rename_i hmark
    exact absurd (List.cons.inj hmark).1 hfirst
  · cases headerText? (trim line) <;> rfl

theorem Line.ofText_concat_of_blank {c : Char} (h : isBlank c = true) (line : List Char) :
    Line.ofText (line ++ [c]) = Line.ofText line := by
  cases hstart : trimStart line with
  | nil => simp [Line.ofText, trimStart_concat_of_blank h, hstart]
  | cons first others =>
      have hstart' : trimStart (line ++ [c]) = first :: (others ++ [c]) := by
        simp [trimStart_concat_of_blank h, hstart]
      have hcolumn : (line ++ [c]).takeWhile isBlank = line.takeWhile isBlank :=
        takeWhile_concat_of_trimStart (by simp [hstart]) c
      by_cases hdash : first = '-'
      · subst hdash
        simp only [Line.ofText, hstart, hstart', hcolumn, trim_concat_of_blank h]
      · rw [Line.ofText_of_unmarked hstart' hdash, Line.ofText_of_unmarked hstart hdash, trim_concat_of_blank h]

theorem Draft.step_of_plain {line : List Char} (h : (trimStart line).head? ≠ some '-')
    (hlast : (trim line).getLast? ≠ some ':') (draft : Draft) :
    draft.step (Line.ofText line) = { draft with opened := [] } := by
  rcases Line.ofText_of_plain h hlast with heq | heq <;> rw [heq] <;> rfl

end LayeredConfig
