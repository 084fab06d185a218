import LayeredConfig.Proofs.Document.Listing
import Mathlib.Data.List.Forall2

/-!
# Indentation

How far a line is indented matters in comparison with other lines only. Two texts with the same lines, whose marked
lines are indented in the same order, are read side by side: line by line, both write the same and leave the same
sections open, whatever the columns are that these go from.
-/

namespace LayeredConfig

open Text

/-- The lines are the same apart from the blanks at their ends, and of two marked lines the same one is further left. -/
structure Listing.Reindented (left right : Listing) : Prop where
  trims : left.map trim = right.map trim
  order : ∀ i < left.length, ∀ j < left.length, left.isMarked i = true → left.isMarked j = true →
    (left.column i < left.column j ↔ right.column i < right.column j)

/-- Columns that stand for each other in two texts are in one order. -/
def InOrder (same : Nat → Nat → Prop) : Prop :=
  ∀ {mine yours mine' yours'}, same mine yours → same mine' yours' → (mine < mine' ↔ yours < yours')

section

variable {same : Nat → Nat → Prop}

/-! ## Lines -/

/-- The lines hold the same, and those that are marked are so at columns that stand for each other. -/
inductive Line.Reindented (same : Nat → Nat → Prop) : Line → Line → Prop where
  | blank : Reindented same .blank .blank
  | stray : Reindented same .stray .stray
  | header (key : String) : Reindented same (.header key) (.header key)
  | marked {mine yours} (item : Item) : same mine yours → Reindented same (.marked mine item) (.marked yours item)

theorem Line.ofText_of_not_marked {line : List Char} (h : (trim line).head? ≠ some '-') :
    Line.ofText line = if trim line = [] then .blank else
      ((headerText? (trim line)).map fun head => Line.header (String.ofList (trim head))).getD .stray := by
  rw [head?_trim] at h
  cases hstart : trimStart line with
  | nil => simp [Line.ofText, hstart, trim_eq_nil_of_trimStart hstart]
  | cons first others =>
      have hfirst : first ≠ '-' := by simpa [hstart] using h
      have hne : trim line ≠ [] := by
        rw [ne_eq, ← List.head?_eq_none_iff, head?_trim, hstart]
        exact Option.some_ne_none first
      rw [Line.ofText_of_unmarked hstart hfirst, if_neg hne]

theorem Line.reindented_ofText {mine yours : List Char} (htrim : trim mine = trim yours)
    (hsame : (trim mine).head? = some '-' → same (mine.takeWhile isBlank).length (yours.takeWhile isBlank).length) :
    Line.Reindented same (Line.ofText mine) (Line.ofText yours) := by
  by_cases hmarked : (trim mine).head? = some '-'
  · have hyours : (trimStart yours).head? = some '-' := by rw [← head?_trim, ← htrim, hmarked]
    rw [Line.ofText_of_marked (head?_trim mine ▸ hmarked), Line.ofText_of_marked hyours, htrim]
    exact .marked _ (hsame hmarked)
  · rw [Line.ofText_of_not_marked hmarked, Line.ofText_of_not_marked (htrim ▸ hmarked), htrim]
    split
    · exact .blank
    · cases headerText? (trim yours) with
      | none => exact .stray
      | some head => exact .header _

/-! ## Open sections -/

/-- The sections have one key, and take lines from columns on that stand for each other. -/
inductive OpenSection.Reindented (same : Nat → Nat → Prop) : OpenSection → OpenSection → Prop where
  | topLevel (key : String) : Reindented same ⟨key, 0⟩ ⟨key, 0⟩
  | nested {mine yours} (key : String) : same mine yours → Reindented same ⟨key, mine + 1⟩ ⟨key, yours + 1⟩

/-- One document has been read in both texts, and sections stand open that correspond one by one. -/
structure Draft.Reindented (same : Nat → Nat → Prop) (left right : Draft) : Prop where
  document : left.document = right.document
  opened : List.Forall₂ (OpenSection.Reindented same) left.opened right.opened

theorem OpenSection.Reindented.key_eq {mine yours : OpenSection} (h : mine.Reindented same yours) :
    mine.key = yours.key := by
  cases h <;> rfl

theorem forall₂_takeWhile {α β : Type} {r : α → β → Prop} {p : α → Bool} {q : β → Bool} {xs : List α} {ys : List β}
    (hpq : ∀ {x y}, r x y → p x = q y) (h : List.Forall₂ r xs ys) :
    List.Forall₂ r (xs.takeWhile p) (ys.takeWhile q) := by
  induction h with
  | nil => exact .nil
  | @cons x y xs ys hhead _ ih =>
      rw [List.takeWhile_cons, List.takeWhile_cons, hpq hhead]
      split
      · exact .cons hhead ih
      · exact .nil

/-! ## Reading side by side -/

namespace Draft.Reindented

variable {left right : Draft}

theorem path_eq (h : left.Reindented same right) : left.path = right.path := by
  have hkeys : List.Forall₂ (fun mine yours => mine.key = yours.key) left.opened right.opened :=
    h.opened.imp fun _ _ => OpenSection.Reindented.key_eq
  exact List.forall₂_eq_eq_eq ▸ List.forall₂_map_left_iff.mpr (List.forall₂_map_right_iff.mpr hkeys)

theorem insertAt_eq (h : left.Reindented same right) (key : String) (node : Node) :
    left.document.insertAt left.path key node = right.document.insertAt right.path key node := by
  rw [h.document, h.path_eq]

/-- A marked line closes the same sections in both texts. -/
theorem closeTo (hsame : InOrder same) (h : left.Reindented same right) {mine yours : Nat}
    (hcolumn : same mine yours) : (left.closeTo mine).Reindented same (right.closeTo yours) where
  document := h.document
  opened := by
    refine forall₂_takeWhile (fun hopen => ?_) h.opened
    cases hopen with
    | topLevel key => simp
    | nested key hinner => exact decide_eq_decide.mpr (hsame hinner hcolumn)

theorem add (h : left.Reindented same right) {mine yours : Nat} (hcolumn : same mine yours) (item : Item) :
    (left.add mine item).Reindented same (right.add yours item) := by
  cases item with
  | malformed => exact h
  | leaf key value => exact ⟨h.insertAt_eq key (.text value), h.opened⟩
  | header key =>
      refine ⟨h.insertAt_eq key (.branch []), ?_⟩
      exact List.rel_append h.opened (.cons (.nested key hcolumn) .nil)

theorem step (hsame : InOrder same) (h : left.Reindented same right) {mine yours : Line}
    (hline : mine.Reindented same yours) : (left.step mine).Reindented same (right.step yours) := by
  cases hline with
  | blank => exact ⟨h.document, .nil⟩
  | stray => exact ⟨h.document, .nil⟩
  | header key => exact ⟨congrArg (Document.insertAt · [] key _) h.document, .cons (.topLevel key) .nil⟩
  | marked item hcolumn =>
      have hnil : left.opened = [] ↔ right.opened = [] := by
        rw [← List.length_eq_zero_iff, h.opened.length_eq, List.length_eq_zero_iff]
      simp only [Draft.step, hnil]
      split
      · exact h
      · exact (h.closeTo hsame hcolumn).add hcolumn item

theorem foldl (hsame : InOrder same) (h : left.Reindented same right) {mine yours : List Line}
    (hlines : List.Forall₂ (Line.Reindented same) mine yours) :
    (mine.foldl Draft.step left).Reindented same (yours.foldl Draft.step right) := by
  induction hlines generalizing left right with
  | nil => exact h
  | cons hline _ ih => exact ih (h.step hsame hline)

end Draft.Reindented

end

/-! ## Texts -/

namespace Listing

variable {left right : Listing}

/-- The columns at which a marked line stands in the two texts. -/
def Beside (left right : Listing) (mine yours : Nat) : Prop :=
  ∃ i < left.length, left.isMarked i = true ∧ left.column i = mine ∧ right.column i = yours

theorem Reindented.inOrder (h : left.Reindented right) : InOrder (left.Beside right) := by
  rintro _ _ _ _ ⟨i, hi, hmarked, rfl, rfl⟩ ⟨j, hj, hmarked', rfl, rfl⟩
  exact h.order i hi j hj hmarked hmarked'

theorem Reindented.lines (h : left.Reindented right) :
    List.Forall₂ (Line.Reindented (left.Beside right)) (left.map Line.ofText) (right.map Line.ofText) := by
  have hlength : left.length = right.length := by simpa using congrArg List.length h.trims
  refine List.forall₂_iff_get.mpr ⟨by simpa using hlength, fun i hi hi' => ?_⟩
  simp only [List.length_map] at hi hi'
  have hmine : left.line i = left[i] := by simp [line, hi]
  have hyours : right.line i = right[i] := by simp [line, hi']
  have htrim : trim left[i] = trim right[i] := by
    simpa [hi, hi'] using congrArg (·[i]?) h.trims
  simp only [List.get_eq_getElem, List.getElem_map]
  refine Line.reindented_ofText htrim fun hmarked => ⟨i, hi, ?_, ?_, ?_⟩
  · rwa [isMarked, hmine, decide_eq_true_iff, ← head?_trim]
  · rw [column, hmine]
  · rw [column, hyours]

end Listing

/-- Texts that differ in the blanks at the ends of their lines only are read as one document, if of any two marked lines
the same one is further left in both. -/
theorem Document.ofText_of_reindented {left right : String}
    (h : Listing.Reindented (lines left.toList) (lines right.toList)) : ofText left = ofText right := by
  have hempty : Draft.Reindented (Listing.Beside (lines left.toList) (lines right.toList)) .empty .empty :=
    ⟨rfl, .nil⟩
  exact (hempty.foldl h.inOrder h.lines).document

/-- Two siblings that are not aligned, and then a line further left than both, in a text with spaces and in one with
tabs and carriage returns. -/
theorem Document.ofText_tabbed :
    ofText "s:\n- a:\n    - b: 1\n  - c:\n   - d: 2\n- e: 3\n" =
      ofText "s:\r\n\t- a:\t\r\n\t\t\t\t\t- b: 1\r\n\t\t- c:\r\n\t\t\t- d: 2 \r\n\t- e: 3" := by
  apply ofText_of_reindented
  have hleft : lines "s:\n- a:\n    - b: 1\n  - c:\n   - d: 2\n- e: 3\n".toList =
      ["s:".toList, "- a:".toList, "    - b: 1".toList, "  - c:".toList, "   - d: 2".toList, "- e: 3".toList] := by
    cbv
  have hright : lines
        "s:\r\n\t- a:\t\r\n\t\t\t\t\t- b: 1\r\n\t\t- c:\r\n\t\t\t- d: 2 \r\n\t- e: 3".toList =
      ["s:".toList, "\t- a:\t".toList, "\t\t\t\t\t- b: 1".toList, "\t\t- c:".toList, "\t\t\t- d: 2 ".toList,
        "\t- e: 3".toList] := by
    cbv
  rw [hleft, hright]
  constructor
  · cbv
  · decide

end LayeredConfig
