import LayeredConfig.Proofs.Document.Legible
import LayeredConfig.Proofs.Entries.Merging

/-!
# Texts one after another

A line that is not marked closes all sections. So a text that begins with such a line is read after another one as it is
read alone, and what it holds goes over what the other one holds.
-/

namespace LayeredConfig

open Text

/-! ## Drafts over a document -/

namespace Draft

/-- The first draft has the document of the second over `base`, and the same sections are open in both. -/
structure Over (base : Document) (whole later : Draft) : Prop where
  document : whole.document = Entries.merge base later.document
  opened : whole.opened = later.opened
  nodup : later.document.keys.Nodup
  outermost : ∀ first ∈ later.opened.head?, first.key ∈ later.document.keys

variable {base : Document} {whole later : Draft}

theorem Over.path (h : Over base whole later) : whole.path = later.path := by
  rw [Draft.path, Draft.path, h.opened]

theorem Over.insertAt (h : Over base whole later) (key : String) (node : Node) :
    whole.document.insertAt whole.path key node = Entries.merge base (later.document.insertAt later.path key node) ∧
      (later.document.insertAt later.path key node).keys.Nodup ∧
      ∀ name ∈ later.document.keys, name ∈ (later.document.insertAt later.path key node).keys := by
  rw [h.path, h.document, Draft.path]
  cases hopened : later.opened with
  | nil =>
      refine ⟨(Entries.merge_insert h.nodup key node).symm, Entries.nodup_keys_insert h.nodup key node, ?_⟩
      exact fun name hname => Entries.mem_keys_insert hname key node
  | cons first rest =>
      have hfirst := h.outermost first (by simp [hopened])
      simp only [List.map_cons, Document.insertAt, Entries.keys_modify]
      exact ⟨(Entries.merge_modify h.nodup hfirst).symm, h.nodup, fun _ hname => hname⟩

theorem Over.closeTo (h : Over base whole later) (column : Nat) :
    Over base (whole.closeTo column) (later.closeTo column) where
  document := h.document
  opened := by rw [Draft.closeTo, Draft.closeTo, h.opened]
  nodup := h.nodup
  outermost first hfirst := by
    rw [Draft.closeTo, List.head?_takeWhile] at hfirst
    exact h.outermost first (Option.mem_filter_iff.mp hfirst).1

theorem Over.add (h : Over base whole later) (column : Nat) (item : Item) :
    Over base (whole.add column item) (later.add column item) := by
  cases item with
  | malformed => exact h
  | leaf key value =>
      obtain ⟨hdocument, hnodup, hkeys⟩ := h.insertAt key (.text value)
      exact ⟨hdocument, h.opened, hnodup, fun first hfirst => hkeys _ (h.outermost first hfirst)⟩
  | header key =>
      obtain ⟨hdocument, hnodup, hkeys⟩ := h.insertAt key (.branch [])
      refine ⟨hdocument, by simp [Draft.add, h.opened], hnodup, fun first hfirst => ?_⟩
      cases hopened : later.opened with
      | nil =>
          have hkey : ⟨key, column + 1⟩ = first := by simpa [Draft.add, hopened] using hfirst
          subst hkey
          simpa [Draft.add, Draft.path, hopened, Document.insertAt] using
            Entries.mem_keys_insert_self later.document key (.branch [])
      | cons outer rest =>
          have houter : first = outer := by simpa [Draft.add, hopened, eq_comm] using hfirst
          exact hkeys _ (h.outermost first (by simp [hopened, houter]))

/-- A line that is not marked is read alike whatever sections are open. -/
theorem Over.start (whole : Draft) {line : Line} (hline : ∀ column item, line ≠ .marked column item) :
    Over whole.document (whole.step line) (empty.step line) := by
  cases line with
  | marked column item => exact absurd rfl (hline column item)
  | blank => exact ⟨rfl, rfl, List.nodup_nil, by simp [empty, step]⟩
  | stray => exact ⟨rfl, rfl, List.nodup_nil, by simp [empty, step]⟩
  | header key =>
      constructor
      · rfl
      · rfl
      · simp [empty, step, Document.insertAt, Entries.insert]
      · simp [empty, step, Document.insertAt, Entries.insert]

theorem Over.step (h : Over base whole later) (line : Line) : Over base (whole.step line) (later.step line) := by
  cases line with
  | blank => exact ⟨h.document, rfl, h.nodup, by simp [Draft.step]⟩
  | stray => exact ⟨h.document, rfl, h.nodup, by simp [Draft.step]⟩
  | header key =>
      refine ⟨?_, rfl, Entries.nodup_keys_insert h.nodup key _, ?_⟩
      · exact (congrArg (Entries.insert · key _) h.document).trans (Entries.merge_insert h.nodup key _).symm
      · simpa [Draft.step, Document.insertAt] using Entries.mem_keys_insert_self later.document key (.branch [])
  | marked column item =>
      rw [Draft.step, Draft.step, h.opened]
      split
      · exact h
      · exact (h.closeTo column).add column item

theorem Over.foldl (h : Over base whole later) (lines : List Line) :
    Over base (lines.foldl Draft.step whole) (lines.foldl Draft.step later) := by
  induction lines generalizing whole later with
  | nil => exact h
  | cons line lines ih => exact ih (h.step line)

end Draft

/-! ## Lines -/

theorem Document.ofLines_append {front back : List Line}
    (h : ∀ column item, back.head? ≠ some (.marked column item)) :
    ofLines (front ++ back) = Entries.merge (ofLines front) (ofLines back) := by
  rw [ofLines, List.foldl_append]
  cases back with
  | nil => rfl
  | cons line back =>
      have hline (column : Nat) (item : Item) : line ≠ .marked column item := fun heq => h column item (by simp [heq])
      exact ((Draft.Over.start _ hline).foldl back).document

theorem Line.ofText_eq_of_ends {line shown : List Char} (h : line = shown ∨ line = shown ++ ['\r']) :
    Line.ofText line = Line.ofText shown := by
  rcases h with rfl | rfl
  · rfl
  · exact Line.ofText_concat_of_blank (by decide) shown

/-- A line feed between two texts divides their lines. It makes a blank line where there was a line feed already. -/
theorem map_lines_append (text rest : List Char) :
    ∃ gap, (gap = [] ∨ gap = [Line.blank]) ∧ (lines (text ++ '\n' :: rest)).map Line.ofText =
      (lines text).map Line.ofText ++ (gap ++ (lines rest).map Line.ofText) := by
  obtain ⟨ends, gap, hlines, hgap, hends⟩ := lines_append text rest
  have hsame : ends.map Line.ofText = (lines text).map Line.ofText := by
    generalize lines text = alone at hends
    clear hlines
    induction hends with
    | nil => rfl
    | cons hends _ ih => rw [List.map_cons, List.map_cons, ih, Line.ofText_eq_of_ends hends]
  refine ⟨gap.map Line.ofText, ?_, by simp [hlines, hsame]⟩
  exact hgap.imp (congrArg (List.map Line.ofText)) (congrArg (List.map Line.ofText))

/-! ## Texts -/

/-- A text whose first line is not marked goes over the text before it. -/
theorem Document.ofText_append {front back : String}
    (h : ∀ column item, ((lines back.toList).map Line.ofText).head? ≠ some (.marked column item)) :
    ofText (front ++ "\n" ++ back) = Entries.merge (ofText front) (ofText back) := by
  obtain ⟨gap, hgap, hlines⟩ := map_lines_append front.toList back.toList
  have htext : (front ++ "\n" ++ back).toList = front.toList ++ '\n' :: back.toList := by simp
  rw [ofText, htext, hlines]
  rcases hgap with rfl | rfl
  · exact ofLines_append h
  · exact ofLines_append (by simp)

/-- An empty line between two texts keeps them apart. -/
theorem Document.ofText_append_blank (front back : String) :
    ofText (front ++ "\n\n" ++ back) = Entries.merge (ofText front) (ofText back) := by
  have hlines : (lines ("\n" ++ back).toList).map Line.ofText = .blank :: (lines back.toList).map Line.ofText := by
    have htext : ("\n" ++ back).toList = '\n' :: back.toList := by simp
    rw [htext, lines_lineFeed]
    rfl
  have hblank : ofText ("\n" ++ back) = ofText back := by
    rw [ofText, hlines]
    rfl
  have hsplit : front ++ "\n\n" ++ back = front ++ "\n" ++ ("\n" ++ back) := by
    apply String.toList_injective
    simp
  rw [hsplit, ofText_append (by rw [hlines]; simp), hblank]

end LayeredConfig
