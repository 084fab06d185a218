import LayeredConfig.Proofs.Document.Legible
import LayeredConfig.Proofs.Document.Update

/-!
# Writing a document

Every legible document is written as a text that is read as the same document, its keys in the same order: an
entry stands one column further right than the section that it belongs to.
-/

namespace LayeredConfig

open Text

/-! ## Lines -/

/-- The line as a text. -/
def Line.write : Line → List Char
  | .blank => []
  | .marked column (.header key) => List.replicate column ' ' ++ '-' :: ' ' :: (key.toList ++ [':'])
  | .marked column (.leaf key value) =>
    List.replicate column ' ' ++ '-' :: ' ' :: (key.toList ++ ':' :: ' ' :: value.toList)
  | .marked column .malformed => List.replicate column ' ' ++ ['-']
  | .header key => key.toList ++ [':']
  | .stray => ['.']

theorem column_write (column : Nat) (rest : List Char) :
    ((List.replicate column ' ' ++ '-' :: rest).takeWhile isBlank).length = column := by
  rw [List.takeWhile_append_of_pos]
  · simp [show isBlank '-' = false by decide]
  · intro c hc
    rw [List.eq_of_mem_replicate hc]
    decide

theorem trimStart_write (column : Nat) (rest : List Char) :
    trimStart (List.replicate column ' ' ++ '-' :: rest) = '-' :: rest := by
  rw [trimStart_append_of_blank]
  · rw [trimStart_cons, if_neg (by decide)]
  · intro c hc
    rw [List.eq_of_mem_replicate hc]
    decide

theorem trim_write (column : Nat) {rest : List Char} {last : Char}
    (hlast : ('-' :: rest).getLast? = some last) (hblank : isBlank last = false) :
    trim (List.replicate column ' ' ++ '-' :: rest) = '-' :: rest := by
  rw [trim, trimStart_write]
  refine trimEnd_eq_self fun c hc => ?_
  rw [hlast] at hc
  exact Option.some.inj hc ▸ hblank

theorem Line.ofText_marked (column : Nat) {rest : List Char} {last : Char}
    (hlast : ('-' :: rest).getLast? = some last) (hblank : isBlank last = false) :
    Line.ofText (List.replicate column ' ' ++ '-' :: rest) = .marked column (.ofText ('-' :: rest)) := by
  rw [Line.ofText_of_marked, column_write, trim_write column hlast hblank]
  rw [trimStart_write, List.head?_cons]

theorem sectionKey_write {key : String} (h : LegibleSection key) :
    sectionKey ('-' :: ' ' :: key.toList) = key := by
  have hmark : cutAtChar '-' ('-' :: ' ' :: key.toList) = some ([], ' ' :: key.toList) := rfl
  have hcolon : cutAtChar ':' (' ' :: key.toList) = none :=
    cutAtChar_eq_none_iff.mpr (by simpa using h.colon)
  simp only [sectionKey, hmark, hcolon, Option.map_some, Option.map_none, Option.getD_some, Option.getD_none]
  rw [trim_cons_of_blank (by decide), h.inline.1, String.ofList_toList]

theorem leaf?_write {key value : String} (hkey : LegibleKey key) (hvalue : LegibleValue value) :
    leaf? ('-' :: ' ' :: (key.toList ++ ':' :: ' ' :: value.toList)) = some (key, value) := by
  refine leaf?_eq_some_iff.mpr ⟨[], ' ' :: key.toList, ' ' :: value.toList, ?_, by simp, ?_, ?_, ?_⟩
  · refine List.filter_eq_self.mpr fun c hc => ?_
    have hne : '\t' ∉ '-' :: ' ' :: (key.toList ++ ':' :: ' ' :: value.toList) := by
      simp [hkey.tab, hvalue.tab]
    simpa using fun heq : c = '\t' => hne (heq ▸ hc)
  · simpa using hkey.colon
  · rw [trim_cons_of_blank (by decide), hkey.inline.1, String.ofList_toList]
  · rw [trim_cons_of_blank (by decide), hvalue.inline.1, String.ofList_toList]

theorem LegibleValue.getLast? {value : String} (h : LegibleValue value) :
    ∃ last, value.toList.getLast? = some last ∧ isBlank last = false := by
  cases hlast : value.toList.getLast? with
  | none => exact absurd (String.toList_eq_nil_iff.mp (List.getLast?_eq_none_iff.mp hlast)) h.nonempty
  | some last => exact ⟨last, rfl, (trim_eq_self_iff.mp h.inline.1).2 last hlast⟩

theorem LegibleHeader.head?_write {key : String} (h : LegibleHeader key) {c : Char}
    (hc : (key.toList ++ [':']).head? = some c) : isBlank c = false ∧ c ≠ '-' := by
  have hinline := trim_eq_self_iff.mp h.inline.1
  have hunmarked := h.unmarked
  cases hkey : key.toList with
  | nil =>
      rw [hkey] at hc
      obtain rfl : ':' = c := Option.some.inj hc
      decide
  | cons first rest =>
      rw [hkey] at hc hinline hunmarked
      obtain rfl : first = c := Option.some.inj hc
      exact ⟨hinline.1 first rfl, fun heq => hunmarked (congrArg some heq)⟩

theorem LegibleHeader.ofText_write {key : String} (h : LegibleHeader key) :
    Line.ofText (Line.header key).write = .header key := by
  have hkeep : trim (key.toList ++ [':']) = key.toList ++ [':'] := by
    refine trim_eq_self_iff.mpr ⟨fun c hc => (h.head?_write hc).1, fun c hc => ?_⟩
    rw [List.getLast?_concat] at hc
    exact Option.some.inj hc ▸ by decide
  have hunmarked : (trimStart (key.toList ++ [':'])).head? ≠ some '-' := by
    rw [← head?_trim, hkeep]
    exact fun hdash => (h.head?_write hdash).2 rfl
  have hlast : (trim (key.toList ++ [':'])).getLast? = some ':' := by
    rw [hkeep, List.getLast?_concat]
  rw [Line.write, Line.ofText_of_header hunmarked hlast, hkeep, List.dropLast_concat, h.inline.1,
    String.ofList_toList]

theorem LegibleSection.ofText_write {key : String} (h : LegibleSection key) (column : Nat) :
    Line.ofText (Line.marked column (.header key)).write = .marked column (.header key) := by
  have hlast : ('-' :: ' ' :: (key.toList ++ [':'])).getLast? = some ':' := by
    rw [← List.cons_append, ← List.cons_append, List.getLast?_concat]
  have hhead : headerText? ('-' :: ' ' :: (key.toList ++ [':'])) =
      some ('-' :: ' ' :: key.toList) := headerText?_eq_some_iff.mpr rfl
  rw [Line.write, Line.ofText_marked column hlast (by decide), Item.ofText, hhead]
  simp only [sectionKey_write h]

theorem LegibleKey.ofText_write {key value : String} (hkey : LegibleKey key)
    (hvalue : LegibleValue value) (column : Nat) :
    Line.ofText (Line.marked column (.leaf key value)).write = .marked column (.leaf key value) := by
  obtain ⟨last, hlast, hblank⟩ := hvalue.getLast?
  have hend : ('-' :: ' ' :: (key.toList ++ ':' :: ' ' :: value.toList)).getLast? = some last := by
    simp [List.getLast?_cons, List.getLast?_append, hlast]
  have hnone : headerText? ('-' :: ' ' :: (key.toList ++ ':' :: ' ' :: value.toList)) = none := by
    rw [headerText?, hend, ← hlast, if_neg hvalue.last]
  rw [Line.write, Line.ofText_marked column hend hblank, Item.ofText, hnone]
  simp only [leaf?_write hkey hvalue]

/-- Every line that can be read is read back from its text. -/
theorem Line.ofText_write {line : Line} (h : line.Legible) : Line.ofText line.write = line := by
  cases line with
  | blank => rfl
  | stray => decide
  | header key => exact LegibleHeader.ofText_write h
  | marked column item =>
      cases item with
      | header key => exact LegibleSection.ofText_write h column
      | leaf key value => exact LegibleKey.ofText_write h.1 h.2 column
      | malformed =>
          have hlast : ['-'].getLast? = some '-' := rfl
          rw [Line.write, Line.ofText_marked column hlast (by decide)]
          rfl

theorem Line.write_ends {line : Line} (h : line.Legible) :
    '\n' ∉ line.write ∧ line.write.getLast? ≠ some '\r' := by
  cases line with
  | blank => simp [Line.write]
  | stray => simp [Line.write]
  | header key => exact ⟨by simpa [Line.write] using h.inline.2, by simp [Line.write]⟩
  | marked column item =>
      have hcolumn : '\n' ∉ List.replicate column ' ' := fun hmem => by cases List.eq_of_mem_replicate hmem
      cases item with
      | malformed => simp [Line.write, hcolumn]
      | header key =>
          refine ⟨by simpa [Line.write, hcolumn] using h.inline.2, ?_⟩
          simp [Line.write, List.getLast?_cons, List.getLast?_append]
      | leaf key value =>
          obtain ⟨hkey, hvalue⟩ := h
          obtain ⟨last, hlast, hblank⟩ := hvalue.getLast?
          refine ⟨by simp [Line.write, hcolumn, hkey.inline.2, hvalue.inline.2], ?_⟩
          have hreturn : last ≠ '\r' := by
            rintro rfl
            exact Bool.false_ne_true (hblank.symm.trans (by decide))
          simpa [Line.write, List.getLast?_cons, List.getLast?_append, hlast] using hreturn

/-! ## Documents -/

mutual

/-- The lines of a node under `key`, with its marker at `column`. -/
def Node.toLines (key : String) (column : Nat) : Node → List Line
  | .text value => [.marked column (.leaf key value)]
  | .branch entries => .marked column (.header key) :: Document.bodyLines (column + 1) entries

/-- The lines of the entries of a section, with their markers at `column`. -/
def Document.bodyLines (column : Nat) : List (String × Node) → List Line
  | [] => []
  | (key, node) :: rest => node.toLines key column ++ Document.bodyLines column rest

end

def Node.entries : Node → Document
  | .text _ => []
  | .branch entries => entries

/-- The lines that the document is written as. -/
def Document.toLines (document : Document) : List Line :=
  document.flatMap fun entry => .header entry.1 :: Document.bodyLines 0 entry.2.entries

/-- Writes the document as a text, every line ended by a line feed. -/
def Document.write (document : Document) : String :=
  String.ofList ((document.toLines.map Line.write).flatMap fun line => line ++ ['\n'])

mutual

theorem Node.legible_toLines {key : String} {node : Node} (h : node.Legible key) (column : Nat) :
    ∀ line ∈ node.toLines key column, line.Legible := by
  match node with
  | .text value =>
      intro line hline
      obtain rfl := List.mem_singleton.mp hline
      exact h
  | .branch entries =>
      obtain ⟨hkey, _, hentries⟩ := h
      intro line hline
      rcases List.mem_cons.mp hline with rfl | hmem
      · exact hkey
      · exact Document.legible_bodyLines hentries (column + 1) line hmem

theorem Document.legible_bodyLines {entries : List (String × Node)} (h : Document.LegibleEntries entries)
    (column : Nat) : ∀ line ∈ Document.bodyLines column entries, line.Legible := by
  match entries with
  | [] => simp [Document.bodyLines]
  | (key, node) :: rest =>
      obtain ⟨hnode, hrest⟩ := h
      intro line hline
      rcases List.mem_append.mp hline with hmem | hmem
      · exact Node.legible_toLines hnode column line hmem
      · exact Document.legible_bodyLines hrest column line hmem

end

theorem Document.legible_toLines {document : Document} (h : document.Legible) :
    ∀ line ∈ document.toLines, line.Legible := by
  intro line hline
  obtain ⟨⟨key, node⟩, hentry, hmem⟩ := List.mem_flatMap.mp hline
  obtain ⟨hkey, entries, rfl, _, hentries⟩ := h.2 _ hentry
  rcases List.mem_cons.mp hmem with rfl | hbody
  · exact hkey
  · exact Document.legible_bodyLines hentries 0 line hbody

theorem Document.ofText_write_eq {document : Document} (h : document.Legible) :
    Document.ofText document.write = Document.ofLines document.toLines := by
  have hlegible := Document.legible_toLines h
  have hlines : lines document.write.toList = document.toLines.map Line.write := by
    rw [Document.write, String.toList_ofList]
    refine lines_flatMap (fun line hline => ?_) fun line hline => ?_
    · obtain ⟨source, hsource, rfl⟩ := List.mem_map.mp hline
      exact (Line.write_ends (hlegible source hsource)).1
    · obtain ⟨source, hsource, rfl⟩ := List.mem_map.mp hline
      exact (Line.write_ends (hlegible source hsource)).2
  have hread : document.toLines.map (Line.ofText ∘ Line.write) = document.toLines :=
    (List.map_congr_left fun line hline => Line.ofText_write (hlegible line hline)).trans (List.map_id _)
  rw [Document.ofText, hlines, List.map_map, hread]

/-! ## Reading the lines back -/

namespace Draft

theorem closeTo_closeTo_of_le (draft : Draft) {column wider : Nat} (h : column ≤ wider) :
    (draft.closeTo wider).closeTo column = draft.closeTo column := by
  have hboth (current : OpenSection) :
      (decide (current.column ≤ column) && decide (current.column ≤ wider)) =
        decide (current.column ≤ column) := by
    rw [← Bool.decide_and, decide_eq_decide]
    exact ⟨And.left, fun hle => ⟨hle, hle.trans h⟩⟩
  simp [closeTo, List.takeWhile_takeWhile, hboth]

theorem closeTo_eq_self {draft : Draft} {column : Nat}
    (h : ∀ current ∈ draft.opened, current.column ≤ column) : draft.closeTo column = draft := by
  rw [closeTo, List.takeWhile_eq_self_iff.mpr fun current hcurrent => decide_eq_true (h current hcurrent)]

theorem column_le_of_mem_closeTo {draft : Draft} {column : Nat} {current : OpenSection}
    (h : current ∈ (draft.closeTo column).opened) : current.column ≤ column := by
  simpa using List.mem_takeWhile_imp h

theorem step_marked {draft : Draft} {column : Nat} (h : (draft.closeTo column).opened ≠ []) (item : Item) :
    draft.step (.marked column item) = (draft.closeTo column).add column item := by
  rw [step, if_neg]
  intro hnil
  simp [closeTo, hnil] at h

/-- Changes the entries of the innermost open section. -/
def change (draft : Draft) (change : Document → Document) : Draft :=
  { draft with document := draft.document.updateAt draft.path change }

/-- The lines make the change in the section that takes a marked line at `column`, and leave it open. -/
def Makes (lines : List Line) (column : Nat) (change : Document → Document) : Prop :=
  ∀ draft : Draft, (draft.closeTo column).opened ≠ [] →
    (lines.foldl step draft).closeTo column = (draft.closeTo column).change change

theorem Makes.nil (column : Nat) : Makes [] column fun entries => entries := by
  intro draft _
  rw [change, Document.updateAt_id, List.foldl_nil]

theorem Makes.append {first second : List Line} {column : Nat} {change₁ change₂ : Document → Document}
    (h₁ : Makes first column change₁) (h₂ : Makes second column change₂) :
    Makes (first ++ second) column fun entries => change₂ (change₁ entries) := by
  intro draft hopened
  have hfirst := h₁ draft hopened
  rw [List.foldl_append, h₂ _ (by rw [hfirst]; exact hopened), hfirst]
  simp only [change, path, Document.updateAt_updateAt]

theorem Makes.leaf (column : Nat) (key value : String) :
    Makes [.marked column (.leaf key value)] column (Entries.insert · key (.text value)) := by
  intro draft hopened
  rw [List.foldl_cons, List.foldl_nil, step_marked hopened, add, Document.insertAt_eq_updateAt]
  exact closeTo_eq_self fun current hcurrent => column_le_of_mem_closeTo hcurrent

theorem Makes.header {lines : List Line} {column : Nat} {change : Document → Document}
    (h : Makes lines (column + 1) change) (key : String) :
    Makes (.marked column (.header key) :: lines) column (Entries.insert · key (.branch (change []))) := by
  intro draft hopened
  rw [List.foldl_cons, step_marked hopened]
  generalize hclosed : draft.closeTo column = closed at hopened ⊢
  have hle : ∀ current ∈ closed.opened, current.column ≤ column := fun current hcurrent =>
    column_le_of_mem_closeTo (hclosed ▸ hcurrent)
  -- The new section takes all lines that are further right than its own marker, and only those.
  have hinner : (closed.add column (.header key)).closeTo (column + 1) = closed.add column (.header key) := by
    refine closeTo_eq_self fun current hcurrent => ?_
    rcases List.mem_append.mp hcurrent with hmem | hmem
    · exact (hle current hmem).trans (Nat.le_succ column)
    · rw [List.mem_singleton.mp hmem]
  have hbody := h (closed.add column (.header key)) (by rw [hinner]; simp [add])
  rw [hinner] at hbody
  have houter : (closed.opened ++ [OpenSection.mk key (column + 1)]).takeWhile (·.column ≤ column) =
      closed.opened := by
    rw [List.takeWhile_append_of_pos fun current hcurrent => decide_eq_true (hle current hcurrent)]
    simp
  have hpath : (closed.add column (.header key)).path = closed.path ++ [key] := by simp [path, add]
  have hdocument :
      (closed.document.insertAt closed.path key (.branch [])).updateAt (closed.path ++ [key]) change =
        closed.document.updateAt closed.path (Entries.insert · key (.branch (change []))) := by
    rw [Document.insertAt_eq_updateAt, Document.updateAt_concat, Document.updateAt_updateAt]
    simp only [Entries.modify_insert, Node.updateEntries]
  rw [← closeTo_closeTo_of_le _ (Nat.le_succ column), hbody]
  rw [Draft.change, hpath, closeTo, add, houter, hdocument]
  rfl

end Draft

mutual

theorem Node.makes_toLines {key : String} {node : Node} (h : node.Legible key) (column : Nat) :
    Draft.Makes (node.toLines key column) column (Entries.insert · key node) := by
  match node with
  | .text value => exact Draft.Makes.leaf column key value
  | .branch entries =>
      obtain ⟨_, hnodup, hentries⟩ := h
      have hbody := (Document.makes_bodyLines hentries (column + 1)).header key
      rwa [Entries.nil_merge hnodup] at hbody

theorem Document.makes_bodyLines {entries : List (String × Node)} (h : Document.LegibleEntries entries)
    (column : Nat) : Draft.Makes (Document.bodyLines column entries) column (Entries.merge · entries) := by
  match entries with
  | [] => exact Draft.Makes.nil column
  | (key, node) :: rest =>
      exact (Node.makes_toLines h.1 column).append (Document.makes_bodyLines h.2 column)

end

theorem Document.step_topLevel {key : String} {entries : Document} (hbody : Document.LegibleBody entries)
    (draft : Draft) :
    ((Line.header key :: Document.bodyLines 0 entries).foldl Draft.step draft).document =
      draft.document.insert key (.branch entries) := by
  have hstep : draft.step (.header key) = ⟨draft.document.insert key (.branch []), [⟨key, 0⟩]⟩ := rfl
  have hclose : (draft.step (.header key)).closeTo 0 = draft.step (.header key) :=
    Draft.closeTo_eq_self (by simp [hstep])
  have hmakes := Document.makes_bodyLines hbody.2 0 (draft.step (.header key)) (by rw [hclose]; simp [hstep])
  have hdocument := congrArg Draft.document hmakes
  rw [hclose] at hdocument
  calc ((Line.header key :: Document.bodyLines 0 entries).foldl Draft.step draft).document
      = Document.updateAt (draft.document.insert key (.branch [])) [key] (Entries.merge · entries) := hdocument
    _ = draft.document.insert key (.branch (Entries.merge [] entries)) := Entries.modify_insert _ _ _ _
    _ = draft.document.insert key (.branch entries) := by rw [Entries.nil_merge hbody.1]

theorem Document.foldl_toLines {entries : Document} (hentries : entries.LegibleSections) (draft : Draft) :
    (entries.toLines.foldl Draft.step draft).document = draft.document.merge entries := by
  induction entries generalizing draft with
  | nil => rfl
  | cons entry rest ih =>
      obtain ⟨key, node⟩ := entry
      obtain ⟨_, inner, heq, hinner⟩ := hentries _ List.mem_cons_self
      obtain rfl : node = .branch inner := heq
      have hrest := ih fun other hother => hentries other (List.mem_cons_of_mem _ hother)
      rw [Document.toLines, List.flatMap_cons, List.foldl_append, ← Document.toLines, hrest, Node.entries,
        Document.step_topLevel hinner]
      rfl

theorem Document.ofLines_toLines {document : Document} (h : document.Legible) :
    Document.ofLines document.toLines = document := by
  rw [Document.ofLines, Document.foldl_toLines h.2]
  exact Entries.nil_merge h.1

theorem Document.ofText_write {document : Document} (h : document.Legible) :
    Document.ofText document.write = document := by
  rw [Document.ofText_write_eq h, Document.ofLines_toLines h]

/-- The documents that are read are the legible ones, and writing a document and reading the text gives the
same document back exactly for these; so every document that was read survives. -/
theorem Document.ofText_image_and_write :
    (∀ document, (∃ text, Document.ofText text = document) ↔ document.Legible) ∧
      (∀ document : Document, document.Legible ↔ Document.ofText document.write = document) ∧
      ∀ text, Document.ofText (Document.ofText text).write = Document.ofText text := by
  refine ⟨fun document => ⟨?_, fun h => ⟨_, Document.ofText_write h⟩⟩,
    fun document => ⟨Document.ofText_write, fun h => h ▸ Document.legible_ofText _⟩,
    fun text => Document.ofText_write (Document.legible_ofText text)⟩
  rintro ⟨text, rfl⟩
  exact Document.legible_ofText text

end LayeredConfig
