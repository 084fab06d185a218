import LayeredConfig.Proofs.Document.Line
import LayeredConfig.Proofs.Document.Update

/-!
# Reading by descent

A configuration text can be read by a function that calls itself for each section: it reads the body of a section up to the
line that ends it, and writes the section when its body is complete. The line that ended it is handed back and read again
outside, unless it is blank. This comes to the same as reading line by line with a row of open sections.
-/

namespace LayeredConfig

open Text

/-! ## The lines that are left -/

/-- The lines that are left of a text, and a line that was handed back. -/
structure Cursor where
  lines : List (List Char)
  pending : Option (List Char)

namespace Cursor

variable {cursor after : Cursor} {line : List Char}

def next? (cursor : Cursor) : Option (List Char × Cursor) :=
  match cursor.pending with
  | some line => some (line, { cursor with pending := none })
  | none =>
    match cursor.lines with
    | [] => none
    | line :: lines => some (line, { cursor with lines })

def pushBack (cursor : Cursor) (line : List Char) : Cursor := { cursor with pending := some line }

/-- All lines that are still to be read. -/
def left (cursor : Cursor) : List (List Char) := cursor.pending.toList ++ cursor.lines

theorem left_of_next?_eq_none (h : cursor.next? = none) : cursor.left = [] ∧ cursor.pending = none := by
  rcases cursor with ⟨_ | ⟨first, lines⟩, _ | pending⟩
  · exact ⟨rfl, rfl⟩
  all_goals cases h

theorem left_of_next? (h : cursor.next? = some (line, after)) : cursor.left = line :: after.left ∧ after.pending = none := by
  rcases cursor with ⟨_ | ⟨first, lines⟩, _ | pending⟩ <;> cases h <;> exact ⟨rfl, rfl⟩

theorem left_pushBack (h : cursor.pending = none) (line : List Char) : (cursor.pushBack line).left = line :: cursor.left := by
  simp [pushBack, left, h]

end Cursor

/-- What ended the body of a section. -/
inductive End where
  | eof
  | blank
  | line (line : List Char)

/-- A line that ended a section is read again outside. -/
def End.handBack (cursor : Cursor) : End → Cursor
  | .line next => cursor.pushBack next
  | _ => cursor

/-! ## The descent -/

/-- The column of the marker, if the line starts with one. -/
def markerColumn? (line : List Char) : Option Nat :=
  if (trimStart line).head? = some '-' then some (line.takeWhile isBlank).length else none

/-- The body of a section with what ended it, read from at most so many lines. -/
structure Body (size : Nat) where
  entries : Document
  ending : End
  rest : Cursor
  pending_eq_none : rest.pending = none
  length_le : (ending.handBack rest).left.length ≤ size

/-- Reads the body of a section, after some of its entries. Its marked lines start at `minColumn` or further in. -/
def readSection (cursor : Cursor) (minColumn : Nat) (entries : Document) : Body cursor.left.length :=
  match hnext : cursor.next? with
  | none => ⟨entries, .eof, cursor, (Cursor.left_of_next?_eq_none hnext).2, Nat.le_refl _⟩
  | some (line, after) =>
    have hleft := Cursor.left_of_next? hnext
    have hlength : after.left.length < cursor.left.length := by simp [hleft.1]
    if trim line = [] then ⟨entries, .blank, after, hleft.2, Nat.le_of_lt hlength⟩
    else
      match (markerColumn? line).filter (minColumn ≤ ·) with
      | none => ⟨entries, .line line, after, hleft.2, by rw [End.handBack, Cursor.left_pushBack hleft.2, hleft.1]⟩
      | some column =>
        match headerText? (trim line) with
        | some head =>
          let body := readSection after (column + 1) []
          have hbody := Nat.lt_of_le_of_lt body.length_le hlength
          let entries := Entries.insert entries (sectionKey head) (.branch body.entries)
          match hend : body.ending with
          | .line next =>
            have hback : (body.rest.pushBack next).left.length < cursor.left.length := by rwa [hend] at hbody
            let later := readSection (body.rest.pushBack next) minColumn entries
            { later with length_le := Nat.le_of_lt (Nat.lt_of_le_of_lt later.length_le hback) }
          | .blank => ⟨entries, .blank, body.rest, body.pending_eq_none, by rw [hend] at hbody; exact Nat.le_of_lt hbody⟩
          | .eof => ⟨entries, .eof, body.rest, body.pending_eq_none, by rw [hend] at hbody; exact Nat.le_of_lt hbody⟩
        | none =>
          let entries :=
            match leaf? (trim line) with
            | some (key, value) => Entries.insert entries key (.text value)
            | none => entries
          let later := readSection after minColumn entries
          { later with length_le := Nat.le_of_lt (Nat.lt_of_le_of_lt later.length_le hlength) }
termination_by cursor.left.length

/-- Reads a configuration text, after some of its sections. -/
def readSections (cursor : Cursor) (root : Document) : Document :=
  match hnext : cursor.next? with
  | none => root
  | some (line, after) =>
    have hlength : after.left.length < cursor.left.length := by simp [(Cursor.left_of_next? hnext).1]
    if (markerColumn? line).isSome then readSections after root
    else
      match headerText? (trim line) with
      | none => readSections after root
      | some head =>
        let body := readSection after 0 []
        have hbody := Nat.lt_of_le_of_lt body.length_le hlength
        readSections (body.ending.handBack body.rest)
          (Entries.insert root (String.ofList (trim head)) (.branch body.entries))
termination_by cursor.left.length

/-! ## Line by line -/

/-- Reads on from a draft, line by line. -/
def Draft.readOn (draft : Draft) (lines : List (List Char)) : Document :=
  ((lines.map Line.ofText).foldl Draft.step draft).document

theorem Draft.readOn_cons (draft : Draft) (line : List Char) (lines : List (List Char)) :
    draft.readOn (line :: lines) = (draft.step (Line.ofText line)).readOn lines := rfl

theorem Line.ofText_of_markerColumn? {line : List Char} {column : Nat} (h : markerColumn? line = some column) :
    Line.ofText line = .marked column (.ofText (trim line)) := by
  unfold markerColumn? at h
  split at h
  · rename_i hstart
    rw [Line.ofText_of_marked hstart, Option.some.inj h]
  · cases h

theorem Line.ofText_of_markerColumn?_eq_none {line : List Char} (h : markerColumn? line = none) :
    (trimStart line).head? ≠ some '-' := by
  unfold markerColumn? at h
  split at h
  · cases h
  · assumption

theorem Document.updateAt_section (base : Document) (path : List String) (entries : Document) (key : String)
    (body : Document) :
    ((base.updateAt path fun _ => Entries.insert entries key (.branch [])).updateAt (path ++ [key]) fun _ => body) =
      base.updateAt path fun _ => Entries.insert entries key (.branch body) := by
  rw [updateAt_concat, updateAt_updateAt]
  simp only [Entries.modify_insert, Node.updateEntries]

section

variable (base : Document) (outer : List OpenSection) (key : String) (minColumn : Nat) (entries : Document)

/-- In the innermost section, the entries have been read. -/
def Draft.inside : Draft where
  document := base.updateAt (outer.map OpenSection.key ++ [key]) fun _ => entries
  opened := outer ++ [⟨key, minColumn⟩]

/-- What is open behind a section. -/
def End.opened : End → List OpenSection
  | .line _ => outer
  | _ => []

/-- The section has been read to its end. -/
def Draft.behind (ending : End) : Draft where
  document := base.updateAt (outer.map OpenSection.key ++ [key]) fun _ => entries
  opened := ending.opened outer

variable {base outer key minColumn entries}

/-- A line that is not of the section is read as if the section was closed. -/
theorem Draft.step_inside_of_unfit {line : List Char} (houter : outer = [] → minColumn = 0)
    (hunfit : (markerColumn? line).filter (minColumn ≤ ·) = none) (next : List Char) :
    (inside base outer key minColumn entries).step (Line.ofText line) =
      (behind base outer key entries (.line next)).step (Line.ofText line) := by
  cases hcolumn : markerColumn? line with
  | none =>
      have hstart := Line.ofText_of_markerColumn?_eq_none hcolumn
      cases hline : Line.ofText line with
      | marked column item => exact absurd (Line.head?_of_marked hline) hstart
      | _ => rfl
  | some column =>
      have hlt : column < minColumn := by simpa [hcolumn] using hunfit
      have hne : outer ≠ [] := fun hnil => by
        rw [houter hnil] at hlt
        exact absurd hlt (Nat.not_lt_zero column)
      have htake : (outer ++ [(⟨key, minColumn⟩ : OpenSection)]).takeWhile (fun one => one.column ≤ column) =
          outer.takeWhile fun one => one.column ≤ column := by
        rw [List.takeWhile_append]
        split
        · rename_i hall
          have hself := List.IsPrefix.eq_of_length (List.takeWhile_prefix _) hall
          rw [List.takeWhile_cons_of_neg (by simpa using hlt), List.append_nil, hself]
        · rfl
      rw [Line.ofText_of_markerColumn? hcolumn, step, step, if_neg (by simp [inside]), if_neg (by simpa [behind, End.opened])]
      simp only [closeTo, inside, behind, End.opened, htake]

theorem Draft.step_inside_of_fit {line : List Char} {column : Nat} (hcolumns : ∀ one ∈ outer, one.column ≤ minColumn)
    (hfit : (markerColumn? line).filter (minColumn ≤ ·) = some column) :
    (inside base outer key minColumn entries).step (Line.ofText line) =
      (inside base outer key minColumn entries).add column (.ofText (trim line)) := by
  obtain ⟨hcolumn, hle⟩ := Option.filter_eq_some_iff.mp hfit
  have hle : minColumn ≤ column := by simpa using hle
  have hclose : (inside base outer key minColumn entries).closeTo column = inside base outer key minColumn entries := by
    have hall : ∀ one ∈ outer ++ [⟨key, minColumn⟩], decide (one.column ≤ column) = true := by
      intro one hone
      rcases List.mem_append.mp hone with hone | hone
      · exact decide_eq_true (Nat.le_trans (hcolumns one hone) hle)
      · obtain rfl := List.mem_singleton.mp hone
        exact decide_eq_true hle
    rw [closeTo, inside, List.takeWhile_eq_self_iff.mpr hall]
  rw [Line.ofText_of_markerColumn? hcolumn, step, if_neg (by simp [inside]), hclose]

theorem Draft.readOn_header {line head : List Char} {column : Nat} (hcolumns : ∀ one ∈ outer, one.column ≤ minColumn)
    (hfit : (markerColumn? line).filter (minColumn ≤ ·) = some column) (hhead : headerText? (trim line) = some head)
    (lines : List (List Char)) :
    (inside base outer key minColumn entries).readOn (line :: lines) =
      (inside (base.updateAt (outer.map OpenSection.key ++ [key]) fun _ =>
        Entries.insert entries (sectionKey head) (.branch [])) (outer ++ [⟨key, minColumn⟩]) (sectionKey head) (column + 1)
          []).readOn lines := by
  have hpath : (inside base outer key minColumn entries).path = outer.map OpenSection.key ++ [key] := by simp [path, inside]
  rw [readOn_cons, step_inside_of_fit hcolumns hfit, Item.ofText, hhead, add, hpath, Document.insertAt_eq_updateAt]
  simp only [inside, Document.updateAt_updateAt, List.map_append, List.map_cons, List.map_nil, Document.updateAt_section]

theorem Draft.readOn_leaf {line : List Char} {column : Nat} (hcolumns : ∀ one ∈ outer, one.column ≤ minColumn)
    (hfit : (markerColumn? line).filter (minColumn ≤ ·) = some column) (hhead : headerText? (trim line) = none)
    (lines : List (List Char)) :
    (inside base outer key minColumn entries).readOn (line :: lines) =
      (inside base outer key minColumn
        (match leaf? (trim line) with
        | some (name, value) => Entries.insert entries name (.text value)
        | none => entries)).readOn lines := by
  have hpath : (inside base outer key minColumn entries).path = outer.map OpenSection.key ++ [key] := by simp [path, inside]
  rw [readOn_cons, step_inside_of_fit hcolumns hfit, Item.ofText, hhead]
  cases leaf? (trim line) with
  | none => rfl
  | some leaf =>
      simp only [add, hpath, Document.insertAt_eq_updateAt]
      simp only [inside, Document.updateAt_updateAt]

/-- A section that has been read to its end is an entry of the section around it. -/
theorem Draft.behind_nested (name : String) (body : Document) (ending : End) :
    behind (base.updateAt (outer.map OpenSection.key ++ [key]) fun _ => Entries.insert entries name (.branch []))
        (outer ++ [⟨key, minColumn⟩]) name body ending =
      { document := (inside base outer key minColumn (Entries.insert entries name (.branch body))).document
        opened := ending.opened (outer ++ [⟨key, minColumn⟩]) } := by
  simp only [behind, inside, List.map_append, List.map_cons, List.map_nil, Document.updateAt_section]

theorem OpenSection.column_le_of_nested {line : List Char} {column : Nat} (hcolumns : ∀ one ∈ outer, one.column ≤ minColumn)
    (hfit : (markerColumn? line).filter (minColumn ≤ ·) = some column) :
    ∀ one ∈ outer ++ [⟨key, minColumn⟩], one.column ≤ column + 1 := by
  have hle : minColumn ≤ column := by simpa using (Option.filter_eq_some_iff.mp hfit).2
  intro one hone
  rcases List.mem_append.mp hone with hone | hone
  · exact Nat.le_succ_of_le (Nat.le_trans (hcolumns one hone) hle)
  · obtain rfl := List.mem_singleton.mp hone
    exact Nat.le_succ_of_le hle

end

theorem Draft.step_of_blank {line : List Char} (h : trim line = []) (draft : Draft) :
    draft.step (Line.ofText line) = { draft with opened := [] } :=
  step_of_plain (by simp [← head?_trim, h]) (by simp [h]) draft

/-- Read line by line in the innermost of any sections, the lines leave the body behind. In a top-level section, any column
is far enough in. -/
def Body.ReadFrom {size : Nat} (body : Body size) (lines : List (List Char)) (minColumn : Nat) (entries : Document) : Prop :=
  ∀ (base : Document) (outer : List OpenSection) (key : String),
    (∀ one ∈ outer, one.column ≤ minColumn) → (outer = [] → minColumn = 0) →
      (Draft.inside base outer key minColumn entries).readOn lines =
        (Draft.behind base outer key body.entries body.ending).readOn (body.ending.handBack body.rest).left

theorem Body.ReadFrom.readOn {size : Nat} {body : Body size} {lines : List (List Char)} {base entries : Document}
    {outer : List OpenSection} {key : String} {minColumn column : Nat} {line head : List Char} {ending : End}
    (hbody : body.ReadFrom lines (column + 1) []) (hcolumns : ∀ one ∈ outer, one.column ≤ minColumn)
    (hfit : (markerColumn? line).filter (minColumn ≤ ·) = some column) (hhead : headerText? (trim line) = some head)
    (hend : body.ending = ending) :
    (Draft.inside base outer key minColumn entries).readOn (line :: lines) =
      Draft.readOn
        { document := (Draft.inside base outer key minColumn
            (Entries.insert entries (sectionKey head) (.branch body.entries))).document
          opened := ending.opened (outer ++ [⟨key, minColumn⟩]) }
        (ending.handBack body.rest).left := by
  rw [Draft.readOn_header hcolumns hfit hhead, hbody _ _ _ (OpenSection.column_le_of_nested hcolumns hfit) (by simp),
    Draft.behind_nested, hend]

/-- The descent reads what is read line by line. -/
theorem readSection_readFrom (cursor : Cursor) (minColumn : Nat) (entries : Document) :
    (readSection cursor minColumn entries).ReadFrom cursor.left minColumn entries := by
  fun_induction readSection cursor minColumn entries with
  | case1 cursor minColumn entries hnext =>
      intro base outer key _ _
      simp only [End.handBack, (Cursor.left_of_next?_eq_none hnext).1]
      rfl
  | case2 cursor minColumn entries line after hnext hleft hlength hblank =>
      intro base outer key _ _
      simp only [hleft.1, Draft.readOn_cons, Draft.step_of_blank hblank]
      rfl
  | case3 cursor minColumn entries line after hnext hleft hlength hblank hunfit =>
      intro base outer key _ houter
      simp only [hleft.1, Draft.readOn_cons, Draft.step_inside_of_unfit houter hunfit line, End.handBack,
        Cursor.left_pushBack hleft.2]
  | case4 cursor minColumn entries line after hnext hleft hlength hblank column hfit head hhead body hbody written next hend
      hback later ihbody ihlater _ =>
      -- the line that ended the inner section is read again in this one
      intro base outer key hcolumns houter
      simp only [hleft.1, ihbody.readOn hcolumns hfit hhead hend]
      exact ihlater base outer key hcolumns houter
  | case5 cursor minColumn entries line after hnext hleft hlength hblank column hfit head hhead body hbody written hend ihbody
  | case6 cursor minColumn entries line after hnext hleft hlength hblank column hfit head hhead body hbody written hend ihbody =>
      -- a blank line and the end of the text leave no section open
      intro base outer key hcolumns _
      simp only [hleft.1, ihbody.readOn hcolumns hfit hhead hend]
      rfl
  | case7 cursor minColumn entries line after hnext hleft hlength hblank column hfit hhead written later ihlater _ =>
      intro base outer key hcolumns houter
      simp only [hleft.1, Draft.readOn_leaf hcolumns hfit hhead]
      exact ihlater base outer key hcolumns houter

/-! ## The whole text -/

theorem Body.ReadFrom.readOn_topLevel {size : Nat} {body : Body size} {lines : List (List Char)} {line head : List Char}
    (hbody : body.ReadFrom lines 0 []) (hmarker : ¬ (markerColumn? line).isSome = true)
    (hhead : headerText? (trim line) = some head) (root : Document) :
    (⟨root, []⟩ : Draft).readOn (line :: lines) =
      (⟨Entries.insert root (String.ofList (trim head)) (.branch body.entries), []⟩ : Draft).readOn
        (body.ending.handBack body.rest).left := by
  have hstart := Line.ofText_of_markerColumn?_eq_none (Option.not_isSome_iff_eq_none.mp hmarker)
  have htrim := headerText?_eq_some_iff.mp hhead
  have hopen : (⟨root, []⟩ : Draft).step (Line.ofText line) =
      Draft.inside (Entries.insert root (String.ofList (trim head)) (.branch [])) [] (String.ofList (trim head)) 0 [] := by
    rw [Line.ofText_of_header hstart (by simp [htrim]), htrim, List.dropLast_concat]
    simp only [Draft.step, Draft.inside, Document.insertAt, List.map_nil, List.nil_append, Document.updateAt,
      Entries.modify_insert, Node.updateEntries]
  have hclosed : Draft.behind (Entries.insert root (String.ofList (trim head)) (.branch [])) [] (String.ofList (trim head))
      body.entries body.ending = ⟨Entries.insert root (String.ofList (trim head)) (.branch body.entries), []⟩ := by
    have hopened : body.ending.opened [] = [] := by cases body.ending <;> rfl
    simp only [Draft.behind, hopened, List.map_nil, List.nil_append, Document.updateAt, Entries.modify_insert,
      Node.updateEntries]
  rw [Draft.readOn_cons, hopen, hbody _ _ _ (by simp) fun _ => rfl, hclosed]

theorem readSections_eq_readOn (cursor : Cursor) (root : Document) :
    readSections cursor root = (⟨root, []⟩ : Draft).readOn cursor.left := by
  fun_induction readSections cursor root with
  | case1 cursor root hnext =>
      rw [(Cursor.left_of_next?_eq_none hnext).1]
      rfl
  | case2 cursor root line after hnext hlength hmarker ih =>
      obtain ⟨column, hcolumn⟩ := Option.isSome_iff_exists.mp hmarker
      rw [ih, (Cursor.left_of_next? hnext).1, Draft.readOn_cons, Line.ofText_of_markerColumn? hcolumn]
      rfl
  | case3 cursor root line after hnext hlength hmarker hhead ih =>
      have hstart := Line.ofText_of_markerColumn?_eq_none (Option.not_isSome_iff_eq_none.mp hmarker)
      have hlast : (trim line).getLast? ≠ some ':' := fun hlast => by simp [headerText?, hlast] at hhead
      rw [ih, (Cursor.left_of_next? hnext).1, Draft.readOn_cons, Draft.step_of_plain hstart hlast]
  | case4 cursor root line after hnext hlength hmarker head hhead body hbody ih =>
      rw [ih, (Cursor.left_of_next? hnext).1, (readSection_readFrom after 0 []).readOn_topLevel hmarker hhead]

/-- A text is read by descent. -/
theorem Document.ofText_eq_readSections (text : String) :
    ofText text = readSections ⟨lines text.toList, none⟩ [] :=
  (readSections_eq_readOn ⟨lines text.toList, none⟩ []).symm

end LayeredConfig
