import LayeredConfig.Proofs.Document.Line
import LayeredConfig.Proofs.Text.Cut
import LayeredConfig.Proofs.Text.Lines
import LayeredConfig.Proofs.Text.Trim

/-!
# Legible documents

What a document can hold if it was read from a text: which keys of top-level sections, of the sections below
them and of texts there can be, and which texts. Every line that is read keeps to it.
-/

namespace LayeredConfig

open Text

/-- The text stands on one line and neither starts nor ends with a blank. -/
def Inline (text : String) : Prop := trim text.toList = text.toList ∧ '\n' ∉ text.toList

/-- The text can be the key of a top-level section. -/
structure LegibleHeader (key : String) : Prop where
  inline : Inline key
  unmarked : key.toList.head? ≠ some '-'

/-- The text can be the key of a section below a top-level one. -/
structure LegibleSection (key : String) : Prop where
  inline : Inline key
  colon : ':' ∉ key.toList

/-- The text can be the key of a text. -/
structure LegibleKey (key : String) : Prop where
  inline : Inline key
  tab : '\t' ∉ key.toList
  colon : ':' ∉ key.toList

/-- The text can be a value. -/
structure LegibleValue (value : String) : Prop where
  inline : Inline value
  tab : '\t' ∉ value.toList
  nonempty : value ≠ ""
  last : value.toList.getLast? ≠ some ':'

mutual

/-- The node can stand under `key` in a section. -/
def Node.Legible (key : String) : Node → Prop
  | .text value => LegibleKey key ∧ LegibleValue value
  | .branch entries =>
    LegibleSection key ∧ (Entries.keys entries).Nodup ∧ Document.LegibleEntries entries

def Document.LegibleEntries : List (String × Node) → Prop
  | [] => True
  | (key, node) :: rest => node.Legible key ∧ Document.LegibleEntries rest

end

/-- The entries can be those of a section. -/
def Document.LegibleBody (entries : Document) : Prop :=
  entries.keys.Nodup ∧ Document.LegibleEntries entries

/-- All entries are top-level sections. -/
def Document.LegibleSections (document : Document) : Prop :=
  ∀ entry ∈ document,
    LegibleHeader entry.1 ∧ ∃ entries, entry.2 = .branch entries ∧ Document.LegibleBody entries

/-- The document can be read from a text. -/
def Document.Legible (document : Document) : Prop := document.keys.Nodup ∧ document.LegibleSections

theorem Document.legibleEntries_iff {entries : Document} :
    Document.LegibleEntries entries ↔ ∀ entry ∈ entries, entry.2.Legible entry.1 := by
  induction entries with
  | nil => simp [Document.LegibleEntries]
  | cons entry rest ih => simp [Document.LegibleEntries, ih]

/-! ## Lines -/

/-- What the line holds can stand in a legible document. -/
def Line.Legible : Line → Prop
  | .marked _ (.header key) => LegibleSection key
  | .marked _ (.leaf key value) => LegibleKey key ∧ LegibleValue value
  | .header key => LegibleHeader key
  | .marked _ .malformed | .blank | .stray => True

theorem inline_trim {cs : List Char} (h : '\n' ∉ cs) : Inline (String.ofList (trim cs)) := by
  refine ⟨?_, fun hmem => h (mem_of_mem_trim (by simpa using hmem))⟩
  rw [String.toList_ofList, trim_trim]

theorem legibleSection_sectionKey {head : List Char} (h : '\n' ∉ head) :
    LegibleSection (sectionKey head) := by
  obtain ⟨named, hnamed, hsub⟩ : ∃ named : List Char,
      ((cutAtChar '-' head).map Prod.snd).getD head = named ∧ ∀ c ∈ named, c ∈ head := by
    cases hcut : cutAtChar '-' head with
    | none => exact ⟨head, rfl, fun c hc => hc⟩
    | some parts =>
        have heq := (cutAtChar_eq_some_iff.mp hcut).1
        exact ⟨parts.2, rfl, fun c hc => by rw [heq]; simp [hc]⟩
  obtain ⟨key, hkey, hsubkey, hcolon⟩ : ∃ key : List Char,
      ((cutAtChar ':' named).map Prod.fst).getD named = key ∧ (∀ c ∈ key, c ∈ named) ∧
        ':' ∉ key := by
    cases hcut : cutAtChar ':' named with
    | none => exact ⟨named, rfl, fun c hc => hc, cutAtChar_eq_none_iff.mp hcut⟩
    | some parts =>
        obtain ⟨heq, hcolon⟩ := cutAtChar_eq_some_iff.mp hcut
        exact ⟨parts.1, rfl, fun c hc => by rw [heq]; simp [hc], hcolon⟩
  have hresult : sectionKey head = String.ofList (trim key) := by
    simp only [sectionKey, hnamed, hkey]
  rw [hresult]
  refine ⟨inline_trim fun hmem => h (hsub _ (hsubkey _ hmem)), fun hmem => hcolon ?_⟩
  exact mem_of_mem_trim (by simpa using hmem)

/-- What comes after a colon ends with the last character of the line, which is not dropped with the tabs. -/
theorem getLast?_after_colon {trimmed before content : List Char} {last : Char}
    (heq : trimmed.filter (· ≠ '\t') = before ++ ':' :: content) (hlast : trimmed.getLast? = some last)
    (htab : last ≠ '\t') (hcolon : last ≠ ':') : content.getLast? = some last := by
  obtain ⟨init, rfl⟩ := List.getLast?_eq_some_iff.mp hlast
  have hkeep : (init ++ [last]).filter (· ≠ '\t') = init.filter (· ≠ '\t') ++ [last] := by simp [htab]
  rw [hkeep] at heq
  rcases List.eq_nil_or_concat content with rfl | ⟨rest, c, rfl⟩
  · have hsame := congrArg List.getLast? heq
    rw [List.getLast?_concat, List.getLast?_concat] at hsame
    exact absurd (Option.some.inj hsame) hcolon
  · rw [List.concat_eq_append, ← List.cons_append, ← List.append_assoc] at heq
    have hsame := congrArg List.getLast? heq
    rw [List.getLast?_concat, List.getLast?_concat] at hsame
    rw [List.concat_eq_append, List.getLast?_concat, hsame]

/-- The value ends as the line does, since it does not end with a blank. -/
theorem getLast?_value {trimmed before named content : List Char} (htrim : trim trimmed = trimmed)
    (hlast : trimmed.getLast? ≠ some ':')
    (heq : trimmed.filter (· ≠ '\t') = before ++ '-' :: (named ++ ':' :: content)) :
    ∃ last, (trim content).getLast? = some last ∧ last ≠ ':' := by
  cases hend : trimmed.getLast? with
  | none =>
      rw [List.getLast?_eq_none_iff.mp hend] at heq
      simp at heq
  | some last =>
      have hblank := (trim_eq_self_iff.mp htrim).2 last hend
      have htab : last ≠ '\t' := by
        rintro rfl
        exact Bool.false_ne_true (hblank.symm.trans (by decide))
      have hcolon : last ≠ ':' := fun heq => hlast (hend.trans (congrArg some heq))
      have hafter : trimmed.filter (· ≠ '\t') = (before ++ '-' :: named) ++ ':' :: content := by
        simpa using heq
      exact ⟨last, getLast?_trim (getLast?_after_colon hafter hend htab hcolon) hblank, hcolon⟩

theorem legible_leaf {trimmed : List Char} {key value : String} (htrim : trim trimmed = trimmed)
    (hfeed : '\n' ∉ trimmed) (hlast : trimmed.getLast? ≠ some ':')
    (h : leaf? trimmed = some (key, value)) : LegibleKey key ∧ LegibleValue value := by
  obtain ⟨before, named, content, heq, _, hcolon, rfl, rfl⟩ := leaf?_eq_some_iff.mp h
  have hmem : ∀ c ∈ before ++ '-' :: (named ++ ':' :: content), c ∈ trimmed ∧ c ≠ '\t' := by
    intro c hc
    rw [← heq] at hc
    simpa using hc
  have hnamed : ∀ c ∈ named, c ∈ trimmed ∧ c ≠ '\t' := fun c hc => hmem c (by simp [hc])
  have hcontent : ∀ c ∈ content, c ∈ trimmed ∧ c ≠ '\t' := fun c hc => hmem c (by simp [hc])
  obtain ⟨last, hvalue, hne⟩ := getLast?_value htrim hlast heq
  refine ⟨⟨inline_trim fun hc => hfeed (hnamed _ hc).1, fun hc => ?_, fun hc => ?_⟩,
    ⟨inline_trim fun hc => hfeed (hcontent _ hc).1, fun hc => ?_, fun hnil => ?_, fun hend => ?_⟩⟩
  · exact (hnamed _ (mem_of_mem_trim (by simpa using hc))).2 rfl
  · exact hcolon (mem_of_mem_trim (by simpa using hc))
  · exact (hcontent _ (mem_of_mem_trim (by simpa using hc))).2 rfl
  · have hempty := congrArg String.toList hnil
    rw [String.toList_ofList] at hempty
    rw [hempty] at hvalue
    cases hvalue
  · rw [String.toList_ofList, hvalue] at hend
    exact hne (Option.some.inj hend)

theorem Line.legible_ofText {line : List Char} (h : '\n' ∉ line) : (Line.ofText line).Legible := by
  have htrim : '\n' ∉ trim line := fun hmem => h (mem_of_mem_trim hmem)
  by_cases hmark : (trimStart line).head? = some '-'
  · rw [Line.ofText_of_marked hmark]
    unfold Item.ofText
    split
    · rename_i head hhead
      have heq := headerText?_eq_some_iff.mp hhead
      exact legibleSection_sectionKey fun hmem => htrim (by rw [heq]; simp [hmem])
    · rename_i hhead
      have hlast : (trim line).getLast? ≠ some ':' := by
        intro hlast
        simp [headerText?, hlast] at hhead
      split
      · rename_i key value hleaf
        exact legible_leaf (trim_trim line) htrim hlast hleaf
      · trivial
  · by_cases hlast : (trim line).getLast? = some ':'
    · rw [Line.ofText_of_header hmark hlast]
      obtain ⟨head, hhead⟩ := List.getLast?_eq_some_iff.mp hlast
      rw [hhead, List.dropLast_concat]
      refine ⟨inline_trim fun hmem => htrim (by rw [hhead]; simp [hmem]), fun hdash => ?_⟩
      -- The key starts where the line does, so the line would be marked.
      have hfirst := head?_trim line
      rw [hhead] at hfirst
      cases head with
      | nil => cases hdash
      | cons c head =>
          have hc := isBlank_of_head?_trimStart hfirst.symm
          rw [String.toList_ofList, head?_trim, trimStart_cons, hc, if_neg Bool.false_ne_true] at hdash
          exact hmark (hfirst.symm.trans hdash)
    · rcases Line.ofText_of_plain hmark hlast with heq | heq <;> rw [heq] <;> trivial

/-! ## Writes -/

theorem Document.LegibleBody.insertAt {entries : Document} (h : Document.LegibleBody entries)
    {key : String} {node : Node} (hnode : node.Legible key) (path : List String) :
    Document.LegibleBody (entries.insertAt path key node) := by
  obtain ⟨hnodup, hentries⟩ := h
  rw [Document.legibleEntries_iff] at hentries
  induction path generalizing entries with
  | nil =>
      refine ⟨Entries.nodup_keys_insert hnodup key node, Document.legibleEntries_iff.mpr ?_⟩
      intro entry hentry
      rcases Entries.mem_insert hentry with rfl | hmem
      · exact hnode
      · exact hentries entry hmem
  | cons name path ih =>
      refine ⟨?_, Document.legibleEntries_iff.mpr ?_⟩
      · rw [Document.insertAt, Entries.keys_modify]
        exact hnodup
      · intro entry hentry
        rcases Entries.mem_modify hentry with hmem | ⟨value, hmem, rfl⟩
        · exact hentries entry hmem
        · have hvalue := hentries _ hmem
          cases value with
          | text value => exact hvalue
          | branch inner =>
              obtain ⟨hsection, hinner, hlegible⟩ := hvalue
              exact ⟨hsection, ih hinner (Document.legibleEntries_iff.mp hlegible)⟩

theorem Document.Legible.openHeader {document : Document} (h : document.Legible) {key : String}
    (hkey : LegibleHeader key) : (document.insertAt [] key (.branch [])).Legible := by
  refine ⟨Entries.nodup_keys_insert h.1 key _, fun entry hentry => ?_⟩
  rcases Entries.mem_insert hentry with rfl | hmem
  · exact ⟨hkey, [], rfl, List.nodup_nil, trivial⟩
  · exact h.2 entry hmem

theorem Document.Legible.insertAt {document : Document} (h : document.Legible) {key : String}
    {node : Node} (hnode : node.Legible key) (name : String) (path : List String) :
    (document.insertAt (name :: path) key node).Legible := by
  refine ⟨?_, fun entry hentry => ?_⟩
  · rw [Document.insertAt, Entries.keys_modify]
    exact h.1
  · rcases Entries.mem_modify hentry with hmem | ⟨value, hmem, rfl⟩
    · exact h.2 entry hmem
    · obtain ⟨hname, entries, heq, hbody⟩ := h.2 _ hmem
      obtain rfl : value = .branch entries := heq
      exact ⟨hname, _, rfl, hbody.insertAt hnode path⟩

/-! ## Texts -/

/-- The document is legible, and the outermost section that is open takes lines at every column. -/
structure Draft.Legible (draft : Draft) : Prop where
  document : draft.document.Legible
  outermost : ∀ first ∈ draft.opened.head?, first.column = 0

theorem Draft.Legible.add {draft : Draft} (h : draft.Legible) (hopened : draft.opened ≠ [])
    {column : Nat} {item : Item} (hitem : (Line.marked column item).Legible) :
    (draft.add column item).Legible := by
  obtain ⟨first, rest, hfirst⟩ := List.exists_cons_of_ne_nil hopened
  have hpath : draft.path = first.key :: rest.map OpenSection.key := by simp [Draft.path, hfirst]
  cases item with
  | header key =>
      refine ⟨?_, ?_⟩
      · have hnode : (Node.branch []).Legible key := ⟨hitem, List.nodup_nil, trivial⟩
        rw [Draft.add, hpath]
        exact h.document.insertAt hnode _ _
      · simpa [Draft.add, hfirst] using h.outermost
  | leaf key value =>
      refine ⟨?_, h.outermost⟩
      have hnode : (Node.text value).Legible key := hitem
      rw [Draft.add, hpath]
      exact h.document.insertAt hnode _ _
  | malformed => exact h

theorem Draft.Legible.step {draft : Draft} (h : draft.Legible) {line : Line} (hline : line.Legible) :
    (draft.step line).Legible := by
  cases line with
  | blank => exact ⟨h.document, by simp [Draft.step]⟩
  | stray => exact ⟨h.document, by simp [Draft.step]⟩
  | header key => exact ⟨h.document.openHeader hline, by simp [Draft.step]⟩
  | marked column item =>
      rw [Draft.step]
      split
      · exact h
      · rename_i hopened
        obtain ⟨first, rest, hfirst⟩ := List.exists_cons_of_ne_nil hopened
        have hzero : first.column = 0 := h.outermost first (by simp [hfirst])
        -- The outermost section is never closed by a marked line.
        have hclose : (draft.closeTo column).opened = first :: rest.takeWhile (·.column ≤ column) := by
          simp [Draft.closeTo, hfirst, hzero]
        have hclosed : (draft.closeTo column).Legible := ⟨h.document, by simpa [hclose] using hzero⟩
        exact hclosed.add (by simp [hclose]) hline

theorem Draft.Legible.foldl {lines : List Line} (h : ∀ line ∈ lines, line.Legible) {draft : Draft}
    (hdraft : draft.Legible) : (lines.foldl Draft.step draft).Legible := by
  induction lines generalizing draft with
  | nil => exact hdraft
  | cons line lines ih =>
      exact ih (fun other hother => h other (List.mem_cons_of_mem line hother))
        (hdraft.step (h line List.mem_cons_self))

theorem Document.legible_ofText (text : String) : (Document.ofText text).Legible := by
  have hempty : Draft.empty.Legible :=
    ⟨⟨List.nodup_nil, fun _ hentry => nomatch hentry⟩, fun _ hfirst => nomatch hfirst⟩
  refine (hempty.foldl fun line hline => ?_).document
  obtain ⟨source, hsource, rfl⟩ := List.mem_map.mp hline
  exact Line.legible_ofText (lineFeed_not_mem_of_mem_lines hsource)

end LayeredConfig
