import LayeredConfig.Proofs.Document.Listing

/-!
# Reading a text line by line

While a text is read, the sections that are open are those that the lines alone call open, and the document is
the one that the writings of the lines read so far unfold to. Every line keeps this.
-/

namespace LayeredConfig

open Text

namespace Listing

variable {listing : Listing} {n : Nat} {lines : List Nat} {draft : Draft}

/-! ## Writings in line order -/

theorem writings_succ_of_some {writing : Writing} (h : listing.writing? n = some writing) :
    listing.writings (n + 1) = listing.writings n ++ [writing] := by
  simp [writings, List.range_succ, List.filterMap_append, h]

theorem writings_succ_of_none (h : listing.writing? n = none) :
    listing.writings (n + 1) = listing.writings n := by
  simp [writings, List.range_succ, List.filterMap_append, h]

theorem parent?_lt {i parent : Nat} (h : listing.parent? i = some parent) : parent < i := by
  unfold parent? at h
  obtain ⟨j, hj, hparent⟩ := Option.map_eq_some_iff.mp h
  cases hlast : ((List.range i).filter fun h => decide (j < h) && listing.reaches h i).getLast? with
  | none =>
      rw [hlast, Option.getD_none] at hparent
      exact hparent ▸ (header?_eq_some_iff.mp hj).1
  | some inner =>
      rw [hlast, Option.getD_some] at hparent
      exact hparent ▸ (getLast?_filter_range_eq_some_iff.mp hlast).1

theorem writing?_owner_lt {i : Nat} {writing : Writing} (h : listing.writing? i = some writing) :
    ∀ owner ∈ writing.owner, owner < i := by
  unfold writing? at h
  split at h
  · split at h
    · cases h
    · rename_i parent hparent
      have hlt := parent?_lt hparent
      split at h
      · cases h
        simpa using hlt
      · obtain ⟨entry, _, rfl⟩ := Option.map_eq_some_iff.mp h
        simpa using hlt
  · split at h <;> cases h
    simp

theorem writing?_opened {i number : Nat} {writing : Writing} (h : listing.writing? i = some writing)
    (hcontent : writing.content = .opened number) : number = i := by
  unfold writing? at h
  split at h
  · split at h
    · cases h
    · split at h
      · cases h
        cases hcontent
        rfl
      · obtain ⟨entry, _, rfl⟩ := Option.map_eq_some_iff.mp h
        cases hcontent
  · split at h <;> cases h
    cases hcontent
    rfl

theorem ordered_writings (listing : Listing) (n : Nat) : Writing.Ordered (listing.writings n) := by
  intro writing hwriting number hnumber
  obtain ⟨i, _, hi⟩ := List.mem_filterMap.mp hwriting
  obtain rfl := writing?_opened hi hnumber
  refine ⟨writing?_owner_lt hi, fun other hother hsame => ?_⟩
  obtain ⟨k, _, hk⟩ := List.mem_filterMap.mp hother
  obtain rfl := writing?_opened hk hsame
  exact Option.some.inj (hk.symm.trans hi)

/-- Nothing is written into a section up to the line that opens it. -/
theorem entriesOf_writings_self (listing : Listing) (n : Nat) :
    Writing.entriesOf (listing.writings (n + 1)) (some n) = [] := by
  refine Writing.entriesOf_eq_nil fun writing hwriting howner => ?_
  obtain ⟨i, hi, hwriting⟩ := List.mem_filterMap.mp hwriting
  have hlt := writing?_owner_lt hwriting n howner
  have hin := List.mem_range.mp hi
  omega

/-! ## What every line keeps -/

/-- The key of the section that line `h` begins. -/
def key (listing : Listing) (h : Nat) : String :=
  if listing.isMarked h then sectionKey (listing.head h) else String.ofList (trim (listing.head h))

def openSection (listing : Listing) (h : Nat) : OpenSection := ⟨listing.key h, listing.floor h⟩

/-- The sections that `lines` begin, with their keys. -/
def stack (listing : Listing) (lines : List Nat) : List (Nat × String) :=
  lines.map fun h => (h, listing.key h)

/-- The draft has read the first `n` lines, and the sections that `lines` begin are open in it. -/
structure Follows (listing : Listing) (n : Nat) (lines : List Nat) (draft : Draft) : Prop where
  opened : draft.opened = lines.map listing.openSection
  nested : Writing.Nested (listing.writings n) none (listing.stack lines)
  document : Entries.Unfold (Writing.entriesOf (listing.writings n))
    (Writing.entriesOf (listing.writings n) none) draft.document

theorem innermost_stack (listing : Listing) (lines : List Nat) :
    Writing.innermost none (listing.stack lines) = lines.getLast? := by
  simp [Writing.innermost_eq, stack, List.getLast?_map, Function.comp_def]

theorem Follows.path (h : Follows listing n lines draft) :
    draft.path = (listing.stack lines).map Prod.snd := by
  simp [Draft.path, h.opened, openSection, stack]

theorem Follows.skip (h : Follows listing n lines draft) (hwriting : listing.writing? n = none) :
    Follows listing (n + 1) lines draft := by
  refine ⟨h.opened, ?_, ?_⟩
  · rw [writings_succ_of_none hwriting]
    exact h.nested
  · rw [writings_succ_of_none hwriting]
    exact h.document

theorem Follows.leaf {key value} (h : Follows listing n lines draft)
    (hwriting : listing.writing? n = some ⟨lines.getLast?, key, .text value⟩) :
    Follows listing (n + 1) lines
      { draft with document := draft.document.insertAt draft.path key (.text value) } := by
  have hordered := ordered_writings listing n
  have howner := (innermost_stack listing lines).symm
  refine ⟨h.opened, ?_, ?_⟩
  · rw [writings_succ_of_some hwriting]
    exact h.nested.write hordered howner
  · rw [writings_succ_of_some hwriting, h.path]
    exact Writing.unfold_write hordered h.nested howner h.document .text

theorem Follows.header (h : Follows listing n lines draft)
    (hwriting : listing.writing? n = some ⟨lines.getLast?, listing.key n, .opened n⟩) :
    Follows listing (n + 1) (lines ++ [n])
      { document := draft.document.insertAt draft.path (listing.key n) (.branch [])
        opened := draft.opened ++ [listing.openSection n] } := by
  have hordered := ordered_writings listing n
  have howner := (innermost_stack listing lines).symm
  refine ⟨by simp [h.opened], ?_, ?_⟩
  · rw [stack, List.map_append, writings_succ_of_some hwriting]
    refine (h.nested.write hordered howner).concat ?_
    rw [Writing.entriesOf_concat, if_pos howner]
    exact Entries.mem_insert_self _ _ _
  · have hnew : Content.Unfolds (Writing.entriesOf (listing.writings (n + 1))) (.opened n) (.branch []) := by
      refine .opened ?_
      rw [entriesOf_writings_self]
      exact .nil
    rw [writings_succ_of_some hwriting] at hnew ⊢
    rw [h.path]
    exact Writing.unfold_write hordered h.nested howner h.document hnew

/-! ## Reading a line -/

theorem takeWhile_eq_filter {α : Type} {p : α → Bool} {l : List α}
    (h : l.Pairwise fun x y => p y = true → p x = true) : l.takeWhile p = l.filter p := by
  induction l with
  | nil => rfl
  | cons x l ih =>
      obtain ⟨hx, hl⟩ := List.pairwise_cons.mp h
      cases hp : p x with
      | true => simp [hp, ih hl]
      | false =>
          have hnone : l.filter p = [] := by
            refine List.filter_eq_nil_iff.mpr fun y hy hpy => ?_
            rw [hx y hy hpy] at hp
            cases hp
          simp [hp, hnone]

theorem Follows.closeTo (h : Follows listing n (listing.opened n) draft)
    (hmarked : listing.isMarked n = true) :
    Follows listing n (listing.surviving n) (draft.closeTo (listing.column n)) := by
  have htake : listing.surviving n =
      (listing.opened n).takeWhile fun h => listing.floor h ≤ listing.column n := by
    rw [surviving_of_marked hmarked, takeWhile_eq_filter]
    refine (pairwise_floor_opened n).imp fun hlt hle => ?_
    simp only [decide_eq_true_eq] at hle ⊢
    omega
  refine ⟨?_, ?_, h.document⟩
  · rw [Draft.closeTo, h.opened, htake, List.takeWhile_map]
    rfl
  · obtain ⟨rest, hrest⟩ : listing.surviving n <+: listing.opened n := htake ▸ List.takeWhile_prefix _
    have hnested := h.nested
    rw [← hrest, stack, List.map_append] at hnested
    exact hnested.left

theorem Follows.close (h : Follows listing n lines draft) :
    Follows listing n [] { draft with opened := [] } :=
  ⟨rfl, .nil, h.document⟩

theorem Follows.step_unmarked (h : Follows listing n (listing.opened n) draft)
    (hmarked : listing.isMarked n = false) :
    Follows listing (n + 1) (listing.opened (n + 1)) (draft.step (Line.ofText (listing.line n))) := by
  have hstart : (trimStart (listing.line n)).head? ≠ some '-' := by simpa [isMarked] using hmarked
  rw [opened_succ, surviving_of_unmarked hmarked]
  cases hopening : listing.isOpening n with
  | true =>
      have hlast : (trim (listing.line n)).getLast? = some ':' := by simpa [isOpening] using hopening
      have hwriting : listing.writing? n = some ⟨none, listing.key n, .opened n⟩ := by
        simp [writing?, key, hmarked, hopening]
      have hkey : String.ofList (trim (trim (listing.line n)).dropLast) = listing.key n := by
        simp [key, hmarked, head]
      rw [Line.ofText_of_header hstart hlast, hkey]
      simpa [begins, hmarked, hopening, openSection, floor, Draft.path, Draft.step] using
        h.close.header hwriting
  | false =>
      have hlast : (trim (listing.line n)).getLast? ≠ some ':' := by simpa [isOpening] using hopening
      have hwriting : listing.writing? n = none := by simp [writing?, hmarked, hopening]
      rw [Draft.step_of_plain hstart hlast]
      simpa [begins, hopening] using h.close.skip hwriting

theorem Follows.step_outside (h : Follows listing n (listing.opened n) draft)
    (hmarked : listing.isMarked n = true) (hheader : listing.header? n = none) (item : Item) :
    Follows listing (n + 1) (listing.opened (n + 1)) (draft.step (.marked (listing.column n) item)) := by
  have hnone : listing.opened n = [] := by
    refine List.filter_eq_nil_iff.mpr fun outer houter hopen => ?_
    obtain ⟨j, _, hj⟩ := exists_header?_of_isOpen (List.mem_range.mp houter) hopen
    rw [hheader] at hj
    cases hj
  have hnext : listing.opened (n + 1) = [] := by
    rw [opened_succ, surviving_of_marked hmarked, hnone]
    simp [begins, hmarked, hheader]
  have hwriting : listing.writing? n = none := by simp [writing?, hmarked, parent?, hheader]
  have hopened : draft.opened = [] := by rw [h.opened, hnone, List.map_nil]
  rw [hnone] at h
  rw [hnext, Draft.step, if_pos hopened]
  exact h.skip hwriting

theorem Follows.opened_ne_nil {j : Nat} (h : Follows listing n (listing.opened n) draft)
    (hheader : listing.header? n = some j) : draft.opened ≠ [] := by
  have hmem : j ∈ listing.opened n := by
    refine List.mem_filter.mpr ⟨List.mem_range.mpr (header?_eq_some_iff.mp hheader).1, ?_⟩
    exact isOpen_of_header? hheader
  rw [h.opened]
  exact List.ne_nil_of_mem (List.mem_map_of_mem hmem)

/-- A marked line inside a section writes into the innermost section that it leaves open. -/
theorem Follows.step_inside {j : Nat} (h : Follows listing n (listing.opened n) draft)
    (hmarked : listing.isMarked n = true) (hheader : listing.header? n = some j) :
    Follows listing (n + 1) (listing.opened (n + 1))
      (draft.step (.marked (listing.column n) (.ofText (trim (listing.line n))))) := by
  have hparent := parent?_eq_getLast?_surviving hmarked
  obtain ⟨parent, hsome⟩ : ∃ parent, listing.parent? n = some parent := by
    rw [parent?, hheader]
    exact ⟨_, rfl⟩
  rw [hsome] at hparent
  have hclosed := h.closeTo hmarked
  rw [opened_succ, Draft.step, if_neg (h.opened_ne_nil hheader)]
  cases hopening : listing.isOpening n with
  | true =>
      have hlast : (trim (listing.line n)).getLast? = some ':' := by simpa [isOpening] using hopening
      have hwriting : listing.writing? n =
          some ⟨(listing.surviving n).getLast?, listing.key n, .opened n⟩ := by
        simp [writing?, key, hmarked, hsome, hopening, ← hparent]
      have hitem : Item.ofText (trim (listing.line n)) = .header (listing.key n) := by
        simp [Item.ofText, headerText?, hlast, key, hmarked, head]
      rw [hitem]
      simpa [begins, hopening, hheader, Draft.add, openSection, floor, hmarked] using
        hclosed.header hwriting
  | false =>
      have hlast : (trim (listing.line n)).getLast? ≠ some ':' := by simpa [isOpening] using hopening
      have hbegins : listing.begins n = false := by simp [begins, hopening]
      simp only [hbegins, Bool.false_eq_true, if_false, List.append_nil, Item.ofText, headerText?, hlast]
      cases hleaf : leaf? (trim (listing.line n)) with
      | none =>
          have hwriting : listing.writing? n = none := by simp [writing?, hmarked, hsome, hopening, hleaf]
          exact hclosed.skip hwriting
      | some entry =>
          have hwriting : listing.writing? n =
              some ⟨(listing.surviving n).getLast?, entry.1, .text entry.2⟩ := by
            simp [writing?, hmarked, hsome, hopening, hleaf, ← hparent]
          exact hclosed.leaf hwriting

theorem Follows.step (h : Follows listing n (listing.opened n) draft) :
    Follows listing (n + 1) (listing.opened (n + 1)) (draft.step (Line.ofText (listing.line n))) := by
  cases hmarked : listing.isMarked n with
  | false => exact h.step_unmarked hmarked
  | true =>
      have hstart : (trimStart (listing.line n)).head? = some '-' := by simpa [isMarked] using hmarked
      rw [Line.ofText_of_marked hstart, ← column]
      cases hheader : listing.header? n with
      | none => exact h.step_outside hmarked hheader _
      | some j => exact h.step_inside hmarked hheader

theorem follows_foldl (listing : Listing) (n : Nat) (hn : n ≤ listing.length) :
    Follows listing n (listing.opened n) (((listing.take n).map Line.ofText).foldl Draft.step .empty) := by
  induction n with
  | zero => exact ⟨rfl, .nil, .nil⟩
  | succ n ih =>
      have hline : listing[n]? = some (listing.line n) := by
        simp [line, List.getElem?_eq_getElem (Nat.lt_of_succ_le hn)]
      rw [List.take_add_one, hline, Option.toList_some, List.map_append, List.foldl_append]
      exact (ih (Nat.le_of_succ_le hn)).step

end Listing

/-- A configuration text is read as the one document that its lines describe. -/
theorem Document.ofText_eq_iff_describes (text : String) (document : Document) :
    Document.ofText text = document ↔ Listing.Describes (lines text.toList) document := by
  have h := (Listing.follows_foldl (lines text.toList) _ (Nat.le_refl _)).document
  rw [List.take_length] at h
  constructor
  · rintro rfl
    exact h
  · exact h.unique

end LayeredConfig
