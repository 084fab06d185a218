import LayeredConfig.Proofs.Document.Line
import LayeredConfig.Proofs.Document.Writing

/-!
# Documents by the numbers of their lines

What every line of a text writes, and into which section, told from the lines alone: a marked line belongs to
the nearest marked header before it that is further left than all lines since then, and to the top-level header
of its run if there is none. Main statement: reading a text line by line with the sections that are open gives
the document that these writings unfold to.
-/

namespace LayeredConfig

open Text

/-- The lines of a text, which are numbered from 0. -/
abbrev Listing := List (List Char)

namespace Listing

variable (listing : Listing)

def line (i : Nat) : List Char := (listing[i]?).getD []

/-- The first character of line `i` that is no blank is the marker. -/
def isMarked (i : Nat) : Bool := (trimStart (listing.line i)).head? = some '-'

/-- The number of blanks that line `i` starts with. -/
def column (i : Nat) : Nat := ((listing.line i).takeWhile isBlank).length

/-- Line `i` ends with a colon, apart from blanks. -/
def isOpening (i : Nat) : Bool := (trim (listing.line i)).getLast? = some ':'

/-- What stands in front of the colon that ends line `i`. -/
def head (i : Nat) : List Char := (trim (listing.line i)).dropLast

/-- Line `i` is the header of a top-level section. -/
def isHeader (i : Nat) : Bool := !listing.isMarked i && listing.isOpening i

/-- The nearest line before line `i` that is not marked, if that is a header. -/
def header? (i : Nat) : Option Nat :=
  (((List.range i).filter fun j => !listing.isMarked j).getLast?).filter listing.isHeader

/-- Line `h` opens a section and is further left than all lines after it up to line `i`. -/
def reaches (h i : Nat) : Bool :=
  listing.isOpening h && decide (∀ k < i + 1, h < k → listing.column h < listing.column k)

/-- The line that opens the section to which the marked line `i` belongs. -/
def parent? (i : Nat) : Option Nat :=
  (listing.header? i).map fun j =>
    (((List.range i).filter fun h => j < h && listing.reaches h i).getLast?).getD j

/-- What line `i` writes. -/
def writing? (i : Nat) : Option Writing :=
  if listing.isMarked i then
    match listing.parent? i with
    | none => none
    | some parent =>
      if listing.isOpening i then some ⟨some parent, sectionKey (listing.head i), .opened i⟩
      else
        (leaf? (trim (listing.line i))).map fun entry => ⟨some parent, entry.1, .text entry.2⟩
  else if listing.isOpening i then some ⟨none, String.ofList (trim (listing.head i)), .opened i⟩
  else none

/-- What the first `n` lines write, in their order. -/
def writings (n : Nat) : List Writing := (List.range n).filterMap listing.writing?

/-- The document is what all lines together write. -/
def Describes (document : Document) : Prop :=
  let entriesOf := Writing.entriesOf (listing.writings listing.length)
  Entries.Unfold entriesOf (entriesOf none) document

/-! ## The sections that are open -/

/-- Line `h` begins a section that is part of the document. -/
def begins (h : Nat) : Bool := listing.isOpening h && (!listing.isMarked h || (listing.header? h).isSome)

/-- The column from which on marked lines belong to the section that line `h` begins. -/
def floor (h : Nat) : Nat := if listing.isMarked h then listing.column h + 1 else 0

/-- The section that line `h` begins is open in front of line `n`. -/
def isOpen (n h : Nat) : Bool :=
  listing.begins h && decide (∀ k < n, h < k → listing.isMarked k ∧ listing.floor h ≤ listing.column k)

/-- The lines whose sections are open in front of line `n`, outermost first. -/
def opened (n : Nat) : List Nat := (List.range n).filter (listing.isOpen n)

/-- Those whose sections line `n` leaves open. -/
def surviving (n : Nat) : List Nat := (List.range n).filter (listing.isOpen (n + 1))

variable {listing}

theorem getLast?_filter_range_eq_some_iff {p : Nat → Bool} {n h : Nat} :
    ((List.range n).filter p).getLast? = some h ↔
      h < n ∧ p h = true ∧ ∀ k, h < k → k < n → p k = false := by
  induction n with
  | zero => simp
  | succ n ih =>
      rw [List.range_succ, List.filter_append]
      cases hp : p n with
      | true =>
          simp only [List.filter_cons, hp, if_true, List.filter_nil, List.getLast?_concat,
            Option.some.injEq]
          constructor
          · rintro rfl
            exact ⟨Nat.lt_succ_self n, hp, fun k hk hkn => by omega⟩
          · rintro ⟨hlt, _, hlater⟩
            rcases Nat.lt_succ_iff_lt_or_eq.mp hlt with hh | rfl
            · have hfalse := hlater n hh (Nat.lt_succ_self n)
              rw [hp] at hfalse
              cases hfalse
            · rfl
      | false =>
          simp only [List.filter_cons, hp, Bool.false_eq_true, if_false, List.filter_nil,
            List.append_nil, ih]
          constructor
          · rintro ⟨hlt, hh, hlater⟩
            refine ⟨Nat.lt_succ_of_lt hlt, hh, fun k hk hkn => ?_⟩
            rcases Nat.lt_succ_iff_lt_or_eq.mp hkn with hkn | rfl
            · exact hlater k hk hkn
            · exact hp
          · rintro ⟨hlt, hh, hlater⟩
            have hne : h ≠ n := by
              rintro rfl
              rw [hp] at hh
              cases hh
            exact ⟨by omega, hh, fun k hk hkn => hlater k hk (Nat.lt_succ_of_lt hkn)⟩

theorem header?_eq_some_iff {i j : Nat} :
    listing.header? i = some j ↔
      j < i ∧ listing.isHeader j = true ∧ ∀ k, j < k → k < i → listing.isMarked k = true := by
  simp only [header?, Option.filter_eq_some_iff, getLast?_filter_range_eq_some_iff, Bool.not_eq_true',
    Bool.not_eq_false']
  constructor
  · rintro ⟨⟨hlt, _, hlater⟩, hj⟩
    exact ⟨hlt, hj, hlater⟩
  · rintro ⟨hlt, hj, hlater⟩
    have hmarked : listing.isMarked j = false := by
      simp only [isHeader, Bool.and_eq_true, Bool.not_eq_true'] at hj
      exact hj.1
    exact ⟨⟨hlt, hmarked, hlater⟩, hj⟩

theorem header?_succ {i j : Nat} (h : listing.header? i = some j) (hmarked : listing.isMarked i = true) :
    listing.header? (i + 1) = some j := by
  obtain ⟨hlt, hj, hrun⟩ := header?_eq_some_iff.mp h
  refine header?_eq_some_iff.mpr ⟨Nat.lt_succ_of_lt hlt, hj, fun k hk hki => ?_⟩
  rcases Nat.lt_succ_iff_lt_or_eq.mp hki with hki | rfl
  · exact hrun k hk hki
  · exact hmarked

theorem isOpen_eq_true_iff {n h : Nat} :
    listing.isOpen n h = true ↔ listing.begins h = true ∧
      ∀ k, h < k → k < n → listing.isMarked k = true ∧ listing.floor h ≤ listing.column k := by
  simp only [isOpen, Bool.and_eq_true, decide_eq_true_eq]
  constructor
  · rintro ⟨hh, hlater⟩
    exact ⟨hh, fun k hk hkn => hlater k hkn hk⟩
  · rintro ⟨hh, hlater⟩
    exact ⟨hh, fun k hkn hk => hlater k hk hkn⟩

theorem isOpen_of_header? {n j : Nat} (h : listing.header? n = some j) : listing.isOpen n j = true := by
  obtain ⟨_, hj, hlater⟩ := header?_eq_some_iff.mp h
  simp only [isHeader, Bool.and_eq_true, Bool.not_eq_true'] at hj
  refine isOpen_eq_true_iff.mpr ⟨by simp [begins, hj], fun k hk hkn => ⟨hlater k hk hkn, ?_⟩⟩
  simp [floor, hj.1]

/-- An open section is in the run of the header that it lies under. -/
theorem exists_header?_of_isOpen {n h : Nat} (hlt : h < n) (hopen : listing.isOpen n h = true) :
    ∃ j ≤ h, listing.header? n = some j := by
  obtain ⟨hbegins, hlater⟩ := isOpen_eq_true_iff.mp hopen
  simp only [begins, Bool.and_eq_true, Bool.or_eq_true, Bool.not_eq_true'] at hbegins
  cases hmarked : listing.isMarked h with
  | false =>
      refine ⟨h, Nat.le_refl h, header?_eq_some_iff.mpr ⟨hlt, ?_, fun k hk hkn => (hlater k hk hkn).1⟩⟩
      simp [isHeader, hmarked, hbegins.1]
  | true =>
      have hsome := hbegins.2.resolve_left (by simp [hmarked])
      obtain ⟨j, hj⟩ := Option.isSome_iff_exists.mp hsome
      obtain ⟨hjh, hheader, hrun⟩ := header?_eq_some_iff.mp hj
      refine ⟨j, Nat.le_of_lt hjh, header?_eq_some_iff.mpr ⟨by omega, hheader, fun k hk hkn => ?_⟩⟩
      rcases Nat.lt_trichotomy k h with hlth | rfl | hgt
      · exact hrun k hk hlth
      · exact hmarked
      · exact (hlater k hgt hkn).1

theorem isOpen_succ {n h : Nat} (hlt : h < n) (hmarked : listing.isMarked n = true) :
    listing.isOpen (n + 1) h = (listing.isOpen n h && decide (listing.floor h ≤ listing.column n)) := by
  rw [Bool.eq_iff_iff]
  simp only [Bool.and_eq_true, isOpen_eq_true_iff, decide_eq_true_eq]
  constructor
  · rintro ⟨hbegins, hlater⟩
    exact ⟨⟨hbegins, fun k hk hkn => hlater k hk (Nat.lt_succ_of_lt hkn)⟩,
      (hlater n hlt (Nat.lt_succ_self n)).2⟩
  · rintro ⟨⟨hbegins, hlater⟩, hfloor⟩
    refine ⟨hbegins, fun k hk hkn => ?_⟩
    rcases Nat.lt_succ_iff_lt_or_eq.mp hkn with hkn | rfl
    · exact hlater k hk hkn
    · exact ⟨hmarked, hfloor⟩

theorem opened_succ (n : Nat) :
    listing.opened (n + 1) = listing.surviving n ++ if listing.begins n then [n] else [] := by
  have hself : listing.isOpen (n + 1) n = listing.begins n := by
    rw [Bool.eq_iff_iff, isOpen_eq_true_iff]
    exact ⟨fun h => h.1, fun h => ⟨h, fun k hk hkn => by omega⟩⟩
  simp only [opened, surviving, List.range_succ, List.filter_append, List.filter_cons, hself,
    List.filter_nil]

theorem surviving_of_marked {n : Nat} (hmarked : listing.isMarked n = true) :
    listing.surviving n = (listing.opened n).filter fun h => listing.floor h ≤ listing.column n := by
  simp only [surviving, opened, List.filter_filter]
  refine List.filter_congr fun h hh => ?_
  rw [isOpen_succ (List.mem_range.mp hh) hmarked, Bool.and_comm]

theorem surviving_of_unmarked {n : Nat} (hmarked : listing.isMarked n = false) :
    listing.surviving n = [] := by
  refine List.filter_eq_nil_iff.mpr fun h hh hopen => ?_
  have hn := (isOpen_eq_true_iff.mp hopen).2 n (List.mem_range.mp hh) (Nat.lt_succ_self n)
  rw [hmarked] at hn
  cases hn.1

theorem pairwise_floor_opened (n : Nat) :
    (listing.opened n).Pairwise fun outer inner => listing.floor outer < listing.floor inner := by
  have hrange : (listing.opened n).Pairwise (· < ·) := List.pairwise_lt_range.filter _
  refine hrange.imp_of_mem fun {outer inner} houter hinner hlt => ?_
  simp only [opened, List.mem_filter, List.mem_range] at houter hinner
  have hbetween := (isOpen_eq_true_iff.mp houter.2).2 inner hlt hinner.1
  simp only [floor, hbetween.1, if_true] at hbetween ⊢
  exact Nat.lt_succ_of_le hbetween.2

/-! ## The section that a line belongs to -/

/-- Below the header of a run, a marked line belongs to the sections that reach to it. -/
theorem isOpen_succ_eq_reaches {n h j : Nat} (hheader : listing.header? n = some j) (hjh : j < h)
    (hlt : h < n) (hmarked : listing.isMarked n = true) :
    listing.isOpen (n + 1) h = listing.reaches h n := by
  obtain ⟨_, hj, hrun⟩ := header?_eq_some_iff.mp hheader
  have hh := hrun h hjh hlt
  have hrunh : listing.header? h = some j :=
    header?_eq_some_iff.mpr ⟨hjh, hj, fun k hk hkh => hrun k hk (Nat.lt_trans hkh hlt)⟩
  have hbegins : listing.begins h = listing.isOpening h := by simp [begins, hrunh]
  have hallMarked : ∀ k, h < k → k < n + 1 → listing.isMarked k = true := by
    intro k hk hkn
    rcases Nat.lt_succ_iff_lt_or_eq.mp hkn with hkn | rfl
    · exact hrun k (Nat.lt_trans hjh hk) hkn
    · exact hmarked
  rw [Bool.eq_iff_iff]
  simp only [isOpen_eq_true_iff, reaches, hbegins, floor, hh, if_true, Bool.and_eq_true,
    decide_eq_true_eq]
  constructor
  · rintro ⟨hopening, hlater⟩
    exact ⟨hopening, fun k hkn hk => (hlater k hk hkn).2⟩
  · rintro ⟨hopening, hlater⟩
    exact ⟨hopening, fun k hk hkn => ⟨hallMarked k hk hkn, hlater k hkn hk⟩⟩

theorem parent?_eq_getLast?_surviving {n : Nat} (hmarked : listing.isMarked n = true) :
    listing.parent? n = (listing.surviving n).getLast? := by
  cases hheader : listing.header? n with
  | none =>
      have hnil : listing.surviving n = [] := by
        refine List.filter_eq_nil_iff.mpr fun h hh hopen => ?_
        have hlt := List.mem_range.mp hh
        rw [isOpen_succ hlt hmarked, Bool.and_eq_true] at hopen
        obtain ⟨j, _, hj⟩ := exists_header?_of_isOpen hlt hopen.1
        rw [hheader] at hj
        cases hj
      simp [parent?, hheader, hnil]
  | some j =>
      have hreaches := fun h => @isOpen_succ_eq_reaches listing n h j hheader
      simp only [parent?, hheader, Option.map_some]
      symm
      cases hlast : ((List.range n).filter fun h => decide (j < h) && listing.reaches h n).getLast? with
      | some h =>
          obtain ⟨hlt, hh, hlater⟩ := getLast?_filter_range_eq_some_iff.mp hlast
          simp only [Bool.and_eq_true, decide_eq_true_eq] at hh
          rw [Option.getD_some]
          refine getLast?_filter_range_eq_some_iff.mpr ⟨hlt, ?_, fun k hk hkn => ?_⟩
          · rw [hreaches h hh.1 hlt hmarked]
            exact hh.2
          · rw [hreaches k (Nat.lt_trans hh.1 hk) hkn hmarked]
            simpa [Nat.lt_trans hh.1 hk] using hlater k hk hkn
      | none =>
          have hnone := List.filter_eq_nil_iff.mp (List.getLast?_eq_none_iff.mp hlast)
          have hopen := isOpen_of_header? (header?_succ hheader hmarked)
          rw [Option.getD_none]
          refine getLast?_filter_range_eq_some_iff.mpr
            ⟨(header?_eq_some_iff.mp hheader).1, hopen, fun k hk hkn => ?_⟩
          rw [hreaches k hk hkn hmarked]
          simpa [hk] using hnone k (List.mem_range.mpr hkn)

end Listing

end LayeredConfig
