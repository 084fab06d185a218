/-!
# Cutting a text at a mark

Cutting at the first place where a mark stands, cutting at all such places from left to right, and
putting another text where a mark stood. Places do not overlap.
-/

namespace LayeredConfig.Text

/-! ## One character as the mark -/

/-- The parts before and after the first `mark`. -/
def cutAtChar (mark : Char) : List Char → Option (List Char × List Char)
  | [] => none
  | c :: rest =>
    if c = mark then some ([], rest)
    else (cutAtChar mark rest).map fun parts => (c :: parts.1, parts.2)

/-- The parts between the places where `mark` stands; one more than there are such places. -/
def splitAtChar (mark : Char) : List Char → List (List Char)
  | [] => [[]]
  | c :: rest =>
    if c = mark then [] :: splitAtChar mark rest
    else
      match splitAtChar mark rest with
      | [] => [[c]]
      | part :: parts => (c :: part) :: parts

theorem cutAtChar_eq_some {mark : Char} {cs before after : List Char}
    (h : cutAtChar mark cs = some (before, after)) : cs = before ++ mark :: after := by
  induction cs generalizing before with
  | nil => simp [cutAtChar] at h
  | cons c rest ih =>
    by_cases hc : c = mark
    · simp_all [cutAtChar]
    · simp only [cutAtChar, hc, if_false, Option.map_eq_some_iff, Prod.exists, Prod.mk.injEq] at h
      obtain ⟨before', after', hcut, rfl, rfl⟩ := h
      simp [ih hcut]

/-! ## A text as the mark -/

/-- What follows `mark`, if the text starts with it. -/
def dropMark : (mark cs : List Char) → Option (List Char)
  | [], cs => some cs
  | _ :: _, [] => none
  | m :: mark, c :: cs => if m = c then dropMark mark cs else none

theorem dropMark_eq_some_iff {mark cs after : List Char} :
    dropMark mark cs = some after ↔ cs = mark ++ after := by
  induction mark generalizing cs with
  | nil => simp [dropMark]
  | cons m mark ih =>
    cases cs with
    | nil => simp [dropMark]
    | cons c cs => by_cases h : m = c <;> simp_all [dropMark, eq_comm]

/-- The parts before and after the first place where `mark` stands. -/
def cutAt (mark : List Char) : List Char → Option (List Char × List Char)
  | [] => if mark = [] then some ([], []) else none
  | c :: rest =>
    match dropMark mark (c :: rest) with
    | some after => some ([], after)
    | none => (cutAt mark rest).map fun parts => (c :: parts.1, parts.2)

theorem cutAt_eq_some {mark cs before after : List Char}
    (h : cutAt mark cs = some (before, after)) : cs = before ++ mark ++ after := by
  induction cs generalizing before with
  | nil => simp only [cutAt] at h; split at h <;> simp_all
  | cons c rest ih =>
    simp only [cutAt] at h
    split at h
    · rename_i tail htail
      simp only [Option.some.injEq, Prod.mk.injEq] at h
      obtain ⟨rfl, rfl⟩ := h
      simpa using dropMark_eq_some_iff.mp htail
    · simp only [Option.map_eq_some_iff, Prod.exists, Prod.mk.injEq] at h
      obtain ⟨before', after', hcut, rfl, rfl⟩ := h
      simp [ih hcut]

theorem length_of_cutAt {mark cs before after : List Char} (hmark : mark ≠ [])
    (h : cutAt mark cs = some (before, after)) : after.length < cs.length := by
  have hlength := congrArg List.length (cutAt_eq_some h)
  have hpos := List.length_pos_iff.mpr hmark
  simp only [List.length_append] at hlength
  omega

/-- The parts between the places where `mark` stands. An empty mark cuts nowhere. -/
def splitAt (mark cs : List Char) : List (List Char) :=
  if hmark : mark = [] then [cs]
  else
    match h : cutAt mark cs with
    | none => [cs]
    | some (before, after) =>
      have := length_of_cutAt hmark h
      before :: splitAt mark after
termination_by cs.length

/-- The text with `new` in every place where `mark` stands. -/
def replaceAll (mark new cs : List Char) : List Char := new.intercalate (splitAt mark cs)

end LayeredConfig.Text
