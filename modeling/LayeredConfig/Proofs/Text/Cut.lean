import LayeredConfig.Text.Split

/-!
# Cutting at marks

A text is cut at the first place of the mark and nowhere else: the part before it is free of the mark. Where marks are put
between words, they are the places that are found from left to right, if no mark begins within a word. Replacing puts
another text in these places.
-/

namespace LayeredConfig.Text

theorem cutAtChar_eq_none_iff {mark : Char} {cs : List Char} : cutAtChar mark cs = none ↔ mark ∉ cs := by
  induction cs with
  | nil => simp [cutAtChar]
  | cons c rest ih =>
      by_cases h : c = mark
      · simp [cutAtChar, h]
      · simp [cutAtChar, h, ih, Ne.symm h]

theorem cutAtChar_append {mark : Char} {before : List Char} (h : mark ∉ before) (after : List Char) :
    cutAtChar mark (before ++ mark :: after) = some (before, after) := by
  induction before with
  | nil => simp [cutAtChar]
  | cons c rest ih =>
      simp only [List.mem_cons, not_or] at h
      simp [cutAtChar, Ne.symm h.1, ih h.2]

theorem cutAtChar_eq_some_iff {mark : Char} {cs before after : List Char} :
    cutAtChar mark cs = some (before, after) ↔ cs = before ++ mark :: after ∧ mark ∉ before := by
  constructor
  · intro h
    refine ⟨cutAtChar_eq_some h, ?_⟩
    induction cs generalizing before with
    | nil => simp [cutAtChar] at h
    | cons c rest ih =>
        by_cases hc : c = mark
        · simp only [cutAtChar, hc, if_true, Option.some.injEq, Prod.mk.injEq] at h
          obtain ⟨rfl, rfl⟩ := h
          exact List.not_mem_nil
        · simp only [cutAtChar, hc, if_false, Option.map_eq_some_iff, Prod.exists, Prod.mk.injEq] at h
          obtain ⟨before, after, hrest, rfl, rfl⟩ := h
          simp [ih hrest, Ne.symm hc]
  · rintro ⟨rfl, h⟩
    exact cutAtChar_append h after

/-! ## A text as the mark -/

theorem dropMark_eq_none_iff {mark cs : List Char} : dropMark mark cs = none ↔ ¬ mark <+: cs := by
  simp only [Option.eq_none_iff_forall_ne_some, ne_eq, dropMark_eq_some_iff, List.IsPrefix, not_exists, eq_comm (a := cs)]

theorem cutAt_eq_none_iff {mark cs : List Char} : cutAt mark cs = none ↔ ¬ mark <:+: cs := by
  induction cs with
  | nil => by_cases h : mark = [] <;> simp [cutAt, h]
  | cons c rest ih =>
      rw [cutAt, List.infix_cons_iff, not_or, ← dropMark_eq_none_iff, ← ih]
      cases dropMark mark (c :: rest) <;> simp

/-- Before the first mark there is none. -/
theorem not_infix_of_cutAt {mark cs before after : List Char} (hmark : mark ≠ [])
    (h : cutAt mark cs = some (before, after)) : ¬ mark <:+: before := by
  induction cs generalizing before with
  | nil => simp [cutAt, hmark] at h
  | cons c rest ih =>
      rw [cutAt] at h
      cases hdrop : dropMark mark (c :: rest) with
      | some tail =>
          rw [hdrop] at h
          obtain ⟨rfl, rfl⟩ := Prod.mk.inj (Option.some.inj h)
          simpa using hmark
      | none =>
          rw [hdrop] at h
          obtain ⟨⟨before, after⟩, hrest, heq⟩ := Option.map_eq_some_iff.mp h
          obtain ⟨rfl, rfl⟩ := Prod.mk.inj heq
          rw [List.infix_cons_iff, not_or]
          refine ⟨?_, ih hrest⟩
          rintro ⟨tail, htail⟩
          have hwhole : c :: rest = mark ++ (tail ++ mark ++ after) := by
            rw [cutAt_eq_some hrest, ← List.append_assoc, ← List.append_assoc, htail]
            simp
          exact dropMark_eq_none_iff.mp hdrop ⟨_, hwhole.symm⟩

/-- The text is cut where the mark is put, if the mark stands nowhere further in front. -/
theorem cutAt_append {mark before after : List Char}
    (h : ∀ tail, tail ≠ [] → tail <:+ before → ¬ mark <+: tail ++ mark ++ after) :
    cutAt mark (before ++ mark ++ after) = some (before, after) := by
  induction before with
  | nil =>
      cases hcs : mark ++ after with
      | nil => simp_all [cutAt]
      | cons c rest =>
          have hdrop : dropMark mark (c :: rest) = some after := dropMark_eq_some_iff.mpr hcs.symm
          rw [List.nil_append, hcs, cutAt, hdrop]
  | cons c before ih =>
      have hstart := dropMark_eq_none_iff.mpr (h (c :: before) (List.cons_ne_nil c before) (List.suffix_refl _))
      have hrest := ih fun tail hne htail => h tail hne (htail.trans (List.suffix_cons c before))
      rw [List.cons_append, List.cons_append] at hstart ⊢
      rw [cutAt, hstart, hrest]
      rfl

/-- A mark that has its first character only once does not reach into what stands before it. -/
theorem cutAt_append_of_not_infix {first : Char} {mark before : List Char} (hfirst : first ∉ mark)
    (h : ¬ first :: mark <:+: before) (after : List Char) :
    cutAt (first :: mark) (before ++ first :: mark ++ after) = some (before, after) := by
  refine cutAt_append fun tail htail hbefore hstart => ?_
  rw [List.append_assoc] at hstart
  rcases List.prefix_or_prefix_of_prefix hstart (List.prefix_append tail _) with hshort | hlong
  · exact h (hshort.isInfix.trans hbefore.isInfix)
  · -- The mark would go on behind the tail, where it starts anew.
    obtain ⟨rest, hrest⟩ := hlong
    have hnext : rest <+: first :: mark ++ after := by rwa [← List.prefix_append_right_inj tail, hrest]
    obtain ⟨c, tail, rfl⟩ := List.exists_cons_of_ne_nil htail
    obtain ⟨rfl, rfl⟩ := List.cons.inj hrest
    cases rest with
    | nil => exact h (by simpa using hbefore.isInfix)
    | cons d rest =>
        obtain ⟨rfl, -⟩ := List.cons_prefix_cons.mp hnext
        exact hfirst (List.mem_append_right tail List.mem_cons_self)

/-- Neither does a mark whose first character is not there at all, however often it has that character itself. -/
theorem cutAt_append_of_not_mem {first : Char} {mark before : List Char} (h : first ∉ before) (after : List Char) :
    cutAt (first :: mark) (before ++ first :: mark ++ after) = some (before, after) := by
  refine cutAt_append fun tail htail hbefore hstart => ?_
  obtain ⟨c, tail, rfl⟩ := List.exists_cons_of_ne_nil htail
  obtain ⟨rfl, -⟩ := List.cons_prefix_cons.mp hstart
  exact h (hbefore.subset List.mem_cons_self)

/-! ## All marks -/

theorem splitAt_of_cutAt {mark cs before after : List Char} (hmark : mark ≠ [])
    (h : cutAt mark cs = some (before, after)) : splitAt mark cs = before :: splitAt mark after := by
  rw [splitAt, dif_neg hmark]
  split
  · rename_i hnone
    rw [hnone] at h
    cases h
  · rename_i hcut
    rw [hcut] at h
    cases h
    rfl

theorem splitAt_of_not_infix {mark cs : List Char} (h : ¬ mark <:+: cs) : splitAt mark cs = [cs] := by
  have hnone := cutAt_eq_none_iff.mpr h
  rw [splitAt]
  split
  · rfl
  · split
    · rfl
    · rename_i hcut
      rw [hnone] at hcut
      cases hcut

/-- Words come back from a text that has marks between them, if the first mark behind each of them is found there: what is
cut first is the mark after the word, and the rest starts with a word again. -/
theorem splitAt_intercalate_of_cutAt {mark : List Char} {words : List (List Char)} (hmark : mark ≠ []) (hwords : words ≠ [])
    (hfree : ∀ word ∈ words, ¬ mark <:+: word)
    (hcut : ∀ word ∈ words, ∀ after, cutAt mark (word ++ mark ++ after) = some (word, after)) :
    splitAt mark (mark.intercalate words) = words := by
  induction words with
  | nil => exact absurd rfl hwords
  | cons word words ih =>
      obtain ⟨hword, hfree⟩ := List.forall_mem_cons.mp hfree
      obtain ⟨hfirst, hcut⟩ := List.forall_mem_cons.mp hcut
      cases words with
      | nil => rw [List.intercalate_singleton, splitAt_of_not_infix hword]
      | cons next words =>
          rw [List.intercalate_cons_cons, splitAt_of_cutAt hmark (hfirst _), ih (List.cons_ne_nil next words) hfree hcut]

/-- So it is with words that lack the first character of the mark. -/
theorem splitAt_intercalate {first : Char} {mark : List Char} {words : List (List Char)} (hwords : words ≠ [])
    (h : ∀ word ∈ words, first ∉ word) : splitAt (first :: mark) ((first :: mark).intercalate words) = words :=
  splitAt_intercalate_of_cutAt (List.cons_ne_nil first mark) hwords
    (fun word hword hmark => h word hword (hmark.subset List.mem_cons_self))
    fun word hword => cutAt_append_of_not_mem (h word hword)

theorem splitAt_ne_nil (mark cs : List Char) : splitAt mark cs ≠ [] := by
  rw [splitAt]
  split
  · exact List.cons_ne_nil _ _
  · split <;> exact List.cons_ne_nil _ _

/-- Cutting loses nothing but the marks. -/
theorem intercalate_splitAt (mark cs : List Char) : mark.intercalate (splitAt mark cs) = cs := by
  fun_induction splitAt mark cs with
  | case1 cs => exact List.intercalate_singleton
  | case2 cs hmark hnone => exact List.intercalate_singleton
  | case3 cs hmark before after hcut hlt ih =>
      rw [List.intercalate_cons_of_ne_nil (splitAt_ne_nil mark after), ih, ← cutAt_eq_some hcut]

theorem not_infix_of_mem_splitAt {mark cs part : List Char} (hmark : mark ≠ []) (h : part ∈ splitAt mark cs) :
    ¬ mark <:+: part := by
  fun_induction splitAt mark cs with
  | case1 cs hnil => exact absurd hnil hmark
  | case2 cs _ hnone =>
      obtain rfl := List.mem_singleton.mp h
      exact cutAt_eq_none_iff.mp hnone
  | case3 cs _ before after hcut hlt ih =>
      rcases List.mem_cons.mp h with rfl | hlater
      · exact not_infix_of_cutAt hmark hcut
      · exact ih hlater

/-! ## Replacing -/

/-- A text with `new` in all places of the mark: between these places, no mark is left. -/
def Replaces (mark new before after : List Char) : Prop :=
  ∃ parts : List (List Char), parts ≠ [] ∧ (∀ part ∈ parts, ¬ mark <:+: part) ∧
    before = mark.intercalate parts ∧ after = new.intercalate parts

theorem replaces_replaceAll {mark : List Char} (hmark : mark ≠ []) (new cs : List Char) :
    Replaces mark new cs (replaceAll mark new cs) :=
  ⟨splitAt mark cs, splitAt_ne_nil mark cs, fun _ => not_infix_of_mem_splitAt hmark,
    (intercalate_splitAt mark cs).symm, rfl⟩

/-- The places of a mark that has its first character only once cannot be chosen in two ways. -/
theorem replaces_iff {first : Char} {mark new before after : List Char} (hfirst : first ∉ mark) :
    Replaces (first :: mark) new before after ↔ after = replaceAll (first :: mark) new before := by
  constructor
  · rintro ⟨parts, hne, hfree, rfl, rfl⟩
    rw [replaceAll, splitAt_intercalate_of_cutAt (List.cons_ne_nil first mark) hne hfree]
    exact fun part hpart => cutAt_append_of_not_infix hfirst (hfree part hpart)
  · rintro rfl
    exact replaces_replaceAll (List.cons_ne_nil first mark) new before

end LayeredConfig.Text
