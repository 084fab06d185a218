import LayeredConfig.Text.Lines
import Mathlib.Data.List.Forall2

/-!
# Lines and their ends

Lines have no line feed in them, and lines that are each ended by one are read back. A line that ends with a
carriage return would lose it.
-/

namespace LayeredConfig.Text

theorem lineFeed_not_mem_of_mem_lines {text line : List Char} (h : line ∈ lines text) : '\n' ∉ line := by
  fun_induction lines text generalizing line with
  | case1 => cases h
  | case2 rest ih =>
      rcases List.mem_cons.mp h with rfl | hmem
      · exact List.not_mem_nil
      · exact ih hmem
  | case3 rest ih =>
      rcases List.mem_cons.mp h with rfl | hmem
      · exact List.not_mem_nil
      · exact ih hmem
  | case4 c rest hreturn hfeed hlines ih =>
      obtain rfl := List.mem_singleton.mp h
      simpa using fun heq : '\n' = c => hfeed heq.symm
  | case5 c rest hreturn hfeed first others hlines ih =>
      rcases List.mem_cons.mp h with rfl | hmem
      · have hfirst := ih (hlines ▸ List.mem_cons_self)
        simpa [hfirst] using fun heq : '\n' = c => hfeed heq.symm
      · exact ih (hlines ▸ List.mem_cons_of_mem _ hmem)

theorem lines_cons {c : Char} {rest first : List Char} {others : List (List Char)} (hfeed : c ≠ '\n')
    (hreturn : c = '\r' → ∀ tail, rest ≠ '\n' :: tail) (h : lines rest = first :: others) :
    lines (c :: rest) = (c :: first) :: others := by
  rw [lines, h]
  · exact fun tail hc hrest => hreturn hc tail hrest
  · exact hfeed

theorem lines_eq_nil {text : List Char} (h : lines text = []) : text = [] := by
  cases text with
  | nil => rfl
  | cons c rest =>
      unfold lines at h
      split at h
      · contradiction
      · cases h
      · cases h
      · split at h <;> cases h

/-- A text before a line feed has its own lines, but for a carriage return at the end of the last one. If it had ended
that one already, an empty line follows. -/
theorem lines_append (text rest : List Char) :
    ∃ ends gap, lines (text ++ '\n' :: rest) = ends ++ (gap ++ lines rest) ∧ (gap = [] ∨ gap = [[]]) ∧
      List.Forall₂ (fun line shown => line = shown ∨ line = shown ++ ['\r']) (lines text) ends := by
  fun_induction lines text with
  | case1 => exact ⟨[], [[]], lines_lineFeed rest, .inr rfl, .nil⟩
  | case2 text ih =>
      obtain ⟨ends, gap, heq, hgap, hends⟩ := ih
      exact ⟨[] :: ends, gap, by simp [lines_return_lineFeed, heq], hgap, .cons (.inl rfl) hends⟩
  | case3 text ih =>
      obtain ⟨ends, gap, heq, hgap, hends⟩ := ih
      exact ⟨[] :: ends, gap, by simp [lines_lineFeed, heq], hgap, .cons (.inl rfl) hends⟩
  | case4 c text hreturn hfeed hlines ih =>
      obtain rfl := lines_eq_nil hlines
      by_cases hc : c = '\r'
      · subst hc
        exact ⟨[[]], [], lines_return_lineFeed rest, .inl rfl, .cons (.inr rfl) .nil⟩
      · refine ⟨[[c]], [], ?_, .inl rfl, .cons (.inl rfl) .nil⟩
        exact lines_cons hfeed (fun heq => absurd heq hc) (lines_lineFeed rest)
  | case5 c text hreturn hfeed first others hlines ih =>
      obtain ⟨ends, gap, heq, hgap, hends⟩ := ih
      rw [hlines] at hends
      cases hends with
      | @cons _ shown _ ends hshown hothers =>
          refine ⟨(c :: shown) :: ends, gap, ?_, hgap, .cons ?_ hothers⟩
          · refine lines_cons hfeed ?_ heq
            rintro rfl tail htail
            cases text with
            | nil => cases hlines
            | cons d text => exact hreturn text rfl (by rw [(List.cons.inj htail).1])
          · exact hshown.imp (congrArg (c :: ·)) (congrArg (c :: ·))

theorem lines_append_lineFeed {line : List Char} (hfeed : '\n' ∉ line)
    (hreturn : line.getLast? ≠ some '\r') (rest : List Char) : lines (line ++ '\n' :: rest) = line :: lines rest := by
  induction line with
  | nil => exact lines_lineFeed rest
  | cons c line ih =>
      simp only [List.mem_cons, not_or] at hfeed
      refine lines_cons (Ne.symm hfeed.1) ?_ (ih hfeed.2 ?_)
      · rintro rfl tail htail
        cases line with
        | nil => exact hreturn rfl
        | cons first others => exact hfeed.2 ((List.cons.inj htail).1 ▸ List.mem_cons_self)
      · intro hlast
        rw [List.getLast?_cons, hlast] at hreturn
        exact hreturn rfl

theorem lines_flatMap {ls : List (List Char)} (hfeed : ∀ line ∈ ls, '\n' ∉ line)
    (hreturn : ∀ line ∈ ls, line.getLast? ≠ some '\r') :
    lines (ls.flatMap fun line => line ++ ['\n']) = ls := by
  induction ls with
  | nil => rfl
  | cons line ls ih =>
      simp only [List.mem_cons, forall_eq_or_imp] at hfeed hreturn
      rw [List.flatMap_cons, List.append_assoc, List.singleton_append,
        lines_append_lineFeed hfeed.1 hreturn.1, ih hfeed.2 hreturn.2]

end LayeredConfig.Text
