import LayeredConfig.Text.Blank
import Mathlib.Data.List.DropRight

/-!
# Trimmed texts

What trimming leaves, and which texts it leaves as they are: those that neither start nor end with a blank.
-/

namespace LayeredConfig.Text

theorem trimEnd_eq_rdropWhile (cs : List Char) : trimEnd cs = cs.rdropWhile isBlank := rfl

theorem mem_of_mem_trim {c : Char} {cs : List Char} (h : c ∈ trim cs) : c ∈ cs :=
  (List.dropWhile_sublist isBlank).subset ((List.rdropWhile_prefix isBlank _).subset h)

theorem isBlank_of_head?_trimStart {cs : List Char} {c : Char} (h : (trimStart cs).head? = some c) :
    isBlank c = false := by
  have hnot := List.head?_dropWhile_not isBlank cs
  rw [trimStart] at h
  rw [h] at hnot
  exact hnot

theorem isBlank_of_getLast?_trimEnd {cs : List Char} {c : Char} (h : (trimEnd cs).getLast? = some c) :
    isBlank c = false := by
  rw [trimEnd, List.getLast?_reverse] at h
  exact isBlank_of_head?_trimStart h

theorem trimStart_eq_self {cs : List Char} (h : ∀ c, cs.head? = some c → isBlank c = false) :
    trimStart cs = cs := by
  cases cs with
  | nil => rfl
  | cons c cs => rw [trimStart_cons, h c rfl, if_neg Bool.false_ne_true]

theorem trimEnd_eq_self {cs : List Char} (h : ∀ c, cs.getLast? = some c → isBlank c = false) :
    trimEnd cs = cs := by
  have hreverse : trimStart cs.reverse = cs.reverse := by
    refine trimStart_eq_self fun c hc => h c ?_
    rwa [List.head?_reverse] at hc
  rw [trimEnd, ← trimStart, hreverse, List.reverse_reverse]

/-- Trimming at the end does not reach a first character that is no blank. -/
theorem head?_trimEnd {cs : List Char} (h : ∀ c, cs.head? = some c → isBlank c = false) :
    (trimEnd cs).head? = cs.head? := by
  cases cs with
  | nil => rfl
  | cons c cs =>
      obtain ⟨rest, hrest⟩ := List.rdropWhile_prefix isBlank (c :: cs)
      cases htrim : trimEnd (c :: cs) with
      | nil =>
          have hblank := List.rdropWhile_eq_nil_iff.mp htrim c List.mem_cons_self
          rw [h c rfl] at hblank
          cases hblank
      | cons first others =>
          rw [← trimEnd_eq_rdropWhile, htrim, List.cons_append] at hrest
          rw [List.head?_cons, List.head?_cons, (List.cons.inj hrest).1]

theorem head?_trim (cs : List Char) : (trim cs).head? = (trimStart cs).head? :=
  head?_trimEnd fun _ => isBlank_of_head?_trimStart

theorem trim_eq_self_iff {cs : List Char} :
    trim cs = cs ↔ (∀ c, cs.head? = some c → isBlank c = false) ∧
      ∀ c, cs.getLast? = some c → isBlank c = false := by
  constructor
  · intro h
    refine ⟨fun c hc => ?_, fun c hc => ?_⟩
    · rw [← h, head?_trim] at hc
      exact isBlank_of_head?_trimStart hc
    · rw [← h] at hc
      exact isBlank_of_getLast?_trimEnd hc
  · rintro ⟨hhead, hlast⟩
    rw [trim, trimStart_eq_self hhead, trimEnd_eq_self hlast]

theorem trim_trim (cs : List Char) : trim (trim cs) = trim cs := by
  refine trim_eq_self_iff.mpr ⟨fun c hc => ?_, fun c hc => isBlank_of_getLast?_trimEnd hc⟩
  rw [head?_trim] at hc
  exact isBlank_of_head?_trimStart hc

/-! ## Blanks in front -/

theorem trimStart_append_of_blank {blanks : List Char} (h : ∀ c ∈ blanks, isBlank c = true)
    (cs : List Char) : trimStart (blanks ++ cs) = trimStart cs := by
  rw [trimStart, List.dropWhile_append_of_pos h, trimStart]

theorem trim_cons_of_blank {c : Char} (h : isBlank c = true) (cs : List Char) :
    trim (c :: cs) = trim cs := by
  rw [trim, trimStart_cons, if_pos h, trim]

/-! ## Blanks at the end -/

theorem trimStart_concat_of_blank {c : Char} (h : isBlank c = true) (cs : List Char) :
    trimStart (cs ++ [c]) = if trimStart cs = [] then [] else trimStart cs ++ [c] := by
  rw [trimStart, trimStart, List.dropWhile_append]
  by_cases hnil : cs.dropWhile isBlank = [] <;> simp [hnil, h]

theorem trim_concat_of_blank {c : Char} (h : isBlank c = true) (cs : List Char) : trim (cs ++ [c]) = trim cs := by
  rw [trim, trim, trimStart_concat_of_blank h]
  split
  · rename_i hnil
    rw [hnil]
  · rw [trimEnd_concat, if_pos h]

/-! ## A last character that is no blank -/

theorem getLast?_trimStart {cs : List Char} {c : Char} (h : cs.getLast? = some c)
    (hc : isBlank c = false) : (trimStart cs).getLast? = some c := by
  obtain ⟨before, rfl⟩ := List.getLast?_eq_some_iff.mp h
  rw [trimStart, List.dropWhile_append]
  split
  · simp [hc]
  · simp

theorem getLast?_trim {cs : List Char} {c : Char} (h : cs.getLast? = some c) (hc : isBlank c = false) :
    (trim cs).getLast? = some c := by
  have hlast := getLast?_trimStart h hc
  rwa [trim, trimEnd_eq_self fun other hother => by
    rw [hlast] at hother
    exact Option.some.inj hother ▸ hc]

end LayeredConfig.Text
