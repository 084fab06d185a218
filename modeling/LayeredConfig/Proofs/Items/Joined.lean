import LayeredConfig.Store.Value

/-!
# Joined items

A list comes back from its text exactly if it has an item, no item has a comma, and none has a blank where a comma comes to
stand beside it. A text that is read as a list and written again has lost the blanks beside its commas, one on each side,
and nothing else.
-/

namespace LayeredConfig

namespace Text

/-! ## Parts between marks -/

theorem splitAtChar_eq_splitOn (mark : Char) (cs : List Char) : splitAtChar mark cs = cs.splitOn mark := by
  induction cs with
  | nil => rfl
  | cons c rest ih =>
      rw [List.splitOn_cons_eq_if_modifyHead, splitAtChar, ih]
      by_cases h : c = mark
      · simp [h]
      · obtain ⟨part, parts, hparts⟩ := List.exists_cons_of_ne_nil (List.splitOn_ne_nil mark rest)
        simp [h, hparts]

theorem splitAtChar_ne_nil (mark : Char) (cs : List Char) : splitAtChar mark cs ≠ [] :=
  splitAtChar_eq_splitOn mark cs ▸ List.splitOn_ne_nil mark cs

theorem splitAtChar_intercalate {mark : Char} {parts : List (List Char)} (h : ∀ part ∈ parts, mark ∉ part)
    (hparts : parts ≠ []) : splitAtChar mark ([mark].intercalate parts) = parts := by
  rw [splitAtChar_eq_splitOn, List.splitOn_intercalate mark h hparts]

theorem intercalate_splitAtChar (mark : Char) (cs : List Char) : [mark].intercalate (splitAtChar mark cs) = cs := by
  rw [splitAtChar_eq_splitOn, List.intercalate_splitOn]

theorem length_splitAtChar (mark : Char) (cs : List Char) : (splitAtChar mark cs).length = cs.count mark + 1 := by
  induction cs with
  | nil => rfl
  | cons c rest ih =>
      obtain ⟨part, parts, hparts⟩ := List.exists_cons_of_ne_nil (splitAtChar_ne_nil mark rest)
      rw [hparts] at ih
      by_cases h : c = mark
      · simp [splitAtChar, h, hparts, ← ih]
      · simp [splitAtChar, h, hparts, ← ih]

theorem not_mem_of_mem_splitAtChar {mark : Char} {cs part : List Char} (h : part ∈ splitAtChar mark cs) :
    mark ∉ part := by
  induction cs generalizing part with
  | nil =>
      obtain rfl := List.mem_singleton.mp h
      exact List.not_mem_nil
  | cons c rest ih =>
      by_cases hc : c = mark
      · simp only [splitAtChar, hc, if_true, List.mem_cons] at h
        rcases h with rfl | hlater
        · exact List.not_mem_nil
        · exact ih hlater
      · obtain ⟨first, parts, hparts⟩ := List.exists_cons_of_ne_nil (splitAtChar_ne_nil mark rest)
        simp only [splitAtChar, hc, if_false, hparts, List.mem_cons] at h
        rw [hparts] at ih
        rcases h with rfl | hlater
        · simpa [Ne.symm hc] using ih List.mem_cons_self
        · exact ih (List.mem_cons_of_mem first hlater)

/-! ## Blanks at the ends -/

/-- The text does not start with a blank. -/
def NoBlankFirst (cs : List Char) : Prop := ∀ c ∈ cs.head?, isBlank c = false

/-- The text does not end with a blank. -/
def NoBlankLast (cs : List Char) : Prop := ∀ c ∈ cs.getLast?, isBlank c = false

/-- One blank, or nothing. -/
def AtMostOneBlank (gap : List Char) : Prop := gap = [] ∨ ∃ c, isBlank c = true ∧ gap = [c]

/-- The second text is the first without the blanks beside its commas, of which one is taken off on each side. -/
inductive Tightened : (text tight : List Char) → Prop where
  | plain {part} : ',' ∉ part → Tightened part part
  | comma {part before after text tight} : ',' ∉ part → AtMostOneBlank before → AtMostOneBlank after →
      (before = [] → NoBlankLast part) → (after = [] → NoBlankFirst text) → Tightened text tight →
      Tightened (part ++ before ++ ',' :: (after ++ text)) (part ++ ',' :: tight)

end Text

open Text

/-! ## What is dropped from one part -/

theorem exists_dropBlank (cs : List Char) :
    ∃ gap, cs = gap ++ dropBlank cs ∧ AtMostOneBlank gap ∧ (gap = [] → NoBlankFirst (dropBlank cs)) := by
  cases cs with
  | nil => exact ⟨[], rfl, .inl rfl, fun _ c hc => by cases hc⟩
  | cons c rest =>
      by_cases hc : isBlank c = true
      · exact ⟨[c], by simp [dropBlank, hc], .inr ⟨c, hc, rfl⟩, fun h => by cases h⟩
      · have hdrop : dropBlank (c :: rest) = c :: rest := if_neg hc
        rw [hdrop]
        refine ⟨[], rfl, .inl rfl, fun _ first hfirst => ?_⟩
        obtain rfl : c = first := Option.some.inj hfirst
        simpa using hc

theorem exists_dropLastBlank (cs : List Char) :
    ∃ gap, cs = dropLastBlank cs ++ gap ∧ AtMostOneBlank gap ∧ (gap = [] → NoBlankLast (dropLastBlank cs)) := by
  obtain ⟨gap, heq, hgap, hnone⟩ := exists_dropBlank cs.reverse
  refine ⟨gap, ?_, hgap, fun h c hc => hnone h c ?_⟩
  · rcases hgap with rfl | ⟨c, -, rfl⟩
    · simpa [dropLastBlank] using congrArg List.reverse heq
    · simpa [dropLastBlank] using congrArg List.reverse heq
  · rwa [dropLastBlank, List.getLast?_reverse] at hc

theorem dropBlank_eq_self_iff {cs : List Char} : dropBlank cs = cs ↔ NoBlankFirst cs := by
  cases cs with
  | nil => simp [dropBlank, NoBlankFirst]
  | cons c rest => cases hc : isBlank c <;> simp [dropBlank, NoBlankFirst, hc]

theorem dropLastBlank_eq_self_iff {cs : List Char} : dropLastBlank cs = cs ↔ NoBlankLast cs := by
  rw [dropLastBlank, List.reverse_eq_iff, dropBlank_eq_self_iff, NoBlankFirst, NoBlankLast, List.head?_reverse]

theorem dropBlank_suffix (cs : List Char) : dropBlank cs <:+ cs := by
  obtain ⟨gap, heq, -⟩ := exists_dropBlank cs
  exact ⟨gap, heq.symm⟩

theorem dropLastBlank_initial (cs : List Char) : dropLastBlank cs <+: cs := by
  obtain ⟨gap, heq, -⟩ := exists_dropLastBlank cs
  exact ⟨gap, heq.symm⟩

theorem dropLastBlank_dropBlank_eq_self_iff {cs : List Char} :
    dropLastBlank (dropBlank cs) = cs ↔ NoBlankFirst cs ∧ NoBlankLast cs := by
  constructor
  · intro h
    have hlast := (dropLastBlank_initial (dropBlank cs)).length_le
    rw [h] at hlast
    have hfirst : dropBlank cs = cs :=
      (dropBlank_suffix cs).eq_of_length (Nat.le_antisymm (dropBlank_suffix cs).length_le hlast)
    rw [hfirst] at h
    exact ⟨dropBlank_eq_self_iff.mp hfirst, dropLastBlank_eq_self_iff.mp h⟩
  · rintro ⟨hfirst, hlast⟩
    rw [dropBlank_eq_self_iff.mpr hfirst, dropLastBlank_eq_self_iff.mpr hlast]

/-! ## What is dropped from all parts -/

variable {part : List Char} {parts : List (List Char)}

theorem length_itemsAfterComma (parts : List (List Char)) : (itemsAfterComma parts).length = parts.length := by
  fun_induction itemsAfterComma parts <;> simp_all

theorem length_itemsOfParts (parts : List (List Char)) : (itemsOfParts parts).length = parts.length := by
  fun_cases itemsOfParts parts <;> simp [length_itemsAfterComma]

theorem itemsAfterComma_ne_nil (h : parts ≠ []) : itemsAfterComma parts ≠ [] := by
  rw [← List.length_pos_iff, length_itemsAfterComma]
  exact List.length_pos_iff.mpr h

theorem itemsAfterComma_eq_self_iff :
    itemsAfterComma parts = parts ↔ (∀ part ∈ parts, NoBlankFirst part) ∧ ∀ part ∈ parts.dropLast, NoBlankLast part := by
  fun_induction itemsAfterComma parts with
  | case1 => simp
  | case2 part => simp [dropBlank_eq_self_iff]
  | case3 part rest hrest ih =>
      rw [List.cons.injEq, dropLastBlank_dropBlank_eq_self_iff, ih, List.dropLast_cons_of_ne_nil hrest]
      simp only [List.forall_mem_cons]
      exact and_and_and_comm

theorem itemsOfParts_eq_self_iff :
    itemsOfParts parts = parts ↔
      (∀ part ∈ parts.tail, NoBlankFirst part) ∧ ∀ part ∈ parts.dropLast, NoBlankLast part := by
  fun_cases itemsOfParts parts with
  | case1 => simp
  | case2 part => simp
  | case3 part rest hrest =>
      rw [List.cons.injEq, dropLastBlank_eq_self_iff, itemsAfterComma_eq_self_iff, List.dropLast_cons_of_ne_nil hrest,
        List.tail_cons, List.forall_mem_cons]
      exact and_left_comm

theorem comma_not_mem_itemsAfterComma (h : ∀ part ∈ parts, ',' ∉ part) : ∀ part ∈ itemsAfterComma parts, ',' ∉ part := by
  fun_induction itemsAfterComma parts with
  | case1 => exact h
  | case2 part =>
      intro kept hkept hcomma
      obtain rfl := List.mem_singleton.mp hkept
      exact h part List.mem_cons_self ((dropBlank_suffix part).subset hcomma)
  | case3 part rest hrest ih =>
      obtain ⟨hpart, hlater⟩ := List.forall_mem_cons.mp h
      refine List.forall_mem_cons.mpr ⟨fun hcomma => hpart ?_, ih hlater⟩
      exact (dropBlank_suffix part).subset ((dropLastBlank_initial _).subset hcomma)

theorem comma_not_mem_itemsOfParts (h : ∀ part ∈ parts, ',' ∉ part) : ∀ part ∈ itemsOfParts parts, ',' ∉ part := by
  fun_cases itemsOfParts parts with
  | case1 => exact h
  | case2 part => exact h
  | case3 part rest hrest =>
      obtain ⟨hpart, hlater⟩ := List.forall_mem_cons.mp h
      refine List.forall_mem_cons.mpr ⟨fun hcomma => hpart ?_, comma_not_mem_itemsAfterComma hlater⟩
      exact (dropLastBlank_initial part).subset hcomma

/-! ## Writing what was read -/

/-- A text after a comma may start with a blank, which is taken off. -/
def TightenedAfterComma (cs tight : List Char) : Prop :=
  ∃ gap text, cs = gap ++ text ∧ AtMostOneBlank gap ∧ (gap = [] → NoBlankFirst text) ∧ Tightened text tight

theorem TightenedAfterComma.cons {text tight : List Char} (h : TightenedAfterComma text tight) (hpart : ',' ∉ part) :
    Tightened (part ++ ',' :: text) (dropLastBlank part ++ ',' :: tight) := by
  obtain ⟨after, text, rfl, hafter, hfirst, htight⟩ := h
  obtain ⟨before, heq, hbefore, hlast⟩ := exists_dropLastBlank part
  have hkept : ',' ∉ dropLastBlank part := fun hcomma => hpart ((dropLastBlank_initial part).subset hcomma)
  have hwhole := Tightened.comma hkept hbefore hafter hlast hfirst htight
  rwa [← heq] at hwhole

theorem noBlankFirst_append_comma (h : NoBlankFirst part) (rest : List Char) : NoBlankFirst (part ++ ',' :: rest) := by
  cases part with
  | nil =>
      intro c hc
      obtain rfl : ',' = c := Option.some.inj hc
      decide
  | cons c part => exact h

theorem tightened_itemsAfterComma (hparts : parts ≠ []) (h : ∀ part ∈ parts, ',' ∉ part) :
    TightenedAfterComma ([','].intercalate parts) ([','].intercalate (itemsAfterComma parts)) := by
  fun_induction itemsAfterComma parts with
  | case1 => exact absurd rfl hparts
  | case2 part =>
      obtain ⟨gap, heq, hgap, hfirst⟩ := exists_dropBlank part
      have hkept : ',' ∉ dropBlank part := fun hcomma => h part List.mem_cons_self ((dropBlank_suffix part).subset hcomma)
      rw [List.intercalate_singleton, List.intercalate_singleton]
      exact ⟨gap, dropBlank part, heq, hgap, hfirst, .plain hkept⟩
  | case3 part rest hrest ih =>
      obtain ⟨hpart, hlater⟩ := List.forall_mem_cons.mp h
      obtain ⟨gap, heq, hgap, hfirst⟩ := exists_dropBlank part
      have hkept : ',' ∉ dropBlank part := fun hcomma => hpart ((dropBlank_suffix part).subset hcomma)
      rw [List.intercalate_cons_of_ne_nil hrest, List.intercalate_cons_of_ne_nil (itemsAfterComma_ne_nil hrest),
        List.append_assoc, List.append_assoc, List.singleton_append, List.singleton_append]
      refine ⟨gap, dropBlank part ++ ',' :: [','].intercalate rest, ?_, hgap, fun hnone => ?_, ?_⟩
      · rw [← List.append_assoc, ← heq]
      · exact noBlankFirst_append_comma (hfirst hnone) _
      · exact (ih hrest hlater).cons hkept

theorem tightened_itemsOfParts (hparts : parts ≠ []) (h : ∀ part ∈ parts, ',' ∉ part) :
    Tightened ([','].intercalate parts) ([','].intercalate (itemsOfParts parts)) := by
  fun_cases itemsOfParts parts with
  | case1 => exact absurd rfl hparts
  | case2 part =>
      rw [List.intercalate_singleton]
      exact .plain (h part List.mem_cons_self)
  | case3 part rest hrest =>
      obtain ⟨hpart, hlater⟩ := List.forall_mem_cons.mp h
      rw [List.intercalate_cons_of_ne_nil hrest, List.intercalate_cons_of_ne_nil (itemsAfterComma_ne_nil hrest),
        List.append_assoc, List.append_assoc, List.singleton_append, List.singleton_append]
      exact (tightened_itemsAfterComma hrest hlater).cons hpart

/-! ## Items -/

theorem toList_joinItems (items : List String) :
    (joinItems items).toList = [','].intercalate (items.map String.toList) := String.toList_ofList

theorem map_toList_splitItems (text : String) :
    (splitItems text).map String.toList = itemsOfParts (splitAtChar ',' text.toList) := by
  simp [splitItems, Function.comp_def]

theorem splitItems_ne_nil (text : String) : splitItems text ≠ [] := by
  rw [← List.length_pos_iff, ← List.length_map String.toList, map_toList_splitItems, length_itemsOfParts,
    length_splitAtChar]
  exact Nat.succ_pos _

theorem comma_not_mem_of_mem_splitItems {text item : String} (h : item ∈ splitItems text) : ',' ∉ item.toList := by
  have hitem := List.mem_map_of_mem (f := String.toList) h
  rw [map_toList_splitItems] at hitem
  exact comma_not_mem_itemsOfParts (fun _ => not_mem_of_mem_splitAtChar) _ hitem

theorem splitItems_joinItems_eq_iff {items : List String} (h : items ≠ []) (hcomma : ∀ item ∈ items, ',' ∉ item.toList) :
    splitItems (joinItems items) = items ↔
      (∀ item ∈ items.tail, NoBlankFirst item.toList) ∧ ∀ item ∈ items.dropLast, NoBlankLast item.toList := by
  have hparts : splitAtChar ',' (joinItems items).toList = items.map String.toList := by
    rw [toList_joinItems]
    exact splitAtChar_intercalate (by simpa using hcomma) (by simpa using h)
  rw [← List.map_inj_right fun _ _ => String.toList_inj.mp, map_toList_splitItems, hparts,
    itemsOfParts_eq_self_iff, ← List.map_tail, ← List.map_dropLast, List.forall_mem_map, List.forall_mem_map]

/-- A text without commas is a list of itself. -/
theorem splitItems_of_comma_not_mem {text : String} (h : ',' ∉ text.toList) : splitItems text = [text] := by
  have hjoin : joinItems [text] = text := by simp [joinItems]
  have hsplit := (splitItems_joinItems_eq_iff (List.cons_ne_nil text []) (by simpa using h)).mpr ⟨by simp, by simp⟩
  rwa [hjoin] at hsplit

/-- A list comes back from its textual form exactly if it has an item, no item has a comma, no item after the first starts
with a blank and no item before the last ends with one. A text has one item more than it has commas, and the items with
commas between them are the text without the blanks beside its commas. -/
theorem splitItems_render :
    (∀ items : List String, splitItems (Scalar.array items).render = items ↔
      items ≠ [] ∧ (∀ item ∈ items, ',' ∉ item.toList) ∧ (∀ item ∈ items.tail, NoBlankFirst item.toList) ∧
        ∀ item ∈ items.dropLast, NoBlankLast item.toList) ∧
      ∀ text : String, (splitItems text).length = text.toList.count ',' + 1 ∧
        Tightened text.toList (Scalar.array (splitItems text)).render.toList := by
  refine ⟨fun items => ⟨fun h => ?_, fun ⟨hitems, hcomma, hblanks⟩ => ?_⟩, fun text => ⟨?_, ?_⟩⟩
  · have hitems : items ≠ [] := h ▸ splitItems_ne_nil _
    have hcomma : ∀ item ∈ items, ',' ∉ item.toList := fun item hitem =>
      comma_not_mem_of_mem_splitItems (h.symm ▸ hitem : item ∈ splitItems (Scalar.array items).render)
    exact ⟨hitems, hcomma, (splitItems_joinItems_eq_iff hitems hcomma).mp h⟩
  · exact (splitItems_joinItems_eq_iff hitems hcomma).mpr hblanks
  · rw [← List.length_map String.toList, map_toList_splitItems, length_itemsOfParts, length_splitAtChar]
  · have htight := tightened_itemsOfParts (splitAtChar_ne_nil ',' text.toList) fun _ => not_mem_of_mem_splitAtChar
    rwa [intercalate_splitAtChar, ← map_toList_splitItems, ← toList_joinItems] at htight

end LayeredConfig
