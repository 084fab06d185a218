import LayeredConfig.Projection.JsonText
import LayeredConfig.Proofs.Handle.Descent

/-!
# What JSON text tells

A document can be told from its JSON text, up to the order of the fields of its objects. Texts of parts can be told apart
in front of anything that goes on with a comma, a line break or a bracket: strings and blocks end with a mark of their own,
and a number ends where no digit follows.
-/

namespace LayeredConfig

/-! ## Documents without an order -/

namespace Projection

/-- The projection without what is in it, if it is an object. -/
def bare : Projection → Projection
  | .object _ => .object []
  | scalar => scalar

/-- The projections have the same at every path: the same scalar, an object, or nothing. -/
def Same (document other : Projection) : Prop :=
  ∀ path, (document.follow path).map bare = (other.follow path).map bare

theorem Same.refl (document : Projection) : document.Same document := fun _ => rfl

theorem Same.follow_eq_none {document other : Projection} (h : document.Same other) {path : List String}
    (hnone : document.follow path = none) : other.follow path = none := by
  have hpath := h path
  rw [hnone, Option.map_none, eq_comm, Option.map_eq_none_iff] at hpath
  exact hpath

theorem Same.follow_text {document other : Projection} (h : document.Same other) {path : List String} {text : String}
    (htext : document.follow path = some (.text text)) : other.follow path = some (.text text) := by
  have hpath := h path
  rw [htext, Option.map_some, eq_comm, Option.map_eq_some_iff] at hpath
  obtain ⟨found, hfound, hbare⟩ := hpath
  cases found with
  | text value =>
      cases hbare
      exact hfound
  | _ => cases hbare

theorem Same.follow_object {document other : Projection} (h : document.Same other) {path : List String}
    (hobject : ∃ fields, document.follow path = some (.object fields)) : ∃ fields, other.follow path = some (.object fields) := by
  obtain ⟨fields, hobject⟩ := hobject
  have hpath := h path
  rw [hobject, Option.map_some, eq_comm, Option.map_eq_some_iff] at hpath
  obtain ⟨found, hfound, hbare⟩ := hpath
  cases found with
  | object others => exact ⟨others, hfound⟩
  | _ => cases hbare

theorem same_object {fields others : List (String × Projection)}
    (h : ∀ key, Option.Rel Same (Entries.get? fields key) (Entries.get? others key)) :
    (object fields).Same (.object others) := by
  intro path
  cases path with
  | nil => rfl
  | cons key path =>
      have hkey := h key
      rw [follow, follow]
      generalize Entries.get? fields key = mine, Entries.get? others key = yours at hkey
      cases hkey with
      | none => rfl
      | some hsame => exact hsame path

end Projection

/-! ## Strings -/

namespace JsonText

/-- The characters that are not written as they are. -/
def escaped : List Char := '"' :: '\\' :: (List.range 0x20).map Char.ofNat

theorem jsonChar_of_not_mem {c : Char} (h : c ∉ escaped) : jsonChar c = [c] := by
  have hcontrol : ¬ c.toNat < 0x20 := fun hlt => h (by
    simp only [escaped, List.mem_cons, List.mem_map, List.mem_range]
    exact .inr (.inr ⟨c.toNat, hlt, Char.ofNat_toNat c⟩))
  have hne {d : Char} (hd : d ∈ escaped) : c ≠ d := by
    rintro rfl
    exact h hd
  rw [jsonChar]
  simp only [if_neg (hne (show '"' ∈ escaped by decide)), if_neg (hne (show '\\' ∈ escaped by decide)),
    if_neg (hne (show '\x08' ∈ escaped by decide)), if_neg (hne (show '\t' ∈ escaped by decide)),
    if_neg (hne (show '\n' ∈ escaped by decide)), if_neg (hne (show '\x0c' ∈ escaped by decide)),
    if_neg (hne (show '\r' ∈ escaped by decide)), if_neg hcontrol]

theorem head?_jsonChar {c : Char} (h : c ∈ escaped) : (jsonChar c).head? = some '\\' := by
  have hall : (escaped.all fun c => (jsonChar c).head? == some '\\') = true := by decide +kernel
  exact beq_iff_eq.mp (List.all_eq_true.mp hall c h)

theorem eq_of_jsonChar_starts {c d : Char} (hc : c ∈ escaped) (hd : d ∈ escaped) (h : jsonChar c <+: jsonChar d) : c = d := by
  have hall : (escaped.all fun c => escaped.all fun d => !(jsonChar c).isPrefixOf (jsonChar d) || c == d) = true := by
    decide +kernel
  have hpair := List.all_eq_true.mp (List.all_eq_true.mp hall c hc) d hd
  have hstart : (jsonChar c).isPrefixOf (jsonChar d) = true := List.isPrefixOf_iff_prefix.mpr h
  simpa [hstart] using hpair

/-- No character is written as the start of another. -/
theorem jsonChar_append_inj {c d : Char} {rest others : List Char} (h : jsonChar c ++ rest = jsonChar d ++ others) :
    c = d ∧ rest = others := by
  have hescape {c d : Char} {rest others : List Char} (hc : c ∈ escaped) (hd : d ∉ escaped)
      (h : jsonChar c ++ rest = jsonChar d ++ others) : False := by
    rw [jsonChar_of_not_mem hd] at h
    have hhead := congrArg List.head? h
    rw [List.head?_append, head?_jsonChar hc] at hhead
    obtain rfl : '\\' = d := by simpa using hhead
    exact hd (by decide)
  by_cases hc : c ∈ escaped <;> by_cases hd : d ∈ escaped
  · obtain rfl : c = d := by
      rcases List.prefix_or_prefix_of_prefix (List.prefix_append _ _) ⟨others, h.symm⟩ with hstart | hstart
      · exact eq_of_jsonChar_starts hc hd hstart
      · exact (eq_of_jsonChar_starts hd hc hstart).symm
    exact ⟨rfl, List.append_cancel_left h⟩
  · exact absurd h (hescape hc hd)
  · exact absurd h.symm (hescape hd hc)
  · rw [jsonChar_of_not_mem hc, jsonChar_of_not_mem hd] at h
    exact List.cons.inj h

theorem jsonChar_append_ne (c : Char) (rest others : List Char) : jsonChar c ++ rest ≠ '"' :: others := by
  intro h
  have hhead := congrArg List.head? h
  by_cases hc : c ∈ escaped
  · rw [List.head?_append, head?_jsonChar hc] at hhead
    simp at hhead
  · rw [jsonChar_of_not_mem hc] at hhead
    obtain rfl : c = '"' := by simpa using hhead
    exact hc (by decide)

theorem flatMap_jsonChar_append_inj {cs ds rest others : List Char}
    (h : cs.flatMap jsonChar ++ '"' :: rest = ds.flatMap jsonChar ++ '"' :: others) : cs = ds ∧ rest = others := by
  induction cs generalizing ds with
  | nil =>
      cases ds with
      | nil => exact ⟨rfl, (List.cons.inj h).2⟩
      | cons d ds =>
          rw [List.flatMap_cons, List.append_assoc] at h
          exact absurd h.symm (jsonChar_append_ne d _ _)
  | cons c cs ih =>
      cases ds with
      | nil =>
          rw [List.flatMap_cons, List.append_assoc] at h
          exact absurd h (jsonChar_append_ne c _ _)
      | cons d ds =>
          rw [List.flatMap_cons, List.flatMap_cons, List.append_assoc, List.append_assoc] at h
          obtain ⟨rfl, hrest⟩ := jsonChar_append_inj h
          obtain ⟨rfl, rfl⟩ := ih hrest
          exact ⟨rfl, rfl⟩

theorem jsonString_append_inj {text other : String} {rest others : List Char}
    (h : (jsonString text).toList ++ rest = (jsonString other).toList ++ others) : text = other ∧ rest = others := by
  simp only [jsonString, String.toList_ofList, List.cons_append, List.append_assoc, List.nil_append] at h
  obtain ⟨htext, hrest⟩ := flatMap_jsonChar_append_inj (List.cons.inj h).2
  exact ⟨String.toList_inj.mp htext, hrest⟩

/-! ## Numbers -/

def isNumeric (c : Char) : Bool := c == '-' || c.isDigit

/-- A number that stands before the text would end there. -/
def Bounded (rest : List Char) : Prop := ∀ c ∈ rest.head?, isNumeric c = false

theorem bounded_nil : Bounded [] := nofun

theorem bounded_cons {c : Char} (h : isNumeric c = false) (rest : List Char) : Bounded (c :: rest) := by
  intro first hfirst
  obtain rfl := Option.some.inj hfirst
  exact h

theorem isNumeric_of_mem_render {c : Char} {n : Int} (h : c ∈ (Decimal.render n).toList) : isNumeric c = true := by
  rcases Decimal.mem_render h with rfl | hdigit
  · rfl
  · rw [isNumeric, hdigit, Bool.or_true]

theorem takeWhile_render (n : Int) {rest : List Char} (hrest : Bounded rest) :
    ((Decimal.render n).toList ++ rest).takeWhile isNumeric = (Decimal.render n).toList := by
  rw [List.takeWhile_append_of_pos fun c hc => isNumeric_of_mem_render hc]
  cases rest with
  | nil => simp
  | cons c rest => simp [hrest c rfl]

theorem render_append_inj {n m : Int} {rest others : List Char} (hrest : Bounded rest) (hothers : Bounded others)
    (h : (Decimal.render n).toList ++ rest = (Decimal.render m).toList ++ others) : n = m ∧ rest = others := by
  have hdigits : (Decimal.render n).toList = (Decimal.render m).toList := by
    rw [← takeWhile_render n hrest, h, takeWhile_render m hothers]
  have hread := congrArg Decimal.int? hdigits
  rw [Decimal.render, Decimal.render, String.toList_ofList, String.toList_ofList, Decimal.int?_ofInt, Decimal.int?_ofInt] at hread
  rw [hdigits] at h
  exact ⟨Option.some.inj hread, List.append_cancel_left h⟩

/-! ## Parts behind one another -/

/-- Where one of the texts stands it is not the other, and it is seen where it ends. -/
def Separable (part other : List Char) : Prop :=
  ∀ rest others, Bounded rest → Bounded others → part ++ rest = other ++ others → part = other ∧ rest = others

/-- Parts come back from a text in which each of them follows a separator, and something else follows the last. -/
theorem flatMap_append_inj {first last : Char} {separator : List Char} (hne : first ≠ last)
    (hfirst : isNumeric first = false) (hlast : isNumeric last = false) {parts others : List (List Char)}
    (hparts : ∀ part ∈ parts, ∀ other ∈ others, Separable part other) {rest after : List Char}
    (h : parts.flatMap (first :: separator ++ ·) ++ last :: rest =
      others.flatMap (first :: separator ++ ·) ++ last :: after) :
    parts = others ∧ rest = after := by
  have hbounded (parts : List (List Char)) (rest : List Char) :
      Bounded (parts.flatMap (first :: separator ++ ·) ++ last :: rest) := by
    cases parts with
    | nil => exact bounded_cons hlast _
    | cons part parts => exact bounded_cons hfirst _
  induction parts generalizing others with
  | nil =>
      cases others with
      | nil => exact ⟨rfl, (List.cons.inj h).2⟩
      | cons other others => exact absurd (List.cons.inj h).1.symm hne
  | cons part parts ih =>
      cases others with
      | nil => exact absurd (List.cons.inj h).1 hne
      | cons other others =>
          simp only [List.flatMap_cons, List.append_assoc] at h
          obtain ⟨rfl, hnext⟩ := hparts part List.mem_cons_self other List.mem_cons_self _ _ (hbounded parts rest)
            (hbounded others after) (List.append_cancel_left h)
          obtain ⟨rfl, rfl⟩ := ih (fun part hpart other hother =>
            hparts part (List.mem_cons_of_mem _ hpart) other (List.mem_cons_of_mem _ hother)) hnext
          exact ⟨rfl, rfl⟩

theorem jsonString_injective : Function.Injective jsonString := by
  intro text other h
  have hempty : (jsonString text).toList ++ [] = (jsonString other).toList ++ [] := by rw [h]
  exact (jsonString_append_inj hempty).1

theorem separable_jsonString (text other : String) : Separable (jsonString text).toList (jsonString other).toList := by
  intro rest others _ _ h
  obtain ⟨rfl, hrest⟩ := jsonString_append_inj h
  exact ⟨rfl, hrest⟩

theorem intercalate_cons (separator part : List Char) (parts : List (List Char)) :
    separator.intercalate (part :: parts) = part ++ parts.flatMap (separator ++ ·) := by
  induction parts generalizing part with
  | nil => simp
  | cons next parts ih => rw [List.intercalate_cons_cons, ih, List.flatMap_cons, List.append_assoc, List.append_assoc]

/-- The text of texts, with a separator between them. -/
theorem intercalate_append_inj {first last : Char} {separator : List Char} (hne : first ≠ last)
    (hfirst : isNumeric first = false) (hlast : isNumeric last = false) {part other : String} {parts others : List String}
    (hparts : ∀ one ∈ part :: parts, ∀ two ∈ other :: others, Separable one.toList two.toList) {rest after : List Char}
    (h : (first :: separator).intercalate ((part :: parts).map String.toList) ++ last :: rest =
      (first :: separator).intercalate ((other :: others).map String.toList) ++ last :: after) :
    part :: parts = other :: others ∧ rest = after := by
  simp only [List.map_cons, intercalate_cons] at h
  -- A separator before the first part does no harm.
  have hall : ((part :: parts).map String.toList).flatMap (first :: separator ++ ·) ++ last :: rest =
      ((other :: others).map String.toList).flatMap (first :: separator ++ ·) ++ last :: after := by
    simpa using h
  obtain ⟨heq, hrest⟩ := flatMap_append_inj hne hfirst hlast (by simpa using hparts) hall
  exact ⟨List.map_injective_iff.mpr (fun _ _ => String.toList_inj.mp) heq, hrest⟩

theorem toList_jsonList_cons (item : String) (items : List String) :
    (jsonList (item :: items)).toList =
      '[' :: ([','].intercalate ((jsonString item :: items.map jsonString).map String.toList) ++ [']']) := by
  simp [jsonList, String.toList_intercalate]

/-- Lists are told by their texts. -/
theorem jsonList_injective {items others : List String} (h : jsonList items = jsonList others) : items = others := by
  have hlist := congrArg String.toList h
  cases items with
  | nil =>
      cases others with
      | nil => rfl
      | cons other others => simp [intercalate_cons, jsonList, jsonString] at hlist
  | cons item items =>
      cases others with
      | nil => simp [intercalate_cons, jsonList, jsonString] at hlist
      | cons other others =>
          rw [toList_jsonList_cons, toList_jsonList_cons] at hlist
          have hstrings : ∀ one ∈ (item :: items).map jsonString, ∀ two ∈ (other :: others).map jsonString,
              Separable one.toList two.toList := by
            simp only [List.forall_mem_map]
            exact fun one _ two _ => separable_jsonString one two
          have hne : (',' : Char) ≠ ']' := by decide
          obtain ⟨hitems, -⟩ := intercalate_append_inj hne rfl rfl hstrings (List.cons.inj hlist).2
          exact List.map_injective_iff.mpr jsonString_injective hitems

theorem toList_jsonBlock_cons (indent opening closing part : String) (parts : List String) :
    (jsonBlock indent opening closing (part :: parts)).toList =
      opening.toList ++ ('\n' :: (indent ++ "  ").toList ++
        ((',' :: '\n' :: (indent ++ "  ").toList).intercalate ((part :: parts).map String.toList) ++
          '\n' :: (indent ++ closing).toList)) := by
  simp [jsonBlock, String.toList_intercalate, intercalate_cons, List.flatMap_map, Function.comp_def]

/-- A block tells its parts, and where it ends. -/
theorem jsonBlock_append_inj {indent opening closing : String} {last : Char} (hclosing : closing.toList = [last])
    (hlast : last ≠ '\n') {parts others : List String}
    (hparts : ∀ part ∈ parts, ∀ other ∈ others, Separable part.toList other.toList) {rest after : List Char}
    (h : (jsonBlock indent opening closing parts).toList ++ rest = (jsonBlock indent opening closing others).toList ++ after) :
    parts = others ∧ rest = after := by
  cases parts with
  | nil =>
      cases others with
      | nil => exact ⟨rfl, List.append_cancel_left h⟩
      | cons other others =>
          rw [toList_jsonBlock_cons] at h
          simp [jsonBlock, hclosing, hlast] at h
  | cons part parts =>
      cases others with
      | nil =>
          rw [toList_jsonBlock_cons] at h
          simp [jsonBlock, hclosing, hlast.symm] at h
      | cons other others =>
          simp only [toList_jsonBlock_cons, List.append_assoc, List.append_cancel_left_eq, List.cons_append] at h
          have hne : (',' : Char) ≠ '\n' := by decide
          obtain ⟨heq, hrest⟩ := intercalate_append_inj hne rfl rfl hparts (List.append_cancel_left (List.cons.inj h).2)
          exact ⟨heq, List.append_cancel_left hrest⟩

end JsonText

/-! ## Fields in order -/

theorem sortByKey_perm {α : Type} (fields : List (String × α)) : (sortByKey fields).Perm fields :=
  List.mergeSort_perm fields _

theorem keysOrdered_trans {α : Type} (first second third : String × α) (h : (!decide (second.1 < first.1)) = true)
    (hnext : (!decide (third.1 < second.1)) = true) : (!decide (third.1 < first.1)) = true := by
  simp only [Bool.not_eq_true', decide_eq_false_iff_not, String.not_lt] at *
  exact String.le_trans h hnext

theorem keysOrdered_total {α : Type} (first second : String × α) :
    (!decide (second.1 < first.1) || !decide (first.1 < second.1)) = true := by
  simp only [Bool.or_eq_true, Bool.not_eq_true', decide_eq_false_iff_not, String.not_lt]
  exact String.le_total _ _

/-- Fields of different keys come into one order. -/
theorem sortByKey_eq_of_perm {α : Type} {fields others : List (String × α)} (hkeys : (Entries.keys fields).Nodup)
    (h : fields.Perm others) : sortByKey fields = sortByKey others := by
  have hperm : (sortByKey fields).Perm (sortByKey others) :=
    ((sortByKey_perm fields).trans h).trans (sortByKey_perm others).symm
  refine hperm.eq_of_pairwise (fun one other hone hother hle hge => ?_)
    (List.pairwise_mergeSort keysOrdered_trans keysOrdered_total fields)
    (List.pairwise_mergeSort keysOrdered_trans keysOrdered_total others)
  simp only [Bool.not_eq_true', decide_eq_false_iff_not, String.not_lt] at hle hge
  have hother := h.mem_iff.mpr ((sortByKey_perm others).mem_iff.mp hother)
  exact List.inj_on_of_nodup_map hkeys ((sortByKey_perm fields).mem_iff.mp hone) hother (String.le_antisymm hle hge)

/-- Fields of one key stay in their order, so that the first of them is found in the place of all. -/
theorem get?_sortByKey {α : Type} (fields : List (String × α)) (key : String) :
    Entries.get? (sortByKey fields) key = Entries.get? fields key := by
  have hsorted : (fields.filter fun field => field.1 = key).Pairwise fun left right => !decide (right.1 < left.1) := by
    refine List.pairwise_of_forall_mem_list fun left hleft right hright => ?_
    have hsame : left.1 = right.1 := by simp_all
    simp [hsame]
  have hsublist := List.sublist_mergeSort keysOrdered_trans keysOrdered_total hsorted List.filter_sublist
  have hfilter : fields.filter (fun field => field.1 = key) = (sortByKey fields).filter fun field => field.1 = key := by
    have hagain := hsublist.filter fun field => field.1 = key
    rw [List.filter_filter] at hagain
    simp only [Bool.and_self] at hagain
    exact hagain.eq_of_length ((sortByKey_perm fields).filter _).length_eq.symm
  rw [Entries.get?, Entries.get?, ← List.head?_filter, ← List.head?_filter, hfilter]

namespace Projection

theorem jsonFields_eq (indent : String) (fields : List (String × Projection)) :
    jsonFields indent fields = Entries.mapValues fields (·.jsonText indent) := by
  induction fields with
  | nil => rfl
  | cons field fields ih => rw [jsonFields, ih, Entries.mapValues_cons]

/-- In which order an object has its fields is not seen in its text. -/
theorem jsonText_of_perm {fields others : List (String × Projection)} (hkeys : (Entries.keys fields).Nodup)
    (h : fields.Perm others) (indent : String) : (object fields).jsonText indent = (object others).jsonText indent := by
  have hfields : sortByKey (jsonFields (indent ++ "  ") fields) = sortByKey (jsonFields (indent ++ "  ") others) := by
    rw [jsonFields_eq, jsonFields_eq]
    exact sortByKey_eq_of_perm (by rwa [Entries.keys_mapValues]) (h.map _)
  rw [jsonText, jsonText, hfields]

theorem exists_of_mem_jsonFields {indent : String} {fields : List (String × Projection)} {field : String × String}
    (h : field ∈ sortByKey (jsonFields indent fields)) : ∃ value, (field.1, value) ∈ fields ∧ value.jsonText indent = field.2 := by
  rw [(sortByKey_perm _).mem_iff, jsonFields_eq] at h
  obtain ⟨⟨key, value⟩, hmem, rfl⟩ := List.mem_map.mp h
  exact ⟨value, hmem, rfl⟩

theorem jsonField_injective : Function.Injective fun field : String × String => jsonString field.1 ++ ": " ++ field.2 := by
  rintro ⟨key, text⟩ ⟨other, found⟩ h
  replace h := congrArg String.toList h
  simp only [String.toList_append, List.append_assoc] at h
  obtain ⟨rfl, hrest⟩ := JsonText.jsonString_append_inj h
  rw [String.toList_inj.mp (List.append_cancel_left hrest)]

/-! ## Documents -/

/-- A number for each way that a text may begin. -/
def opening (c : Char) : Nat :=
  if c = '"' then 0 else if c = '[' then 1 else if c = '\x7b' then 2 else if c = 't' ∨ c = 'f' then 3 else 4

/-- The way that the text of a projection begins. -/
def kindNumber : Projection → Nat
  | .text _ => 0
  | .list _ => 1
  | .object _ => 2
  | .bool _ => 3
  | .int _ => 4

theorem opening_of_isNumeric {c : Char} (h : JsonText.isNumeric c = true) : opening c = 4 := by
  have hne {d : Char} (hd : JsonText.isNumeric d = false) : c ≠ d := by
    rintro rfl
    rw [h] at hd
    cases hd
  simp [opening, hne (show JsonText.isNumeric '"' = false by decide), hne (show JsonText.isNumeric '[' = false by decide),
    hne (show JsonText.isNumeric '\x7b' = false by decide), hne (show JsonText.isNumeric 't' = false by decide),
    hne (show JsonText.isNumeric 'f' = false by decide)]

theorem toList_jsonText_true (indent : String) : ((bool true).jsonText indent).toList = ['t', 'r', 'u', 'e'] := by
  rw [jsonText, if_pos rfl]
  rfl

theorem toList_jsonText_false (indent : String) : ((bool false).jsonText indent).toList = ['f', 'a', 'l', 's', 'e'] := by
  rw [jsonText, if_neg Bool.false_ne_true]
  rfl

theorem exists_opening (indent : String) (document : Projection) :
    ∃ c rest, (document.jsonText indent).toList = c :: rest ∧ opening c = document.kindNumber := by
  have hblock {opening closing : String} {first : Char} (hopening : opening.toList = [first]) (parts : List String) :
      ∃ rest, (jsonBlock indent opening closing parts).toList = first :: rest := by
    rw [jsonBlock]
    split <;> simp [hopening]
  cases document with
  | text value => exact ⟨'"', _, by rw [jsonText, jsonString, String.toList_ofList, List.cons_append], rfl⟩
  | int value =>
      obtain ⟨c, rest, hrender⟩ : ∃ c rest, (Decimal.render value).toList = c :: rest := by
        rw [Decimal.render, String.toList_ofList]
        cases value with
        | ofNat n => exact List.exists_cons_of_ne_nil Nat.toDigits_ne_nil
        | negSucc n => exact ⟨_, _, rfl⟩
      have hfirst : c ∈ (Decimal.render value).toList := hrender ▸ List.mem_cons_self
      exact ⟨c, rest, hrender, opening_of_isNumeric (JsonText.isNumeric_of_mem_render hfirst)⟩
  | bool value =>
      cases value with
      | true => exact ⟨'t', _, toList_jsonText_true indent, rfl⟩
      | false => exact ⟨'f', _, toList_jsonText_false indent, rfl⟩
  | list items =>
      obtain ⟨rest, hrest⟩ := hblock (show "[".toList = ['['] from rfl) (items.map jsonString)
      exact ⟨'[', rest, hrest, rfl⟩
  | object fields =>
      obtain ⟨rest, hrest⟩ := hblock (show "\x7b".toList = ['\x7b'] from rfl) _
      exact ⟨'\x7b', rest, hrest, rfl⟩

/-- Where the text of the one is the start, it is not that of the other, unless they are the same. -/
def Tells (indent : String) (document other : Projection) : Prop :=
  ∀ rest after, JsonText.Bounded rest → JsonText.Bounded after →
    (document.jsonText indent).toList ++ rest = (other.jsonText indent).toList ++ after →
    document.Same other ∧ document.jsonText indent = other.jsonText indent ∧ rest = after

theorem tells_object {fields : List (String × Projection)}
    (ih : ∀ field ∈ fields, ∀ indent other, Tells indent field.2 other) (indent : String) (others : List (String × Projection)) :
    Tells indent (.object fields) (.object others) := by
  intro rest after _ _ h
  rw [jsonText, jsonText] at h
  have hseparable : ∀ part ∈ (sortByKey (jsonFields (indent ++ "  ") fields)).map (fun field => jsonString field.1 ++ ": " ++ field.2),
      ∀ other ∈ (sortByKey (jsonFields (indent ++ "  ") others)).map (fun field => jsonString field.1 ++ ": " ++ field.2),
        JsonText.Separable part.toList other.toList := by
    simp only [List.forall_mem_map]
    intro field hfield other hother rest after hrest hafter h
    obtain ⟨value, hvalue, htext⟩ := exists_of_mem_jsonFields hfield
    obtain ⟨found, _, hfound⟩ := exists_of_mem_jsonFields hother
    simp only [String.toList_append, List.append_assoc] at h ⊢
    obtain ⟨hkey, hnext⟩ := JsonText.jsonString_append_inj h
    have hvalues := List.append_cancel_left hnext
    rw [← htext, ← hfound] at hvalues ⊢
    obtain ⟨_, hsame, hrest⟩ := ih _ hvalue _ found rest after hrest hafter hvalues
    exact ⟨by rw [hkey, hsame], hrest⟩
  obtain ⟨hparts, hrest⟩ := JsonText.jsonBlock_append_inj (show "\x7d".toList = ['\x7d'] from rfl) (by decide) hseparable h
  have hfields := List.map_injective_iff.mpr jsonField_injective hparts
  refine ⟨same_object fun key => ?_, by rw [jsonText, jsonText, hparts], hrest⟩
  have hkey : (Entries.get? fields key).map (·.jsonText (indent ++ "  ")) =
      (Entries.get? others key).map (·.jsonText (indent ++ "  ")) := by
    rw [← Entries.get?_mapValues, ← jsonFields_eq, ← get?_sortByKey, hfields, get?_sortByKey, jsonFields_eq,
      Entries.get?_mapValues]
  cases hvalue : Entries.get? fields key with
  | none =>
      rw [hvalue, Option.map_none, eq_comm, Option.map_eq_none_iff] at hkey
      rw [hkey]
      exact .none
  | some value =>
      rw [hvalue, Option.map_some, eq_comm, Option.map_eq_some_iff] at hkey
      obtain ⟨found, hfound, htext⟩ := hkey
      rw [hfound]
      have hmem := Entries.mem_of_get? hvalue
      exact .some (ih _ hmem _ found [] [] JsonText.bounded_nil JsonText.bounded_nil (by rw [htext])).1

/-- What holds of scalars, and of objects if it holds of their members, holds of all projections. -/
theorem member_induction {motive : Projection → Prop} (text : ∀ value, motive (.text value)) (int : ∀ value, motive (.int value))
    (bool : ∀ value, motive (.bool value)) (list : ∀ items, motive (.list items))
    (object : ∀ fields, (∀ field ∈ fields, motive field.2) → motive (.object fields)) : ∀ document, motive document
  | .text value => text value
  | .int value => int value
  | .bool value => bool value
  | .list items => list items
  | .object fields => object fields fun field _ => member_induction text int bool list object field.2
termination_by document => sizeOf document
decreasing_by
  have hlt := List.sizeOf_lt_of_mem ‹field ∈ fields›
  obtain ⟨key, value⟩ := field
  simp only [Prod.mk.sizeOf_spec, Projection.object.sizeOf_spec] at hlt ⊢
  omega

theorem kindNumber_eq {indent : String} {document other : Projection} {rest after : List Char}
    (h : (document.jsonText indent).toList ++ rest = (other.jsonText indent).toList ++ after) :
    document.kindNumber = other.kindNumber := by
  obtain ⟨c, _, htext, hopening⟩ := exists_opening indent document
  obtain ⟨d, _, hother, hfound⟩ := exists_opening indent other
  rw [htext, hother] at h
  rw [← hopening, ← hfound, (List.cons.inj h).1]

theorem tells (document : Projection) : ∀ indent other, Tells indent document other := by
  induction document using member_induction with
  | text value =>
      intro indent other rest after hrest hafter h
      cases other with
      | text found =>
          obtain ⟨rfl, hrest⟩ := JsonText.jsonString_append_inj h
          exact ⟨.refl _, rfl, hrest⟩
      | _ => cases kindNumber_eq h
  | int value =>
      intro indent other rest after hrest hafter h
      cases other with
      | int found =>
          obtain ⟨rfl, hrest⟩ := JsonText.render_append_inj hrest hafter h
          exact ⟨.refl _, rfl, hrest⟩
      | _ => cases kindNumber_eq h
  | bool value =>
      intro indent other rest after hrest hafter h
      cases other with
      | bool found =>
          cases value <;> cases found
          · exact ⟨.refl _, rfl, List.append_cancel_left h⟩
          · simp [toList_jsonText_true, toList_jsonText_false] at h
          · simp [toList_jsonText_true, toList_jsonText_false] at h
          · exact ⟨.refl _, rfl, List.append_cancel_left h⟩
      | _ => cases kindNumber_eq h
  | list items =>
      intro indent other rest after hrest hafter h
      cases other with
      | list others =>
          rw [jsonText, jsonText] at h
          have hseparable : ∀ part ∈ items.map jsonString, ∀ other ∈ others.map jsonString,
              JsonText.Separable part.toList other.toList := by
            simp only [List.forall_mem_map]
            exact fun item _ other _ => JsonText.separable_jsonString item other
          obtain ⟨hitems, hrest⟩ := JsonText.jsonBlock_append_inj (show "]".toList = [']'] from rfl) (by decide) hseparable h
          obtain rfl := List.map_injective_iff.mpr JsonText.jsonString_injective hitems
          exact ⟨.refl _, rfl, hrest⟩
      | _ => cases kindNumber_eq h
  | object fields ih =>
      intro indent other rest after hrest hafter h
      cases other with
      | object others => exact tells_object ih indent others rest after hrest hafter h
      | _ => cases kindNumber_eq h

/-- Documents of one text are the same. -/
theorem same_of_jsonText_eq {indent : String} {document other : Projection}
    (h : document.jsonText indent = other.jsonText indent) : document.Same other :=
  (tells document indent other [] [] JsonText.bounded_nil JsonText.bounded_nil (by rw [h])).1

end Projection

end LayeredConfig
