import LayeredConfig.Proofs.Json.Inference
import Mathlib.Algebra.Ring.Int.Defs
import Mathlib.Data.List.Forall2

/-!
# Documents with inferred types

Inference gives every text outside arrays the type that it is written in, and leaves everything else of a document as it
is. What it leaves a text stays one however often inference is repeated.
-/

namespace LayeredConfig

/-! ## Words in any case -/

theorem toNat_toLower (c : Char) :
    c.toLower.toNat = if 65 ≤ c.toNat ∧ c.toNat ≤ 90 then c.toNat + 32 else c.toNat := by
  by_cases h : 65 ≤ c.toNat ∧ c.toNat ≤ 90
  · have hcapital : c.val ≥ 'A'.val ∧ c.val ≤ 'Z'.val := h
    have hlower : c.toLower = _ := dif_pos hcapital
    have hoffset : ('a'.val - 'A'.val).toNat = 32 := by decide
    rw [if_pos h, hlower, Char.toNat_mk, UInt32.toNat_add, hoffset, Char.toNat_val]
    omega
  · have hother : ¬ (c.val ≥ 'A'.val ∧ c.val ≤ 'Z'.val) := h
    rw [if_neg h]
    exact congrArg Char.toNat (dif_neg hother)

theorem toNat_toUpper {c : Char} (h : 97 ≤ c.toNat ∧ c.toNat ≤ 122) : c.toUpper.toNat = c.toNat - 32 := by
  have hsmall : 'a'.val ≤ c.val ∧ c.val ≤ 'z'.val := h
  have hupper : c.toUpper = _ := dif_pos hsmall
  -- The 32 is taken off by adding what wraps around to that.
  have hoffset : ('A'.val - 'a'.val).toNat = 4294967264 := by decide
  rw [hupper, Char.toNat_mk, UInt32.toNat_add, hoffset, Char.toNat_val]
  omega

theorem toNat_of_isLower {c : Char} (h : c.isLower = true) : 97 ≤ c.toNat ∧ c.toNat ≤ 122 := by
  have hrange : (decide (c.val ≥ 'a'.val) && decide (c.val ≤ 'z'.val)) = true := h
  rwa [Bool.and_eq_true, decide_eq_true_eq, decide_eq_true_eq] at hrange

theorem toLower_eq_iff {c letter : Char} (h : letter.isLower = true) :
    c.toLower = letter ↔ c = letter ∨ c = letter.toUpper := by
  have hletter := toNat_of_isLower h
  rw [← Char.toNat_inj, ← Char.toNat_inj, ← Char.toNat_inj, toNat_toLower, toNat_toUpper hletter]
  split <;> omega

/-- The text is the word with any of its letters as capitals. -/
def InAnyCase (word text : String) : Prop :=
  List.Forall₂ (fun c letter => c = letter ∨ c = letter.toUpper) text.toList word.toList

theorem map_toLower_eq_iff {word cs : List Char} (hword : ∀ letter ∈ word, letter.isLower = true) :
    cs.map Char.toLower = word ↔ List.Forall₂ (fun c letter => c = letter ∨ c = letter.toUpper) cs word := by
  induction cs generalizing word with
  | nil => simp [eq_comm]
  | cons c cs ih =>
      cases word with
      | nil => simp
      | cons letter word =>
          obtain ⟨hletter, hword⟩ := List.forall_mem_cons.mp hword
          rw [List.map_cons, List.cons.injEq, List.forall₂_cons, toLower_eq_iff hletter, ih hword]

theorem inAnyCase_iff {word : String} (hword : word.toList.all Char.isLower = true) (text : String) :
    InAnyCase word text ↔ String.ofList (text.toList.map Char.toLower) = word := by
  rw [← String.toList_inj, String.toList_ofList, map_toLower_eq_iff (List.all_eq_true.mp hword), InAnyCase]

/-- A text with a character in it that has no case is no word without that character. -/
theorem lowered_ne_of_mem {text word : String} {c : Char} (hc : c ∈ text.toList) (hlower : c.toLower = c)
    (hword : c ∉ word.toList) : String.ofList (text.toList.map Char.toLower) ≠ word := by
  rintro rfl
  apply hword
  rw [String.toList_ofList, ← hlower]
  exact List.mem_map_of_mem hc

/-! ## Whole numbers -/

namespace Decimal

/-- The text is one or more digits after an optional `-`, and the number is what they denote. -/
inductive Denotes : List Char → Int → Prop where
  | natural {digits} : digits ≠ [] → (∀ c ∈ digits, c.isDigit = true) →
      Denotes digits (Nat.ofDigitChars 10 digits 0)
  | negative {digits} : digits ≠ [] → (∀ c ∈ digits, c.isDigit = true) →
      Denotes ('-' :: digits) (-Nat.ofDigitChars 10 digits 0)

theorem nat?_eq_some_iff {cs : List Char} {n : Nat} :
    nat? cs = some n ↔ (cs ≠ [] ∧ ∀ c ∈ cs, c.isDigit = true) ∧ Nat.ofDigitChars 10 cs 0 = n := by
  rw [nat?, ofDigits_eq, Option.ite_none_right_eq_some, List.all_eq_true, Option.some.injEq]

theorem int?_eq_some_iff {cs : List Char} (hplus : cs.head? ≠ some '+') {n : Int} :
    int? cs = some n ↔ Denotes cs n := by
  constructor
  · intro h
    rw [int?, signed?.eq_def] at h
    split at h
    · rename_i digits
      obtain ⟨size, hsize, rfl⟩ : ∃ size : Nat, nat? digits = some size ∧ -(size : Int) = n := by
        simpa [Option.bind_eq_some_iff] using h
      obtain ⟨⟨hne, hdigits⟩, rfl⟩ := nat?_eq_some_iff.mp hsize
      exact .negative hne hdigits
    · exact absurd rfl hplus
    · obtain ⟨size, hsize, rfl⟩ : ∃ size : Nat, nat? cs = some size ∧ (size : Int) = n := by
        simpa [Option.bind_eq_some_iff] using h
      obtain ⟨⟨hne, hdigits⟩, rfl⟩ := nat?_eq_some_iff.mp hsize
      exact .natural hne hdigits
  · intro h
    cases h with
    | natural hne hdigits =>
        rw [int?, signed?_of_digits hdigits, nat?_eq_some_iff.mpr ⟨⟨hne, hdigits⟩, rfl⟩]
        rfl
    | negative hne hdigits =>
        rw [int?, signed?, nat?_eq_some_iff.mpr ⟨⟨hne, hdigits⟩, rfl⟩]
        rfl

theorem int64?_eq_some_iff {cs : List Char} {n : Int64} : int64? cs = some n ↔ int? cs = some n.toInt := by
  rw [int64?, Option.bind_eq_some_iff]
  constructor
  · rintro ⟨m, hm, h⟩
    split at h
    · rename_i hrange
      cases h
      rwa [Int64.toInt_ofInt_of_le hrange.1 (Int.lt_add_one_of_le hrange.2)]
    · cases h
  · intro h
    exact ⟨n.toInt, h, by rw [if_pos ⟨Int64.minValue_le_toInt n, Int64.toInt_le n⟩, Int64.ofInt_toInt]⟩

theorem Denotes.exists_digit {cs : List Char} {n : Int} (h : Denotes cs n) : ∃ c ∈ cs, c.isDigit = true := by
  cases h with
  | natural hne hdigits =>
      obtain ⟨c, hc⟩ := List.exists_mem_of_ne_nil _ hne
      exact ⟨c, hc, hdigits c hc⟩
  | negative hne hdigits =>
      obtain ⟨c, hc⟩ := List.exists_mem_of_ne_nil _ hne
      exact ⟨c, List.mem_cons_of_mem _ hc, hdigits c hc⟩

theorem Denotes.mem {cs : List Char} {n : Int} (h : Denotes cs n) {c : Char} (hc : c ∈ cs) :
    c = '-' ∨ c.isDigit = true := by
  cases h with
  | natural _ hdigits => exact .inr (hdigits c hc)
  | negative _ hdigits => exact (List.mem_cons.mp hc).imp_right (hdigits c)

end Decimal

/-! ## Texts -/

open Decimal

/-- The value that stands for a text: a boolean for one of two words, a number for a text that is written as one and is
in the range of its type, and else the text itself. -/
inductive ReadsAs (text : String) : Json → Prop where
  | bool {value : Bool} : InAnyCase (if value then "true" else "false") text → ReadsAs text (.bool value)
  | int {n} : Denotes text.toList n → -2 ^ 63 ≤ n → n < 2 ^ 63 → ReadsAs text (.int n)
  | float {numeral} : '.' ∈ text.toList → Numeral.ofText? text.toList = some numeral →
      numeral.toFloat.isFinite = true → ReadsAs text (.float numeral.toFloat)
  | text : (∀ value : Bool, ¬ InAnyCase (if value then "true" else "false") text) →
      (∀ n, Denotes text.toList n → ¬ (-2 ^ 63 ≤ n ∧ n < 2 ^ 63)) →
      (∀ numeral, '.' ∈ text.toList → Numeral.ofText? text.toList = some numeral →
        numeral.toFloat.isFinite = false) →
      ReadsAs text (.text text)

theorem inAnyCase_true_iff {text : String} :
    InAnyCase "true" text ↔ String.ofList (text.toList.map Char.toLower) = "true" :=
  inAnyCase_iff (by decide) text

theorem inAnyCase_false_iff {text : String} :
    InAnyCase "false" text ↔ String.ofList (text.toList.map Char.toLower) = "false" :=
  inAnyCase_iff (by decide) text

theorem wholeNumber_eq_some_iff {cs : List Char} {n : Int64} :
    (if cs.head? = some '+' then none else int64? cs) = some n ↔ Denotes cs n.toInt := by
  by_cases hplus : cs.head? = some '+'
  · rw [if_pos hplus]
    refine iff_of_false (by simp) fun h => ?_
    exact absurd (h.mem (List.mem_of_head? hplus)) (by decide)
  · rw [if_neg hplus, int64?_eq_some_iff, int?_eq_some_iff hplus]

theorem wholeNumber_eq_none_iff {cs : List Char} :
    (if cs.head? = some '+' then none else int64? cs) = none ↔ ∀ n, Denotes cs n → ¬ (-2 ^ 63 ≤ n ∧ n < 2 ^ 63) := by
  rw [Option.eq_none_iff_forall_ne_some]
  constructor
  · rintro h n hn ⟨hmin, hmax⟩
    rw [← Int64.toInt_ofInt_of_le hmin hmax] at hn
    exact h _ (wholeNumber_eq_some_iff.mpr hn)
  · intro h n hn
    exact h _ (wholeNumber_eq_some_iff.mp hn) ⟨Int64.le_toInt n, Int64.toInt_lt n⟩

theorem readsAs_inferText (text : String) : ReadsAs text (inferText text) := by
  simp only [inferText]
  by_cases htrue : String.ofList (text.toList.map Char.toLower) = "true"
  · rw [if_pos htrue]
    exact .bool (inAnyCase_true_iff.mpr htrue)
  by_cases hfalse : String.ofList (text.toList.map Char.toLower) = "false"
  · rw [if_neg htrue, if_pos hfalse]
    exact .bool (inAnyCase_false_iff.mpr hfalse)
  rw [if_neg htrue, if_neg hfalse]
  cases hwhole : (if text.toList.head? = some '+' then none else int64? text.toList) with
  | some n => exact .int (wholeNumber_eq_some_iff.mp hwhole) (Int64.le_toInt n) (Int64.toInt_lt n)
  | none =>
      have hword (value : Bool) : ¬ InAnyCase (if value then "true" else "false") text := by
        cases value
        · exact mt inAnyCase_false_iff.mp hfalse
        · exact mt inAnyCase_true_iff.mp htrue
      have hnumber := wholeNumber_eq_none_iff.mp hwhole
      simp only
      split
      · rename_i hpoint
        cases hnumeral : Numeral.ofText? text.toList with
        | none => exact .text hword hnumber fun numeral _ h => absurd (hnumeral.symm.trans h) (by simp)
        | some numeral =>
            simp only [Option.map_some]
            split
            · rename_i hfinite
              exact .float hpoint hnumeral hfinite
            · rename_i hfinite
              refine .text hword hnumber fun other _ h => ?_
              obtain rfl := Option.some.inj (hnumeral.symm.trans h)
              exact Bool.eq_false_iff.mpr hfinite
      · rename_i hpoint
        exact .text hword hnumber fun numeral h _ => absurd h hpoint

/-- A text with a digit or a point in it is neither of the words. -/
theorem lowered_ne_of_numeral {text : String} {c : Char} (hc : c ∈ text.toList)
    (hcase : c = '.' ∨ c.isDigit = true) :
    String.ofList (text.toList.map Char.toLower) ≠ "true" ∧ String.ofList (text.toList.map Char.toLower) ≠ "false" := by
  have hlower : c.toLower = c := by
    rcases hcase with rfl | hdigit
    · decide
    · exact toLower_of_isDigit hdigit
  have hother {word : String} (hword : (word.toList.all fun letter => letter != '.' && !letter.isDigit) = true) :
      c ∉ word.toList := by
    intro hmem
    have hletter := List.all_eq_true.mp hword c hmem
    rcases hcase with rfl | hdigit
    · exact absurd hletter (by decide)
    · simp [hdigit] at hletter
  exact ⟨lowered_ne_of_mem hc hlower (hother (by decide)), lowered_ne_of_mem hc hlower (hother (by decide))⟩

theorem ReadsAs.inferText_eq {text : String} {value : Json} (h : ReadsAs text value) : inferText text = value := by
  cases h with
  | @bool value hword =>
      cases value with
      | false => simp [inferText, inAnyCase_false_iff.mp hword]
      | true => simp [inferText, inAnyCase_true_iff.mp hword]
  | @int n hdenotes hmin hmax =>
      obtain ⟨c, hc, hdigit⟩ := hdenotes.exists_digit
      obtain ⟨htrue, hfalse⟩ := lowered_ne_of_numeral hc (.inr hdigit)
      have hback := Int64.toInt_ofInt_of_le hmin hmax
      rw [← hback] at hdenotes
      simp only [inferText, if_neg htrue, if_neg hfalse, wholeNumber_eq_some_iff.mpr hdenotes, hback]
  | float hpoint hnumeral hfinite =>
      obtain ⟨htrue, hfalse⟩ := lowered_ne_of_numeral hpoint (.inl rfl)
      have hwhole := wholeNumber_eq_none_iff.mpr fun n hn => absurd (hn.mem hpoint) (by decide)
      simp only [inferText, if_neg htrue, if_neg hfalse, hwhole, if_pos hpoint, hnumeral, Option.map_some, if_pos hfinite]
  | text hword hnumber hpoint =>
      have htrue := mt inAnyCase_true_iff.mpr (hword true)
      have hfalse := mt inAnyCase_false_iff.mpr (hword false)
      simp only [inferText, if_neg htrue, if_neg hfalse, wholeNumber_eq_none_iff.mpr hnumber]
      split
      · rename_i hmem
        cases hnumeral : Numeral.ofText? text.toList with
        | none => rfl
        | some numeral => simp [hpoint numeral hmem hnumeral]
      · rfl

theorem inferText_eq_iff {text : String} {value : Json} : inferText text = value ↔ ReadsAs text value :=
  ⟨fun h => h ▸ readsAs_inferText text, ReadsAs.inferText_eq⟩

/-- What a text is read as is inferred to be itself. -/
theorem ReadsAs.infer_eq {text : String} {value : Json} (h : ReadsAs text value) : value.infer = value := by
  cases h with
  | text hword hnumber hpoint => exact inferText_eq_iff.mpr (.text hword hnumber hpoint)
  | _ => rfl

/-! ## Documents -/

namespace Json

mutual

/-- The second document is the first with every text outside arrays read as what it is written as: objects have the
same keys, and everything else is the same. -/
inductive Inferred : Json → Json → Prop where
  | text {content value} : ReadsAs content value → Inferred (.text content) value
  | object {fields inferred} : InferredFields fields inferred → Inferred (.object fields) (.object inferred)
  | null : Inferred .null .null
  | bool (value) : Inferred (.bool value) (.bool value)
  | int (value) : Inferred (.int value) (.int value)
  | float (value) : Inferred (.float value) (.float value)
  | array (items) : Inferred (.array items) (.array items)

inductive InferredFields : List (String × Json) → List (String × Json) → Prop where
  | nil : InferredFields [] []
  | cons {key value inferred rest inferredRest} : Inferred value inferred → InferredFields rest inferredRest →
      InferredFields ((key, value) :: rest) ((key, inferred) :: inferredRest)

end

mutual

theorem inferred_infer : (document : Json) → Inferred document document.infer
  | .text _ => .text (inferText_eq_iff.mp rfl)
  | .object fields => .object (inferredFields_inferFields fields)
  | .null => .null
  | .bool value => .bool value
  | .int value => .int value
  | .float value => .float value
  | .array items => .array items

theorem inferredFields_inferFields : (fields : List (String × Json)) → InferredFields fields (inferFields fields)
  | [] => .nil
  | (_, value) :: rest => .cons (inferred_infer value) (inferredFields_inferFields rest)

end

mutual

theorem Inferred.infer_eq {document inferred : Json} (h : Inferred document inferred) : document.infer = inferred := by
  match h with
  | .text hreads => exact inferText_eq_iff.mpr hreads
  | .object hfields => rw [infer, hfields.inferFields_eq]
  | .null | .bool _ | .int _ | .float _ | .array _ => rfl

theorem InferredFields.inferFields_eq {fields inferred : List (String × Json)} (h : InferredFields fields inferred) :
    inferFields fields = inferred := by
  match h with
  | .nil => rfl
  | .cons hvalue hrest => rw [inferFields, hvalue.infer_eq, hrest.inferFields_eq]

end

mutual

theorem infer_infer : (document : Json) → document.infer.infer = document.infer
  | .text _ => ReadsAs.infer_eq (inferText_eq_iff.mp rfl)
  | .object fields => congrArg object (inferFields_inferFields fields)
  | .null | .bool _ | .int _ | .float _ | .array _ => rfl

theorem inferFields_inferFields : (fields : List (String × Json)) →
    inferFields (inferFields fields) = inferFields fields
  | [] => rfl
  | (key, value) :: rest => by rw [inferFields, inferFields, infer_infer value, inferFields_inferFields rest]

end

/-- Inference makes of a document the one with its texts read as what they are written as, and that one it leaves as it
is. A number in decimal that 64 bits hold is read as that number. -/
theorem infer_eq_iff_inferred (document : Json) :
    (∀ inferred, document.infer = inferred ↔ Inferred document inferred) ∧
      document.infer.infer = document.infer ∧
      ∀ n : Int64, (text (Decimal.render n.toInt)).infer = .int n.toInt :=
  ⟨fun _ => ⟨fun h => h ▸ inferred_infer document, Inferred.infer_eq⟩, infer_infer document, fun n =>
    inferText_render (Int64.minValue_le_toInt n) (Int64.toInt_le n)⟩

end Json

end LayeredConfig
