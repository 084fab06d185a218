import LayeredConfig.Json

/-!
# The types of written scalars

A number in decimal is inferred to be that number, if 64 bits hold it.
-/

namespace LayeredConfig

open Decimal

theorem toLower_of_isDigit {c : Char} (h : c.isDigit = true) : c.toLower = c := by
  have hdigit := Char.isDigit_iff_toNat.mp h
  have hbound : '9'.toNat < 'A'.toNat := by decide
  refine dif_neg fun hupper => ?_
  have hupper : 'A'.toNat ≤ c.toNat := hupper.1
  omega

theorem toLower_of_mem_render {n : Int} {c : Char} (h : c ∈ (render n).toList) : c.toLower = c := by
  rcases mem_render h with rfl | hdigit
  · decide
  · exact toLower_of_isDigit hdigit

theorem render_ne_of_mem (n : Int) {word : String} (letter : Char) (hword : letter ∈ word.toList)
    (hletter : ¬ (letter = '-' ∨ letter.isDigit = true)) : render n ≠ word := by
  rintro rfl
  exact hletter (mem_render hword)

theorem head?_render_ne_plus (n : Int) : (render n).toList.head? ≠ some '+' := by
  intro h
  rcases mem_render (List.mem_of_head? h) with h | h
  · exact absurd h (by decide)
  · exact absurd h (by decide)

theorem inferText_render {n : Int} (hmin : Int64.minValue.toInt ≤ n) (hmax : n ≤ Int64.maxValue.toInt) :
    inferText (render n) = .int n := by
  have hlower : String.ofList ((render n).toList.map Char.toLower) = render n := by
    rw [List.map_congr_left fun c => toLower_of_mem_render, List.map_id', String.ofList_toList]
  have htrue : render n ≠ "true" := render_ne_of_mem n 't' (by decide) (by decide)
  have hfalse : render n ≠ "false" := render_ne_of_mem n 'f' (by decide) (by decide)
  have hback : (Int64.ofInt n).toInt = n :=
    Int64.toInt_ofInt_of_le hmin (Int.lt_add_one_of_le hmax)
  have hwhole : int64? (render n).toList = some (Int64.ofInt n) := by
    rw [render, String.toList_ofList, int64?_ofInt hmin hmax]
  simp only [inferText, hlower, htrue, hfalse, if_false, head?_render_ne_plus n, hwhole, hback]

end LayeredConfig
