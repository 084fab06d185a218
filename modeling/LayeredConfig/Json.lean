import LayeredConfig.Numeral

/-!
# JSON documents and the types of their texts

A JSON document, and the inference of types: a text that reads as a boolean, a whole number or a number
with a decimal point becomes that. Texts in arrays stay texts.
-/

namespace LayeredConfig

inductive Json where
  | null
  | bool (value : Bool)
  | int (value : Int)
  | float (value : Float)
  | text (value : String)
  | array (items : List Json)
  | object (fields : List (String × Json))

/-- The value that a text is read as. The words `true` and `false` may be in any case. A whole number is
digits after an optional `-`, and fits 64 bits. A number with a decimal point is finite. -/
def inferText (text : String) : Json :=
  let cs := text.toList
  let word := String.ofList (cs.map Char.toLower)
  if word = "true" then .bool true
  else if word = "false" then .bool false
  else
    let whole := if cs.head? = some '+' then none else Decimal.int64? cs
    match whole with
    | some n => .int n.toInt
    | none =>
      if '.' ∈ cs then
        match (Numeral.ofText? cs).map Numeral.toFloat with
        | some value => if value.isFinite then .float value else .text text
        | none => .text text
      else .text text

mutual

/-- Infers the types of all texts outside arrays. -/
def Json.infer : Json → Json
  | .text value => inferText value
  | .object fields => .object (Json.inferFields fields)
  | other => other

def Json.inferFields : List (String × Json) → List (String × Json)
  | [] => []
  | (key, value) :: rest => (key, value.infer) :: Json.inferFields rest

end

end LayeredConfig
