import LayeredConfig.Text.Blank
import LayeredConfig.Text.Split

/-!
# Lists in a text

A list is written as its items with commas between them. Reading one drops a blank on either side of every
comma, so that `a, b` and `a,b` are the same list.
-/

namespace LayeredConfig

def joinItems (items : List String) : String :=
  String.ofList ([','].intercalate (items.map String.toList))

def dropBlank : List Char → List Char
  | [] => []
  | c :: rest => if Text.isBlank c then rest else c :: rest

def dropLastBlank (cs : List Char) : List Char := (dropBlank cs.reverse).reverse

/-- Drops the blanks beside the commas, given the parts that each come after a comma. -/
def itemsAfterComma : List (List Char) → List (List Char)
  | [] => []
  | [part] => [dropBlank part]
  | part :: rest => dropLastBlank (dropBlank part) :: itemsAfterComma rest

/-- Drops the blanks beside the commas, given all parts between them. -/
def itemsOfParts : List (List Char) → List (List Char)
  | [] => []
  | [part] => [part]
  | part :: rest => dropLastBlank part :: itemsAfterComma rest

/-- The items between commas. One blank on either side of a comma is not part of an item. -/
def splitItems (text : String) : List String :=
  (itemsOfParts (Text.splitAtChar ',' text.toList)).map String.ofList

end LayeredConfig
