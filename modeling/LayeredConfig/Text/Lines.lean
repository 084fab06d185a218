/-!
# Lines

A line ends before a line feed, or before a carriage return and a line feed. A text that ends with a
line feed has no empty line after it, and a carriage return without a line feed belongs to its line.
-/

namespace LayeredConfig.Text

/-- The lines of a text, without their ends. -/
def lines : List Char → List (List Char)
  | [] => []
  | '\r' :: '\n' :: rest => [] :: lines rest
  | '\n' :: rest => [] :: lines rest
  | c :: rest =>
    match lines rest with
    | [] => [[c]]
    | line :: others => (c :: line) :: others

@[simp] theorem lines_nil : lines [] = [] := rfl

theorem lines_lineFeed (rest : List Char) : lines ('\n' :: rest) = [] :: lines rest := by
  simp [lines]

theorem lines_return_lineFeed (rest : List Char) :
    lines ('\r' :: '\n' :: rest) = [] :: lines rest := by
  simp [lines]

end LayeredConfig.Text
