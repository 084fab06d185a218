import LayeredConfig.Projection

/-!
# Projections as JSON text

One field or item a line, two blanks further in for each level, and the fields in the order of their keys.
Only what has to be escaped is escaped.
-/

namespace LayeredConfig

/-- A hexadecimal number of at least `width` digits. -/
def hexDigits (width n : Nat) : List Char :=
  let digits := Nat.toDigits 16 n
  List.replicate (width - digits.length) '0' ++ digits

def jsonChar (c : Char) : List Char :=
  if c = '"' then ['\\', '"']
  else if c = '\\' then ['\\', '\\']
  else if c = '\x08' then ['\\', 'b']
  else if c = '\t' then ['\\', 't']
  else if c = '\n' then ['\\', 'n']
  else if c = '\x0c' then ['\\', 'f']
  else if c = '\r' then ['\\', 'r']
  else if c.toNat < 0x20 then ['\\', 'u'] ++ hexDigits 4 c.toNat
  else [c]

def jsonString (text : String) : String :=
  String.ofList ('"' :: text.toList.flatMap jsonChar ++ ['"'])

/-- A list of texts on one line, without blanks. -/
def jsonList (items : List String) : String := "[" ++ ",".intercalate (items.map jsonString) ++ "]"

/-- Parts on lines of their own between two brackets. -/
def jsonBlock (indent : String) (opening closing : String) (parts : List String) : String :=
  if parts.isEmpty then opening ++ closing
  else
    opening ++ "\n" ++ ",\n".intercalate (parts.map fun part => indent ++ "  " ++ part)
      ++ "\n" ++ indent ++ closing

mutual

/-- The JSON text of a projection whose first line stands behind `indent`. -/
def Projection.jsonText (indent : String) : Projection → String
  | .text value => jsonString value
  | .int value => Decimal.render value
  | .bool value => if value then "true" else "false"
  | .list items => jsonBlock indent "[" "]" (items.map jsonString)
  | .object fields =>
    jsonBlock indent "\x7b" "\x7d" <|
      (sortByKey (Projection.jsonFields (indent ++ "  ") fields)).map fun field =>
        jsonString field.1 ++ ": " ++ field.2

def Projection.jsonFields (indent : String) : List (String × Projection) → List (String × String)
  | [] => []
  | (key, value) :: rest => (key, value.jsonText indent) :: Projection.jsonFields indent rest

end

end LayeredConfig
