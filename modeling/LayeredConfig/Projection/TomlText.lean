import LayeredConfig.Projection.JsonText

/-!
# Projections as TOML text

A section is a table: a header with the path to it, its scalars, and then its own sections, everything in
the order of the keys. A section that holds only sections has no header. Strings are written in the first
of five forms that can hold them.
-/

namespace LayeredConfig

/-! ## Strings and keys -/

def isTomlControl (c : Char) : Bool :=
  (c.toNat < 0x20 || c.toNat == 0x7f) && c != '\t' && c != '\n'

/-- The greatest number of `mark`s in a row, given the number of them right before the text. -/
def longestRun (mark : Char) (before : Nat) : List Char → Nat
  | [] => before
  | c :: rest =>
    if c = mark then longestRun mark (before + 1) rest else max before (longestRun mark 0 rest)

def tomlChar (c : Char) : List Char :=
  if c = '\x08' then ['\\', 'b']
  else if c = '\t' then ['\\', 't']
  else if c = '\n' then ['\\', 'n']
  else if c = '\x0c' then ['\\', 'f']
  else if c = '\r' then ['\\', 'r']
  else if c = '\\' then ['\\', '\\']
  else if c = '"' then ['\\', '"']
  else if isTomlControl c then ['\\', 'u'] ++ (hexDigits 4 c.toNat).map Char.toUpper
  else [c]

/-- The characters of a string between triple double quotes, after `quotes` quotes in a row. Line feeds
stay, and the third quote in a row is escaped. -/
def tomlMultiline (quotes : Nat) : List Char → List Char
  | [] => []
  | c :: rest =>
    if c = '"' then
      if quotes < 2 then '"' :: tomlMultiline (quotes + 1) rest
      else '\\' :: '"' :: tomlMultiline 0 rest
    else if c = '\n' then '\n' :: tomlMultiline 0 rest
    else tomlChar c ++ tomlMultiline 0 rest

def tomlBasic (cs : List Char) : List Char := '"' :: cs.flatMap tomlChar ++ ['"']

/-- A string between single quotes, in which nothing is escaped. -/
def tomlLiteral (cs : List Char) : List Char := '\'' :: cs ++ ['\'']

/-- The line feed that comes before a string of several lines and is not part of it. -/
def tomlLead (cs : List Char) : List Char := if '\n' ∈ cs then ['\n'] else []

def tomlBasicBlock (cs : List Char) : List Char :=
  ['"', '"', '"'] ++ tomlLead cs ++ tomlMultiline 0 cs ++ ['"', '"', '"']

def tomlLiteralBlock (cs : List Char) : List Char :=
  ['\'', '\'', '\''] ++ tomlLead cs ++ cs ++ ['\'', '\'', '\'']

/-- A string in the first form that holds it without escapes, or else with escapes. -/
def tomlString (text : String) : String :=
  let cs := text.toList
  let controls := cs.any isTomlControl
  let lines := '\n' ∈ cs
  String.ofList <|
    if !controls && '\\' ∉ cs && '"' ∉ cs && !lines then tomlBasic cs
    else if !controls && '\'' ∉ cs && !lines then tomlLiteral cs
    else if !controls && '\\' ∉ cs && longestRun '"' 0 cs ≤ 2 then tomlBasicBlock cs
    else if !controls && longestRun '\'' 0 cs ≤ 2 then tomlLiteralBlock cs
    else if lines then tomlBasicBlock cs
    else tomlBasic cs

def isBareKeyChar (c : Char) : Bool := c.isAlphanum || c == '_' || c == '-'

def tomlKey (key : String) : String :=
  let cs := key.toList
  let controls := cs.any fun c => isTomlControl c || c == '\n'
  String.ofList <|
    if !cs.isEmpty && cs.all isBareKeyChar then cs
    else if !controls && '\\' ∉ cs && '"' ∉ cs then tomlBasic cs
    else if !controls && '\'' ∉ cs then tomlLiteral cs
    else tomlBasic cs

/-! ## Tables -/

/-- A list on one line if it has at most one item, and else with one item a line. -/
def tomlList : List String → String
  | [] => "[]"
  | [item] => "[" ++ tomlString item ++ "]"
  | items => "[\n" ++ String.join (items.map fun item => "    " ++ tomlString item ++ ",\n") ++ "]"

/-- The text of a scalar. An object is written as a table, not as a value. -/
def Projection.tomlScalar? : Projection → Option String
  | .text value => some (tomlString value)
  | .int value => some (Decimal.render value)
  | .bool value => some (if value then "true" else "false")
  | .list items => some (tomlList items)
  | .object _ => none

/-- The lines of a table's scalars, in the order of their keys. -/
def tomlScalars (fields : List (String × Projection)) : List String :=
  (sortByKey (fields.filterMap fun field => field.2.tomlScalar?.map fun text => (field.1, text))).map
    fun field => tomlKey field.1 ++ " = " ++ field.2 ++ "\n"

mutual

/-- The tables that a field makes up, each with its header, under the path of the table around it. -/
def Projection.tomlTables (path : List String) : Projection → List String
  | .object fields =>
    let scalars := tomlScalars fields
    let header := if path.isEmpty then "" else "[" ++ ".".intercalate (path.map tomlKey) ++ "]\n"
    let own := if fields.isEmpty || !scalars.isEmpty then [header ++ String.join scalars] else []
    let inner := sortByKey (Projection.tomlFields path fields)
    own ++ inner.flatMap Prod.snd
  | _ => []

def Projection.tomlFields (path : List String) :
    List (String × Projection) → List (String × List String)
  | [] => []
  | (key, value) :: rest =>
    (key, value.tomlTables (path ++ [key])) :: Projection.tomlFields path rest

end

/-- The TOML text of a projection, with a blank line before every table but the first. -/
def Projection.tomlText (projection : Projection) : String :=
  "\n".intercalate (projection.tomlTables [])

end LayeredConfig
