import LayeredConfig.Text.EscapeTable

/-!
# Quoted texts

A text between double quotes, in which quotes, backslashes and characters without a printed form are
written as escapes: `\0 \t \r \n \" \\`, and the code in hexadecimal between braces for any other.
-/

namespace LayeredConfig.Text

/-- The written form of one character between quotes. -/
def quotedChar (c : Char) : List Char :=
  if c = '\x00' then ['\\', '0']
  else if c = '\t' then ['\\', 't']
  else if c = '\r' then ['\\', 'r']
  else if c = '\n' then ['\\', 'n']
  else if c = '"' then ['\\', '"']
  else if c = '\\' then ['\\', '\\']
  else if isUnprintable c then ['\\', 'u', '\x7b'] ++ Nat.toDigits 16 c.toNat ++ ['\x7d']
  else [c]

/-- The text between double quotes. -/
def quoted (text : String) : String :=
  String.ofList ('"' :: text.toList.flatMap quotedChar ++ ['"'])

end LayeredConfig.Text
