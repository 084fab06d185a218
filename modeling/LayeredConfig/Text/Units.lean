/-!
# UTF-16 code units

A character of the basic plane is one unit; any other is a high and a low surrogate.
-/

namespace LayeredConfig.Text

/-- The UTF-16 code units of a character. -/
def charUnits (c : Char) : List UInt16 :=
  let code := c.toNat
  if code < 0x10000 then [code.toUInt16]
  else
    let offset := code - 0x10000
    [(0xd800 + offset / 0x400).toUInt16, (0xdc00 + offset % 0x400).toUInt16]

/-- The UTF-16 code units of a text. -/
def units (cs : List Char) : List UInt16 := cs.flatMap charUnits

end LayeredConfig.Text
