import DynImp.Text.RangeTable

/-!
# Blank space

The Unicode property *White_Space*: what separates tokens and is trimmed from a
prompt line.
-/

namespace DynImp.Text

/-- **Table.** The code points with the property White_Space. -/
def blankTable : RangeTable := [
  (0x9, 0xD), (0x20, 0x20), (0x85, 0x85), (0xA0, 0xA0), (0x1680, 0x1680), (0x2000, 0x200A),
  (0x2028, 0x2029), (0x202F, 0x202F), (0x205F, 0x205F), (0x3000, 0x3000)]

/-- White space of any script, line breaks included. -/
def isBlank (c : Char) : Bool := blankTable.contains c

end DynImp.Text
