/-!
The order of texts by their 16-bit code units.
-/

namespace Scriptlet.Text

/-- The code units of a character: one, or a surrogate pair. -/
def unitsOf (c : Char) : List Nat :=
  let n := c.toNat
  if n < 0x10000 then [n]
  else [0xD800 + (n - 0x10000) / 0x400, 0xDC00 + (n - 0x10000) % 0x400]

def units (s : String) : List Nat :=
  s.toList.flatMap unitsOf

def compareUnits (a b : String) : Ordering :=
  List.compareLex compare (units a) (units b)

end Scriptlet.Text
