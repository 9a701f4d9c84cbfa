import Scriptlet.Text.CharSet

/-!
White space at the ends of a text.
-/

namespace Scriptlet.Text

/-- The White_Space property. The byte order mark is not in it. -/
def blanks : CharSet where
  bounds := [
    0x9, 0xE, 0x20, 0x21, 0x85, 0x86, 0xA0, 0xA1, 0x1680, 0x1681, 0x2000, 0x200B, 0x2028, 0x202A,
    0x202F, 0x2030, 0x205F, 0x2060, 0x3000, 0x3001]

def dropBlanks (cs : List Char) : List Char :=
  cs.dropWhile blanks.contains

def dropEndBlanks (cs : List Char) : List Char :=
  (dropBlanks cs.reverse).reverse

def trimStart (s : String) : String :=
  String.ofList (dropBlanks s.toList)

def trimEnd (s : String) : String :=
  String.ofList (dropEndBlanks s.toList)

def trim (s : String) : String :=
  String.ofList (dropEndBlanks (dropBlanks s.toList))

end Scriptlet.Text
