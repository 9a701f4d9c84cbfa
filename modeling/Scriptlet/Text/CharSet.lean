/-!
Sets of characters given by the code points at which membership changes.
-/

namespace Scriptlet.Text

/-- An increasing list of code points: the first one opens a range of members, the second one
closes it (exclusively), the third opens the next one. -/
structure CharSet where
  bounds : List Nat

namespace CharSet

/-- Whether `c` is inside after passing the bounds up to it. -/
def inside : Bool → List Nat → Nat → Bool
  | now, [], _ => now
  | now, b :: rest, c => if c < b then now else inside (!now) rest c

def contains (s : CharSet) (c : Char) : Bool :=
  inside false s.bounds c.toNat

end CharSet

end Scriptlet.Text
