/-!
Places in a source text.
-/

namespace Scriptlet

/-- The bytes of a source text from `start` up to `stop`. -/
structure Span where
  start : Nat
  stop : Nat
  deriving DecidableEq, Repr, Inhabited

end Scriptlet
