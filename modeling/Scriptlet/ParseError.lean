import Scriptlet.Span

/-!
Why a text is not a program.
-/

namespace Scriptlet

inductive ParseCause where
  /-- The grammar does not admit the text: what was expected at the furthest place. -/
  | rejected (expected : List String) (line column : Nat)
  | unexpected (expected : String)
  | invalidNumber (found : String)
  | invalidEscape (found : String)
  | invalidTarget
  | restNotLast
  | lonelyTry
  | constWithoutValue
  | strayReturn
  deriving DecidableEq, Repr

/-- A cause and the place it concerns. -/
structure BuildError where
  cause : ParseCause
  span : Span
  deriving DecidableEq, Repr

/-- A refused text with the reason for it. -/
structure ParseError where
  cause : ParseCause
  span : Span
  source : String
  deriving DecidableEq, Repr

def BuildError.within (e : BuildError) (source : String) : ParseError :=
  ⟨e.cause, e.span, source⟩

namespace ParseCause

def message : ParseCause → String
  | .rejected expected line column =>
    "Syntax error: expected " ++ String.intercalate ", " expected ++
      s!" at line {line}, column {column}"
  | .unexpected _ => "Unexpected token"
  | .invalidNumber found => s!"Invalid number literal `{found}`"
  | .invalidEscape found => s!"Invalid string escape sequence `{found}`"
  | .invalidTarget => "Invalid assignment target"
  | .restNotLast => "Rest element must be last"
  | .lonelyTry => "Missing catch or finally after try"
  | .constWithoutValue => "Missing initializer in const declaration"
  | .strayReturn => "Illegal return statement"

/-- The code under which the cause is documented. -/
def code : ParseCause → String
  | .rejected _ _ _ => "runjs::parse::syntax_error"
  | .unexpected _ => "runjs::parse::unexpected_token"
  | .invalidNumber _ => "runjs::parse::invalid_number"
  | .invalidEscape _ => "runjs::parse::invalid_string_escape"
  | .invalidTarget => "runjs::parse::invalid_assignment_target"
  | .restNotLast => "runjs::parse::invalid_rest_element"
  | .lonelyTry => "runjs::parse::missing_catch_or_finally"
  | .constWithoutValue => "runjs::parse::missing_const_initializer"
  | .strayReturn => "runjs::parse::return_outside_function"

/-- Advice to the author of the text. -/
def help : ParseCause → String
  | .rejected _ _ _ => "Check the syntax near the highlighted location"
  | .unexpected expected => "Expected " ++ expected
  | .invalidNumber _ => "Number literals are decimal (1, 1.5, 2e10) or hexadecimal (0xFF)"
  | .invalidEscape _ =>
    "Valid escape sequences: \\n, \\t, \\r, \\b, \\f, \\v, \\0, \\xHH, \\uXXXX, \\u\x7bX..\x7d"
  | .invalidTarget =>
    "Only identifiers, member expressions and destructuring patterns can be assigned to"
  | .restNotLast => "Move the `...rest` element to the end of the list"
  | .lonelyTry => "A `try` block needs a `catch` clause, a `finally` clause, or both"
  | .constWithoutValue => "Give the constant a value: `const name = value`"
  | .strayReturn => "`return` is only allowed inside a function body"

end ParseCause

end Scriptlet
