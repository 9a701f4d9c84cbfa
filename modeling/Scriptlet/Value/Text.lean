import Scriptlet.Number.Layout
import Scriptlet.Number.Reader
import Scriptlet.Text.Quoted
import Scriptlet.Text.Word
import Scriptlet.Value.Property

/-!
Texts of values that run no script code: the plain conversion, the inspection that a console shows,
and the summary of an error.
-/

namespace Scriptlet

namespace Heap

/-- The conversion to text. Arrays join their elements with commas; an array inside itself and the
empty values leave nothing between the commas. `path` holds the arrays around the value, and `fuel`
bounds their number. -/
def textWithin (h : Heap) : Nat → List ArrayRef → Value → String
  | _, _, .undefined => "undefined"
  | _, _, .null => "null"
  | _, _, .boolean b => if b then "true" else "false"
  | _, _, .number x => Number.text x
  | _, _, .string s => s
  | _, _, .object _ => "[object Object]"
  | _, _, .function r =>
    "function " ++ ((h.function? r).map (·.name)).getD "" ++ "() \x7b [native code] \x7d"
  | 0, _, .array _ => ""
  | fuel + 1, path, .array r =>
    if path.contains r then ""
    else
      String.intercalate "," ((h.elements r).toList.map fun v =>
        if v.isNullish then "" else textWithin h fuel (r :: path) v)

/-- The text of a value. -/
def text (h : Heap) (v : Value) : String :=
  h.textWithin (h.arrays.size + 1) [] v

/-- The number that a value stands for. -/
def number (h : Heap) : Value → Float
  | .undefined => Number.nan
  | .null => 0.0
  | .boolean b => if b then 1.0 else 0.0
  | .number x => x
  | .string s => Number.ofText s
  | .array r => Number.ofText (h.text (.array r))
  | .object _ | .function _ => Number.nan

/-- Whether a key can be written without quotes. -/
def isPlainKey (key : String) : Bool :=
  match key.toList with
  | [] => false
  | c :: cs =>
    let mark (c : Char) := c == '_' || c == '$'
    (Text.alphabetic.contains c || mark c) &&
      cs.all fun c => Text.alphabetic.contains c || Text.numeric.contains c || mark c

/-- A container on the way to a value. -/
inductive Container where
  | array (ref : ArrayRef)
  | object (ref : ObjectRef)
  deriving DecidableEq, Repr

/-- A text between single quotes. -/
def singleQuoted (s : String) : String :=
  String.ofList
    ('\'' :: s.toList.flatMap (fun c => if c == '\'' then ['\\', '\''] else [c]) ++ ['\''])

/-- The inspection of a value inside the containers of `path`, showing `levels` more levels. -/
def inspectWithin (h : Heap) : Nat → List Container → Value → String
  | _, _, .string s => singleQuoted s
  | _, _, .number x => if x == 0.0 && Number.isNegative x then "-0" else Number.text x
  | _, _, .function r =>
    let name := ((h.function? r).map (·.name)).getD ""
    if name.isEmpty then "[Function (anonymous)]" else "[Function: " ++ name ++ "]"
  | 0, path, .array r => if path.contains (.array r) then "[Circular]" else "[Array]"
  | 0, path, .object r => if path.contains (.object r) then "[Circular]" else "[Object]"
  | levels + 1, path, .array r =>
    if path.contains (.array r) then "[Circular]"
    else
      let xs := (h.elements r).toList
      if xs.isEmpty then "[]"
      else
        "[ " ++ String.intercalate ", " (xs.map (inspectWithin h levels (.array r :: path))) ++ " ]"
  | levels + 1, path, .object r =>
    if path.contains (.object r) then "[Circular]"
    else
      let entries := (h.object r).props.entries
      if entries.isEmpty then "\x7b\x7d"
      else
        let shown (e : String × Value) : String :=
          (if isPlainKey e.1 then e.1 else "'" ++ e.1 ++ "'") ++ ": " ++
            inspectWithin h levels (.object r :: path) e.2
        "\x7b " ++ String.intercalate ", " (entries.map shown) ++ " \x7d"
  | _, _, .undefined => "undefined"
  | _, _, .null => "null"
  | _, _, .boolean b => if b then "true" else "false"

/-- How many nested containers an inspection spells out. -/
def inspectLevels : Nat := 3

/-- A value as the console shows it. -/
def inspect (h : Heap) (v : Value) : String :=
  h.inspectWithin inspectLevels [] v

/-- The name and the message of a value that is like an error. -/
def errorParts? (h : Heap) : Value → Option (Value × Value)
  | .object r =>
    match h.lookup? r "name", h.lookup? r "message" with
    | some name, some message => some (name, message)
    | _, _ => none
  | _ => none

/-- A value in one line: errors as their name and message, texts as they are. -/
def describe (h : Heap) (v : Value) : String :=
  match h.errorParts? v with
  | some (name, message) =>
    let m := h.text message
    if m.isEmpty then h.text name else h.text name ++ ": " ++ m
  | none =>
    match v with
    | .string s => s
    | other => h.inspect other

/-- A value as it appears in reports: texts between double quotes, others as inspected. -/
def report (h : Heap) : Value → String
  | .string s => Text.quoted s
  | other => h.inspect other

end Heap

end Scriptlet
