import Scriptlet.Json.Basic
import Scriptlet.Number.Layout

/-!
JSON texts: the compact one, and the indented one.
-/

namespace Scriptlet.Json

def hexDigit (n : Nat) : Char :=
  if n < 10 then Char.ofNat ('0'.toNat + n) else Char.ofNat ('a'.toNat + (n - 10))

/-- The spelling of a character inside a string: quotes, backslashes and control characters are
escaped. -/
def escape (c : Char) : List Char :=
  match c with
  | '"' => ['\\', '"']
  | '\\' => ['\\', '\\']
  | '\x08' => ['\\', 'b']
  | '\x0c' => ['\\', 'f']
  | '\n' => ['\\', 'n']
  | '\r' => ['\\', 'r']
  | '\t' => ['\\', 't']
  | c =>
    if c.toNat < 0x20 then ['\\', 'u', '0', '0', hexDigit (c.toNat / 16), hexDigit (c.toNat % 16)]
    else [c]

def quote (s : String) : String :=
  String.ofList ('"' :: s.toList.flatMap escape ++ ['"'])

mutual

/-- The text without any blanks. -/
def compact : Json → String
  | .null => "null"
  | .bool b => if b then "true" else "false"
  | .int n => toString n
  | .float x => Number.jsonLayout.render x
  | .str s => quote s
  | .arr items => "[" ++ compactItems items ++ "]"
  | .obj members => "\x7b" ++ compactMembers members ++ "\x7d"

def compactItems : List Json → String
  | [] => ""
  | [j] => compact j
  | j :: rest => compact j ++ "," ++ compactItems rest

def compactMembers : List (String × Json) → String
  | [] => ""
  | [(k, j)] => quote k ++ ":" ++ compact j
  | (k, j) :: rest => quote k ++ ":" ++ compact j ++ "," ++ compactMembers rest

end

/-- The start of a line at a nesting level. -/
def newline (unit : String) (level : Nat) : String :=
  Nat.repeat (· ++ unit) level "\n"

mutual

/-- The text with every item and member on its own line, `unit` repeated once per level. -/
def pretty (unit : String) (level : Nat) : Json → String
  | .arr [] => "[]"
  | .arr items =>
    "[" ++ prettyItems unit (level + 1) items ++ newline unit level ++ "]"
  | .obj [] => "\x7b\x7d"
  | .obj members =>
    "\x7b" ++ prettyMembers unit (level + 1) members ++ newline unit level ++ "\x7d"
  | .null => "null"
  | .bool b => if b then "true" else "false"
  | .int n => toString n
  | .float x => Number.jsonLayout.render x
  | .str s => quote s

def prettyItems (unit : String) (level : Nat) : List Json → String
  | [] => ""
  | [j] => newline unit level ++ pretty unit level j
  | j :: rest => newline unit level ++ pretty unit level j ++ "," ++ prettyItems unit level rest

def prettyMembers (unit : String) (level : Nat) : List (String × Json) → String
  | [] => ""
  | [(k, j)] => newline unit level ++ quote k ++ ": " ++ pretty unit level j
  | (k, j) :: rest =>
    newline unit level ++ quote k ++ ": " ++ pretty unit level j ++ "," ++
      prettyMembers unit level rest

end

/-- The lines of a text; `line` holds the characters of the current one, nearest first. -/
def linesFrom (line : List Char) : List Char → List (List Char)
  | [] => [line.reverse]
  | c :: rest => if c = '\n' then line.reverse :: linesFrom [] rest else linesFrom (c :: line) rest

/-- A line indented by two blanks per level, with `unit` in place of each pair. -/
def reindent (unit : String) (line : List Char) : String :=
  let body := line.dropWhile (· == ' ')
  Nat.repeat (· ++ unit) ((line.length - body.length) / 2) "" ++ String.ofList body

/-- The text indented by `indent`, or the compact text if that is empty. -/
def render (indent : String) (j : Json) : String :=
  if indent.isEmpty then j.compact
  else String.intercalate "\n" ((linesFrom [] (j.pretty "  " 0).toList).map (reindent indent))

end Scriptlet.Json
