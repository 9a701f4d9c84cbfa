import Scriptlet.Grammar.Peg
import Scriptlet.Number.Reader
import Scriptlet.ParseError

/-!
Escape sequences of strings and templates.
-/

namespace Scriptlet.Tree

open Grammar (takeBytes)

/-- The hexadecimal digits at the start of a text, at most `count` of them. -/
def hexRun (count : Nat) (cs : List Char) : List Char :=
  (cs.take count).takeWhile Grammar.CharClass.hexDigit.holds

def hexValue (ds : List Char) : Nat :=
  ds.foldl (fun n d => n * 16 + (Number.digitValue? d).getD 0) 0

/-- The character of a code point; code points of no character give the replacement character. -/
def charOfCode (n : Nat) : Char :=
  if n.isValidChar then Char.ofNat n else '\uFFFD'

/-- The low surrogate that a text starts with as an escape. -/
def lowSurrogate? : List Char → Option Nat
  | '\\' :: 'u' :: rest =>
    let ds := hexRun 4 rest
    let n := hexValue ds
    if ds.length = 4 ∧ 0xDC00 ≤ n ∧ n < 0xE000 then some n else none
  | _ => none

/-- The character of an escaped code unit, and the length of the second escape if the two form a
surrogate pair. -/
def joinSurrogates (code : Nat) (rest : List Char) : Char × Nat :=
  if 0xD800 ≤ code ∧ code < 0xDC00 then
    match lowSurrogate? rest with
    | some low => (charOfCode (0x10000 + (code - 0xD800) * 0x400 + (low - 0xDC00)), 6)
    | none => (charOfCode code, 0)
  else (charOfCode code, 0)

/-- What an escape sequence stands for: the characters, and how many characters follow its letter.
A failure gives the length in bytes of the faulty escape. -/
inductive Escaped where
  | chars (value : List Char) (length : Nat)
  | invalid (bytes : Nat)

/-- The escape by code, after its letter. -/
def readUnit (rest : List Char) : Escaped :=
  match rest with
  | '\x7b' :: body =>
    let ds := body.takeWhile Grammar.CharClass.hexDigit.holds
    let n := hexValue ds
    match body.drop ds.length with
    | '\x7d' :: after =>
      if ds.isEmpty ∨ Nat.pow 2 32 ≤ n then .invalid (3 + ds.length)
      else
        let (c, more) := joinSurrogates n after
        .chars [c] (ds.length + 2 + more)
    | _ :: _ => .invalid (4 + ds.length)
    | [] => .invalid (3 + ds.length)
  | _ =>
    let ds := hexRun 4 rest
    if ds.length = 4 then
      let (c, more) := joinSurrogates (hexValue ds) (rest.drop 4)
      .chars [c] (4 + more)
    else .invalid (2 + ds.length)

/-- The escape with the given letter, followed by `rest`. -/
def readEscape (letter : Char) (rest : List Char) : Escaped :=
  match letter with
  | 'n' => .chars ['\n'] 0
  | 't' => .chars ['\t'] 0
  | 'r' => .chars ['\r'] 0
  | 'b' => .chars ['\x08'] 0
  | 'f' => .chars ['\x0c'] 0
  | 'v' => .chars ['\x0b'] 0
  | '0' => .chars ['\x00'] 0
  | '\n' => .chars [] 0
  | '\u2028' => .chars [] 0
  | '\u2029' => .chars [] 0
  | '\r' => .chars [] (if rest.head? = some '\n' then 1 else 0)
  | 'x' =>
    let ds := hexRun 2 rest
    if ds.isEmpty then .invalid 2 else .chars [charOfCode (hexValue ds)] ds.length
  | 'u' => readUnit rest
  | c => .chars [c] 0

def byteLength (cs : List Char) : Nat :=
  cs.foldl (fun n c => n + c.utf8Size) 0

/-- The characters that a raw text stands for. `index` is the place of the text in the source, and
`fuel` exceeds its length. -/
def unescapeFrom : Nat → Nat → List Char → Except BuildError (List Char)
  | 0, _, _ => .ok []
  | _, _, [] => .ok []
  | fuel + 1, index, '\\' :: rest =>
    match rest with
    | [] => .error ⟨.invalidEscape "\\", ⟨index, index + 1⟩⟩
    | letter :: rest =>
      match readEscape letter rest with
      | .invalid bytes =>
        let found := takeBytes bytes ('\\' :: letter :: rest)
        .error ⟨.invalidEscape (String.ofList found), ⟨index, index + bytes⟩⟩
      | .chars value length =>
        let width := 1 + letter.utf8Size + byteLength (rest.take length)
        (unescapeFrom fuel (index + width) (rest.drop length)).map (value ++ ·)
  | fuel + 1, index, c :: rest =>
    (unescapeFrom fuel (index + c.utf8Size) rest).map (c :: ·)

/-- The text that a raw text at `index` stands for. -/
def unescape (raw : String) (index : Nat) : Except BuildError String :=
  let cs := raw.toList
  (unescapeFrom (cs.length + 1) index cs).map String.ofList

end Scriptlet.Tree
