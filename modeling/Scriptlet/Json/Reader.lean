import Scriptlet.Json.Basic
import Scriptlet.Number.Reader

/-!
Reading JSON. A text is refused with a reason and the place where reading stopped; nesting is
limited.
-/

namespace Scriptlet.Json

/-- Why a text is not JSON. -/
inductive Refusal where
  | endInValue
  | endInList
  | endInObject
  | endInString
  | expectedValue
  | expectedWord
  | expectedColon
  | expectedListEnd
  | expectedObjectEnd
  | keyNotString
  | trailingComma
  | trailingText
  | invalidNumber
  | numberOutOfRange
  | invalidEscape
  | controlCharacter
  | loneSurrogate
  | endOfHexEscape
  | tooDeep
  deriving DecidableEq, Repr

def Refusal.message : Refusal → String
  | .endInValue => "EOF while parsing a value"
  | .endInList => "EOF while parsing a list"
  | .endInObject => "EOF while parsing an object"
  | .endInString => "EOF while parsing a string"
  | .expectedValue => "expected value"
  | .expectedWord => "expected ident"
  | .expectedColon => "expected `:`"
  | .expectedListEnd => "expected `,` or `]`"
  | .expectedObjectEnd => "expected `,` or `\x7d`"
  | .keyNotString => "key must be a string"
  | .trailingComma => "trailing comma"
  | .trailingText => "trailing characters"
  | .invalidNumber => "invalid number"
  | .numberOutOfRange => "number out of range"
  | .invalidEscape => "invalid escape"
  | .controlCharacter => "control character (\\u0000-\\u001F) found while parsing a string"
  | .loneSurrogate => "lone leading surrogate in hex escape"
  | .endOfHexEscape => "unexpected end of hex escape"
  | .tooDeep => "recursion limit exceeded"

/-- What is left of a text, and how many bytes were read. -/
structure Cursor where
  rest : List Char
  index : Nat

/-- A refusal and the count of bytes before the place it is reported at. -/
structure Stop where
  reason : Refusal
  index : Nat

abbrev Reading (α : Type) := Except Stop α

namespace Cursor

/-- A refusal reported after what was read. -/
def stop {α : Type} (c : Cursor) (reason : Refusal) : Reading α :=
  .error ⟨reason, c.index⟩

/-- A refusal reported at the next byte. -/
def stopAtNext {α : Type} (c : Cursor) (reason : Refusal) : Reading α :=
  .error ⟨reason, if c.rest.isEmpty then c.index else c.index + 1⟩

def isBlank (c : Char) : Bool :=
  c == ' ' || c == '\n' || c == '\t' || c == '\r'

def skipBlanks (c : Cursor) : Cursor :=
  ⟨c.rest.dropWhile isBlank, c.index + (c.rest.takeWhile isBlank).length⟩

/-- The cursor after a character of one byte. -/
def next (c : Cursor) : Cursor :=
  ⟨c.rest.tail, c.index + 1⟩

def skipDigits (c : Cursor) : Cursor :=
  ⟨c.rest.dropWhile Char.isDigit, c.index + (c.rest.takeWhile Char.isDigit).length⟩

def atDigit (c : Cursor) : Bool :=
  match c.rest with
  | d :: _ => d.isDigit
  | [] => false

def atMark (c : Cursor) : Bool :=
  match c.rest with
  | d :: _ => d == 'e' || d == 'E'
  | [] => false

end Cursor

/-! ### Words -/

/-- The rest of a word whose first letter was read. -/
def readWord : List Char → Cursor → Reading Cursor
  | [], c => .ok c
  | w :: word, c =>
    match c.rest with
    | [] => c.stop .endInValue
    | d :: _ => if d = w then readWord word c.next else c.next.stop .expectedWord

/-! ### Numbers -/

/-- The greatest significand that is kept digit by digit. -/
def maxSignificand : Nat := Nat.pow 2 64 - 1

/-- Adds digits to a significand for as long as it does not exceed the greatest one; also counts
them. -/
def gather : List Char → Nat → Nat → Nat × Nat
  | [], n, count => (n, count)
  | d :: rest, n, count =>
    if d.isDigit then
      let m := n * 10 + (d.toNat - '0'.toNat)
      if m ≤ maxSignificand then gather rest m (count + 1) else (n, count)
    else (n, count)

def Cursor.gather (c : Cursor) (n : Nat) : Nat × Nat × Cursor :=
  let (m, count) := Json.gather c.rest n 0
  (m, count, ⟨c.rest.drop count, c.index + count⟩)

def tenTo (n : Nat) : Float :=
  Float.ofScientific 1 false n

/-- A significand scaled by a power of ten, one rounding per step; `none` past the largest
number. Three steps of the first kind leave nothing. -/
def scale? : Nat → Float → Int → Option Float
  | 0, x, _ => some x
  | fuel + 1, x, e =>
    if e.natAbs ≤ 308 then
      if 0 ≤ e then
        let y := x * tenTo e.natAbs
        if y.isInf then none else some y
      else some (x / tenTo e.natAbs)
    else if x == 0.0 then some x
    else if 0 ≤ e then none
    else scale? fuel (x / tenTo 308) (e + 308)

def fromParts (c : Cursor) (negative : Bool) (n : Nat) (e : Int) : Reading (Json × Cursor) :=
  match scale? 8 (Float.ofNat n) e with
  | some x => .ok (.float (if negative then Number.negate x else x), c)
  | none => c.stop .numberOutOfRange

/-- The greatest exponent that is kept digit by digit. -/
def maxExponent : Nat := Nat.pow 2 31 - 1

/-- The digits of an exponent, or `none` and the cursor after the first digit too many. -/
def exponentDigits : List Char → Nat → Nat → Option Nat × Nat
  | [], e, count => (some e, count)
  | d :: rest, e, count =>
    if d.isDigit then
      let f := e * 10 + (d.toNat - '0'.toNat)
      if f ≤ maxExponent then exponentDigits rest f (count + 1) else (none, count + 1)
    else (some e, count)

/-- The exponent, from its mark on. -/
def readExponent (c : Cursor) (negative : Bool) (n : Nat) (start : Int) : Reading (Json × Cursor) :=
  let c := c.next
  let (down, c) :=
    match c.rest with
    | '+' :: _ => (false, c.next)
    | '-' :: _ => (true, c.next)
    | _ => (false, c)
  match c.rest with
  | [] => c.stop .endInValue
  | d :: _ =>
    if !d.isDigit then c.next.stop .invalidNumber
    else
      let (value, count) := exponentDigits c.rest 0 0
      let c : Cursor := ⟨c.rest.drop count, c.index + count⟩
      match value with
      | some e => fromParts c negative n (if down then start - e else start + e)
      | none =>
        if n ≠ 0 ∧ !down then c.stop .numberOutOfRange
        else .ok (.float (if negative then -0.0 else 0.0), c.skipDigits)

/-- The fraction, from its point on. -/
def readFraction (c : Cursor) (negative : Bool) (n : Nat) (before : Int) :
    Reading (Json × Cursor) :=
  let (n, count, c) := c.next.gather n
  let e := before - count
  if c.atDigit then
    let c := c.skipDigits
    if c.atMark then readExponent c negative n e else fromParts c negative n e
  else if count = 0 then
    c.stopAtNext (if c.rest.isEmpty then .endInValue else .invalidNumber)
  else if c.atMark then readExponent c negative n e
  else fromParts c negative n e

/-- The integer of a significand; a negative zero and integers out of the range of 64 bits are
fractions. -/
def integer (negative : Bool) (n : Nat) : Json :=
  if !negative then .int n
  else if n = 0 ∨ Nat.pow 2 63 < n then .float (Number.negate (Float.ofNat n))
  else .int (-n)

def readNumber (c : Cursor) (negative : Bool) : Reading (Json × Cursor) :=
  match c.rest with
  | [] => c.stop .endInValue
  | d :: _ =>
    if d = '0' then
      let c := c.next
      if c.atDigit then c.stopAtNext .invalidNumber else finish c 0
    else if d.isDigit then
      let (n, _, c) := c.gather 0
      if c.atDigit then
        let rest := c.skipDigits
        let e : Int := rest.index - c.index
        match rest.rest with
        | '.' :: _ => readFraction rest negative n e
        | _ =>
          if rest.atMark then readExponent rest negative n e else fromParts rest negative n e
      else finish c n
    else c.next.stop .invalidNumber
where
  finish (c : Cursor) (n : Nat) : Reading (Json × Cursor) :=
    match c.rest with
    | '.' :: _ => readFraction c negative n 0
    | _ => if c.atMark then readExponent c negative n 0 else .ok (integer negative n, c)

/-! ### Strings -/

def byteLength (cs : List Char) : Nat :=
  cs.foldl (fun n c => n + c.utf8Size) 0

/-- Four hexadecimal digits. -/
def readHex (c : Cursor) : Reading (Nat × Cursor) :=
  let four := c.rest.take 4
  if byteLength four < 4 then .error ⟨.endInString, c.index + byteLength c.rest⟩
  else
    match four.mapM (Number.digitIn? 16) with
    | some ds => .ok (ds.foldl (fun n d => n * 16 + d) 0, ⟨c.rest.drop 4, c.index + 4⟩)
    | none => .error ⟨.invalidEscape, c.index + 4⟩

/-- The given character, which the second half of a surrogate pair starts with. -/
def readExpected (x : Char) (c : Cursor) : Reading Cursor :=
  match c.rest with
  | [] => c.stop .endInString
  | d :: _ => if d = x then .ok c.next else c.next.stop .endOfHexEscape

/-- A character by its code, after the letter that announces it. -/
def readCode (c : Cursor) : Reading (Char × Cursor) := do
  let (high, c) ← readHex c
  if 0xDC00 ≤ high ∧ high ≤ 0xDFFF then c.stop .loneSurrogate
  else if 0xD800 ≤ high ∧ high ≤ 0xDBFF then
    let c ← readExpected '\\' c
    let c ← readExpected 'u' c
    let (low, c) ← readHex c
    if low < 0xDC00 ∨ 0xDFFF < low then c.stop .loneSurrogate
    else return (Char.ofNat ((high - 0xD800) * 0x400 + (low - 0xDC00) + 0x10000), c)
  else return (Char.ofNat high, c)

/-- The character of an escape, after its backslash. -/
def readEscape (c : Cursor) : Reading (Char × Cursor) :=
  match c.rest with
  | [] => c.stop .endInString
  | d :: _ =>
    match d with
    | '"' => .ok ('"', c.next)
    | '\\' => .ok ('\\', c.next)
    | '/' => .ok ('/', c.next)
    | 'b' => .ok ('\x08', c.next)
    | 'f' => .ok ('\x0c', c.next)
    | 'n' => .ok ('\n', c.next)
    | 'r' => .ok ('\r', c.next)
    | 't' => .ok ('\t', c.next)
    | 'u' => readCode c.next
    | _ => c.next.stop .invalidEscape

/-- The rest of a string after its opening quote; `acc` holds what was read, nearest first. Each
step reads a character, so `fuel` is enough if it exceeds their number. -/
def readString : Nat → List Char → Cursor → Reading (String × Cursor)
  | 0, _, c => c.stop .endInString
  | fuel + 1, acc, c =>
    match c.rest with
    | [] => c.stop .endInString
    | '"' :: _ => .ok (String.ofList acc.reverse, c.next)
    | '\\' :: _ => do
      let (d, c) ← readEscape c.next
      readString fuel (d :: acc) c
    | d :: rest =>
      if d.toNat < 0x20 then c.next.stop .controlCharacter
      else readString fuel (d :: acc) ⟨rest, c.index + d.utf8Size⟩

/-! ### Values -/

mutual

/-- A value. `depth` is how deep it may nest. -/
def readValue : Nat → Nat → Cursor → Reading (Json × Cursor)
  | 0, _, c => c.stop .tooDeep
  | fuel + 1, depth, c =>
    let c := c.skipBlanks
    match c.rest with
    | [] => c.stopAtNext .endInValue
    | d :: rest =>
      match d with
      | 'n' => (readWord "ull".toList c.next).map fun c => (.null, c)
      | 't' => (readWord "rue".toList c.next).map fun c => (.bool true, c)
      | 'f' => (readWord "alse".toList c.next).map fun c => (.bool false, c)
      | '-' => readNumber c.next true
      | '"' => (readString (rest.length + 1) [] c.next).map fun (s, c) => (.str s, c)
      | '[' =>
        match depth with
        | 0 => c.stopAtNext .tooDeep
        | depth + 1 => (readItems fuel depth true [] c.next).map fun (js, c) => (.arr js, c)
      | '\x7b' =>
        match depth with
        | 0 => c.stopAtNext .tooDeep
        | depth + 1 => (readMembers fuel depth true [] c.next).map fun (ms, c) => (.obj ms, c)
      | d => if d.isDigit then readNumber c false else c.stopAtNext .expectedValue

/-- The items of a list up to its end; `acc` holds those read, nearest first. -/
def readItems : Nat → Nat → Bool → List Json → Cursor → Reading (List Json × Cursor)
  | 0, _, _, _, c => c.stop .tooDeep
  | fuel + 1, depth, first, acc, c =>
    let c := c.skipBlanks
    match c.rest with
    | [] => c.stopAtNext .endInList
    | d :: _ =>
      if d = ']' then .ok (acc.reverse, c.next)
      else if first then do
        let (j, c) ← readValue fuel depth c
        readItems fuel depth false (j :: acc) c
      else if d = ',' then
        let c := c.next.skipBlanks
        match c.rest with
        | [] => c.stopAtNext .endInValue
        | ']' :: _ => c.stopAtNext .trailingComma
        | _ => do
          let (j, c) ← readValue fuel depth c
          readItems fuel depth false (j :: acc) c
      else c.stopAtNext .expectedListEnd

/-- The members of an object up to its end. -/
def readMembers :
    Nat → Nat → Bool → List (String × Json) → Cursor → Reading (List (String × Json) × Cursor)
  | 0, _, _, _, c => c.stop .tooDeep
  | fuel + 1, depth, first, acc, c =>
    let c := c.skipBlanks
    match c.rest with
    | [] => c.stopAtNext .endInObject
    | d :: _ =>
      if d = '\x7d' then .ok (acc, c.next)
      else if first then
        if d = '"' then readMember fuel depth acc c else c.stopAtNext .keyNotString
      else if d = ',' then
        let c := c.next.skipBlanks
        match c.rest with
        | [] => c.stopAtNext .endInValue
        | '"' :: _ => readMember fuel depth acc c
        | '\x7d' :: _ => c.stopAtNext .trailingComma
        | _ => c.stopAtNext .keyNotString
      else c.stopAtNext .expectedObjectEnd

/-- One member, from the quote of its key on, and those after it. -/
def readMember : Nat → Nat → List (String × Json) → Cursor → Reading (List (String × Json) × Cursor)
  | 0, _, _, c => c.stop .tooDeep
  | fuel + 1, depth, acc, c => do
    let (key, c) ← readString (c.rest.length + 1) [] c.next
    let c := c.skipBlanks
    match c.rest with
    | [] => c.stopAtNext .endInObject
    | ':' :: _ =>
      let (j, c) ← readValue fuel depth c.next
      readMembers fuel depth false (insert key j acc) c
    | _ => c.stopAtNext .expectedColon

end

/-- How deep lists and objects may nest. -/
def maxDepth : Nat := 127

/-- The line, and the count of bytes in it, of the place after `index` bytes. -/
def lineColumn : List Char → Nat → Nat → Nat → Nat → Nat × Nat
  | [], index, at_, line, start => (line, min index at_ - start)
  | c :: rest, index, at_, line, start =>
    if index ≤ at_ then (line, index - start)
    else if c = '\n' then lineColumn rest index (at_ + 1) (line + 1) (at_ + 1)
    else lineColumn rest index (at_ + c.utf8Size) line start

def Stop.message (text : String) (s : Stop) : String :=
  let (line, column) := lineColumn text.toList s.index 0 1 0
  s!"{s.reason.message} at line {line} column {column}"

/-- A whole text as one value. Reading a value takes at most three steps per character. -/
def parse (text : String) : Reading Json := do
  let cs := text.toList
  let (j, c) ← readValue (3 * cs.length + 3) maxDepth ⟨cs, 0⟩
  let c := c.skipBlanks
  if c.rest.isEmpty then return j else c.stopAtNext .trailingText

end Scriptlet.Json
