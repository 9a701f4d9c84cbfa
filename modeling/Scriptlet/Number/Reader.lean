import Scriptlet.Number.Arithmetic
import Scriptlet.Text.Blank

/-!
Reading numbers from text: decimals, digits of other bases, and the three ways in which scripts
turn text into a number.
-/

namespace Scriptlet.Number

/-- The value of a digit in bases up to 36. -/
def digitValue? (c : Char) : Option Nat :=
  if '0' ≤ c ∧ c ≤ '9' then some (c.toNat - '0'.toNat)
  else if 'a' ≤ c ∧ c ≤ 'z' then some (c.toNat - 'a'.toNat + 10)
  else if 'A' ≤ c ∧ c ≤ 'Z' then some (c.toNat - 'A'.toNat + 10)
  else none

def digitIn? (base : Nat) (c : Char) : Option Nat :=
  (digitValue? c).filter (· < base)

/-- The natural number that decimal digits spell. -/
def natOfDigits (ds : List Char) : Nat :=
  ds.foldl (fun n c => n * 10 + (c.toNat - '0'.toNat)) 0

/-- The number nearest to `significand * 10 ^ exponent`. -/
def ofDecimal (significand : Nat) (exponent : Int) : Float :=
  let order := exponent + (Nat.toDigits 10 significand).length
  if significand = 0 then 0.0
  else if 400 < order then infinity
  else if order < -400 then 0.0
  else Float.ofScientific significand (exponent < 0) exponent.natAbs

/-- The parts of a decimal: digits before the point, digits after it, exponent. -/
structure Written where
  whole : List Char
  fraction : List Char
  exponent : Int

def Written.value (w : Written) : Float :=
  ofDecimal (natOfDigits (w.whole ++ w.fraction)) (w.exponent - w.fraction.length)

/-- A sign, if there is one, and the rest. -/
def takeSign : List Char → Bool × List Char
  | '-' :: rest => (true, rest)
  | '+' :: rest => (false, rest)
  | rest => (false, rest)

/-- The exponent part: nothing, or a mark, an optional sign and digits. -/
def readExponent? : List Char → Option Int
  | [] => some 0
  | c :: rest =>
    if c = 'e' ∨ c = 'E' then
      let (negative, ds) := takeSign rest
      if ds.isEmpty || !ds.all Char.isDigit then none
      else
        let n := natOfDigits ds
        some (if negative then -(n : Int) else n)
    else none

/-- An unsigned decimal: digits with an optional point, at least one digit, and an optional
exponent. -/
def readUnsigned? (cs : List Char) : Option Written :=
  let whole := cs.takeWhile Char.isDigit
  let (fraction, rest) :=
    match cs.dropWhile Char.isDigit with
    | '.' :: rest => (rest.takeWhile Char.isDigit, rest.dropWhile Char.isDigit)
    | rest => ([], rest)
  if whole.isEmpty && fraction.isEmpty then none
  else (readExponent? rest).map fun e => ⟨whole, fraction, e⟩

/-- A decimal with an optional sign, and nothing else. -/
def readDecimal? (cs : List Char) : Option Float :=
  let (negative, rest) := takeSign cs
  (readUnsigned? rest).map fun w => if negative then negate w.value else w.value

/-- The value of digits in a base, gathered digit by digit; `none` without digits or with a
character that is not one. -/
def readRadix? (base : Nat) (ds : List Char) : Option Float :=
  if ds.isEmpty then none
  else ds.foldlM
    (fun acc c => (digitIn? base c).map fun d => acc * Float.ofNat base + Float.ofNat d) 0.0

/-- The base that a text's first two characters announce, and the digits after them. -/
def radixMark? : List Char → Option (Nat × List Char)
  | '0' :: c :: rest =>
    if c = 'x' ∨ c = 'X' then some (16, rest)
    else if c = 'o' ∨ c = 'O' then some (8, rest)
    else if c = 'b' ∨ c = 'B' then some (2, rest)
    else none
  | _ => none

/-- The characters that a decimal is made of. -/
def isDecimalChar (c : Char) : Bool :=
  c.isDigit || c == '.' || c == 'e' || c == 'E' || c == '+' || c == '-'

/-- The number that a whole text stands for; NaN if it stands for none. -/
def ofText (s : String) : Float :=
  let cs := Text.dropEndBlanks (Text.dropBlanks s.toList)
  if cs.isEmpty then 0.0
  else if cs = "Infinity".toList ∨ cs = "+Infinity".toList then infinity
  else if cs = "-Infinity".toList then negate infinity
  else match radixMark? cs with
    | some (base, ds) => (readRadix? base ds).getD nan
    | none => if cs.all isDecimalChar then (readDecimal? cs).getD nan else nan

/-- The hexadecimal mark, if the text starts with it. -/
def takeHexMark? : List Char → Option (List Char)
  | '0' :: 'x' :: rest => some rest
  | '0' :: 'X' :: rest => some rest
  | _ => none

/-- The integer at the start of a text, in the base that `radix` asks for. -/
def parseInt (s : String) (radix : Float) : Float :=
  let (negative, cs) := takeSign (Text.dropBlanks s.toList)
  let asked := if radix.isFinite then toCount (Nat.pow 2 32 - 1) radix else 0
  let (base, ds) :=
    match (if asked = 0 ∨ asked = 16 then takeHexMark? cs else none) with
    | some rest => (16, rest)
    | none => (if asked = 0 then 10 else asked, cs)
  if base < 2 ∨ 36 < base then nan
  else
    match readRadix? base (ds.takeWhile fun c => (digitIn? base c).isSome) with
    | some value => if negative then negate value else value
    | none => nan

/-- What a scan for a decimal has met. -/
structure Scan where
  first : Bool := true
  digit : Bool := false
  point : Bool := false
  mark : Bool := false
  afterMark : Bool := false

/-- The state after one more character of a possible decimal. -/
def Scan.step? (st : Scan) (c : Char) : Option Scan :=
  if c.isDigit then some { st with first := false, digit := true, afterMark := false }
  else if c = '+' ∨ c = '-' then
    if st.first || st.afterMark then some { st with first := false, afterMark := false } else none
  else if c = '.' then
    if st.point || st.mark then none else some { st with first := false, point := true }
  else if c = 'e' ∨ c = 'E' then
    if st.digit && !st.mark then some { st with first := false, mark := true, afterMark := true }
    else none
  else none

/-- The characters up to the first one that no decimal could go on with. -/
def Scan.run (st : Scan) : List Char → List Char
  | [] => []
  | c :: rest =>
    match st.step? c with
    | some next => c :: next.run rest
    | none => []

/-- The decimal that the longest readable start spells, with the candidate reversed. -/
def readLongest : List Char → Float
  | [] => nan
  | c :: rest =>
    match readDecimal? (c :: rest).reverse with
    | some x => x
    | none => readLongest rest

/-- The decimal at the start of a text. -/
def parseFloat (s : String) : Float :=
  let cs := Text.dropBlanks s.toList
  let (negative, unsigned) := takeSign cs
  if "Infinity".toList.isPrefixOf unsigned then
    if negative then negate infinity else infinity
  else readLongest (Scan.run {} cs).reverse

end Scriptlet.Number
