/-!
Searching and splitting texts, as lists of characters.
-/

namespace Scriptlet.Text

/-- The first position, counted from `i`, at which `needle` stands in the list. -/
def scan (needle : List Char) : List Char → Nat → Option Nat
  | [], i => if needle.isEmpty then some i else none
  | c :: rest, i =>
    if needle.isPrefixOf (c :: rest) then some i else scan needle rest (i + 1)

/-- The first position at or after `start` at which `needle` stands. The empty needle stands
everywhere, and past the end it is found at the end. -/
def find? (text needle : List Char) (start : Nat) : Option Nat :=
  if needle.isEmpty then some (min start text.length)
  else scan needle (text.drop start) start

/-- Whether `needle` stands somewhere in the list. -/
def occurs (needle : List Char) : List Char → Bool
  | [] => needle.isEmpty
  | c :: rest => needle.isPrefixOf (c :: rest) || occurs needle rest

/-- The parts between separators, after those in `parts`, which is reversed: `skip` characters of
the current separator are still to be passed, and `part` holds the characters since the last one,
nearest first. -/
def splitGo (sep : List Char) (parts : List (List Char)) :
    Nat → List Char → List Char → List (List Char)
  | _, part, [] => (part.reverse :: parts).reverse
  | skip + 1, part, _ :: rest => splitGo sep parts skip part rest
  | 0, part, c :: rest =>
    if sep.isPrefixOf (c :: rest) then splitGo sep (part.reverse :: parts) (sep.length - 1) [] rest
    else splitGo sep parts 0 (c :: part) rest

/-- The parts of a text between separators, from left to right. The empty separator stands
between any two characters. -/
def splitAt (text sep : List Char) : List (List Char) :=
  if sep.isEmpty then text.map ([·]) else splitGo sep [] 0 [] text

/-- The first `n` characters of `filler` repeated without end. -/
def cycle (filler : List Char) (n : Nat) : List Char :=
  (List.replicate (n / filler.length + 1) filler).flatten.take n

/-- `count` copies of a text. -/
def replicate (s : String) (count : Nat) : String :=
  if s.isEmpty then "" else Nat.repeat (· ++ s) count ""

end Scriptlet.Text
