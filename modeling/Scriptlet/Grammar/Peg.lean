import Scriptlet.Span
import Scriptlet.Text.Letter

/-!
Parsing expressions and their matcher.

A grammar gives each rule a parsing expression. Choice is ordered, repetition is greedy, and a part
that matched is never tried again in another way. Between the parts of a sequence layout is
skipped, unless a rule switches that off. Matching yields a tree of the rules that matched, or the
rules that were expected at the furthest place reached.
-/

namespace Scriptlet.Grammar

inductive CharClass where
  | any
  | blank
  | alpha
  | digit
  | hexDigit
  | letter
  deriving DecidableEq, Repr

def CharClass.holds : CharClass → Char → Bool
  | .any, _ => true
  | .blank, c =>
    c == ' ' || c == '\t' || c == '\r' || c == '\n' || c == '\uFEFF' || c == '\u00A0' ||
      c == '\u2028' || c == '\u2029'
  | .alpha, c => c.isAlpha
  | .digit, c => c.isDigit
  | .hexDigit, c => c.isDigit || ('a' ≤ c && c ≤ 'f') || ('A' ≤ c && c ≤ 'F')
  | .letter, c => Text.letters.contains c

inductive Peg (R : Type) where
  | text (cs : List Char)
  | char (k : CharClass)
  | rule (r : R)
  | seq (first second : Peg R)
  | alt (first second : Peg R)
  | star (e : Peg R)
  | opt (e : Peg R)
  | not (e : Peg R)
  | start
  | finish

/-- How a rule takes part in a match. -/
inductive RuleKind where
  /-- Gives a node; layout is skipped if it was before. -/
  | plain
  /-- Gives no node and is never expected. -/
  | silent
  /-- Gives a node without children and skips no layout inside. -/
  | token
  /-- Gives a node with children and skips no layout inside. -/
  | joined
  /-- Gives a node and skips layout inside, whatever was the case before. -/
  | spaced
  deriving DecidableEq, Repr

structure Definition (R : Type) where
  kind : RuleKind
  body : Peg R

/-- The rules of a language, and what may stand between its words. -/
structure RuleSet (R : Type) where
  define : R → Definition R
  layout : Peg R

/-- A rule that matched: what it spans, its text if it is a token, and the rules inside it. -/
structure Node (R : Type) where
  rule : R
  span : Span
  text : String
  children : List (Node R)

/-- The text ahead and the count of bytes behind. -/
structure Cursor where
  rest : List Char
  pos : Nat

/-- Whether layout is skipped, and whether rules inside give nodes. -/
inductive Spacing where
  | free
  | joined
  | solid
  deriving DecidableEq, Repr

/-- Whether a match only looks ahead, and for what. -/
inductive Looking where
  | nowhere
  | wanted
  | unwanted
  deriving DecidableEq, Repr

def Looking.flip : Looking → Looking
  | .unwanted => .wanted
  | _ => .unwanted

structure Context where
  spacing : Spacing
  looking : Looking

/-- The rules that were tried in vain at the furthest place, latest first, and those that matched
there although they must not. -/
structure Trail (R : Type) where
  place : Nat
  expected : List R
  unwanted : List R

/-- How much a trail held for a place when a rule was entered there. -/
structure Mark where
  expected : Nat
  unwanted : Nat

namespace Trail

variable {R : Type}

def empty : Trail R := ⟨0, [], []⟩

def mark (t : Trail R) (pos : Nat) : Mark :=
  if t.place = pos then ⟨t.expected.length, t.unwanted.length⟩ else ⟨0, 0⟩

def Mark.total (m : Mark) : Nat := m.expected + m.unwanted

/-- The `n` oldest entries. -/
def oldest (n : Nat) (rs : List R) : List R :=
  rs.drop (rs.length - n)

/-- The trail once the rule `r`, entered at `pos`, has failed (or has matched while unwanted).
If the rules inside it left a single entry there, that one says more; if they left several, the
rule stands for all of them. -/
def record (t : Trail R) (m : Mark) (pos : Nat) (looking : Looking) (r : R) : Trail R :=
  if Mark.total (t.mark pos) = Mark.total m + 1 then t
  else
    let t :=
      if t.place = pos then
        { t with
          expected := oldest m.expected t.expected
          unwanted := oldest m.unwanted t.unwanted }
      else if t.place < pos then ⟨pos, [], []⟩
      else t
    if t.place = pos then
      match looking with
      | .unwanted => { t with unwanted := r :: t.unwanted }
      | _ => { t with expected := r :: t.expected }
    else t

end Trail

/-- How a match ends. `exhausted` means that the given depth did not suffice. -/
inductive Outcome (R : Type) where
  | matched (nodes : List (Node R)) (cursor : Cursor) (trail : Trail R)
  | refused (trail : Trail R)
  | exhausted

/-- The characters of the first `n` bytes. -/
def takeBytes : Nat → List Char → List Char
  | 0, _ => []
  | _, [] => []
  | n + 1, c :: rest => c :: takeBytes (n + 1 - c.utf8Size) rest

/-- What is left of a text after a literal, and the bytes of that literal. -/
def stripText? : List Char → Cursor → Option Cursor
  | [], c => some c
  | x :: xs, c =>
    match c.rest with
    | y :: rest => if x = y then stripText? xs ⟨rest, c.pos + y.utf8Size⟩ else none
    | [] => none

namespace RuleKind

/-- The spacing that decides whether the rule itself gives a node and is recorded. -/
def outer (k : RuleKind) (s : Spacing) : Spacing :=
  match k with
  | .joined => .joined
  | .spaced => .free
  | _ => s

/-- The spacing inside the rule. -/
def inner (k : RuleKind) (s : Spacing) : Spacing :=
  match k with
  | .token => .solid
  | .joined => .joined
  | .spaced => .free
  | _ => s

end RuleKind

namespace RuleSet

variable {R : Type}

/-- The outcome of a rule, given that of its body. -/
def close (r : R) (kind : RuleKind) (ctx : Context) (before : Cursor) (m : Mark) :
    Outcome R → Outcome R
  | .matched nodes after trail =>
    let visible := kind.outer ctx.spacing != .solid
    let trail :=
      if visible && ctx.looking == .unwanted then trail.record m before.pos ctx.looking r else trail
    if visible && ctx.looking == .nowhere then
      let text :=
        if kind = .token then String.ofList (takeBytes (after.pos - before.pos) before.rest) else ""
      .matched [⟨r, ⟨before.pos, after.pos⟩, text, nodes⟩] after trail
    else .matched nodes after trail
  | .refused trail =>
    if kind.outer ctx.spacing != .solid && ctx.looking != .unwanted then
      .refused (trail.record m before.pos ctx.looking r)
    else .refused trail
  | .exhausted => .exhausted

mutual

/-- Matches an expression at a place; the first argument bounds the depth of the match. -/
def run (g : RuleSet R) : Nat → Peg R → Context → Cursor → Trail R → Outcome R
  | 0, _, _, _, _ => .exhausted
  | depth + 1, e, ctx, c, t =>
    match e with
    | .text cs =>
      match stripText? cs c with
      | some c => .matched [] c t
      | none => .refused t
    | .char k =>
      match c.rest with
      | x :: rest => if k.holds x then .matched [] ⟨rest, c.pos + x.utf8Size⟩ t else .refused t
      | [] => .refused t
    | .start => if c.pos = 0 then .matched [] c t else .refused t
    | .finish => if c.rest.isEmpty then .matched [] c t else .refused t
    | .opt e =>
      match run g depth e ctx c t with
      | .refused t => .matched [] c t
      | done => done
    | .not e =>
      match run g depth e { ctx with looking := ctx.looking.flip } c t with
      | .matched _ _ t => .refused t
      | .refused t => .matched [] c t
      | .exhausted => .exhausted
    | .alt a b =>
      match run g depth a ctx c t with
      | .refused t => run g depth b ctx c t
      | done => done
    | .seq a b =>
      match run g depth a ctx c t with
      | .matched first c t =>
        match skip g depth ctx c t with
        | .matched _ c t =>
          match run g depth b ctx c t with
          | .matched second c t => .matched (first ++ second) c t
          | failed => failed
        | failed => failed
      | failed => failed
    | .star e =>
      match run g depth e ctx c t with
      | .matched nodes c t => again g depth e ctx nodes c t
      | .refused t => .matched [] c t
      | .exhausted => .exhausted
    | .rule r =>
      let d := g.define r
      match d.kind with
      | .silent => run g depth d.body ctx c t
      | kind =>
        close r kind ctx c (t.mark c.pos)
          (run g depth d.body { ctx with spacing := kind.inner ctx.spacing } c t)

/-- Layout, where it is skipped. -/
def skip (g : RuleSet R) : Nat → Context → Cursor → Trail R → Outcome R
  | 0, _, _, _ => .exhausted
  | depth + 1, ctx, c, t =>
    match ctx.spacing with
    | .free => run g depth g.layout { ctx with spacing := .solid } c t
    | _ => .matched [] c t

/-- Further matches of an expression, each after layout. Layout before one that fails is given
back. -/
def again (g : RuleSet R) : Nat → Peg R → Context → List (Node R) → Cursor → Trail R → Outcome R
  | 0, _, _, _, _, _ => .exhausted
  | depth + 1, e, ctx, nodes, c, t =>
    match skip g depth ctx c t with
    | .matched _ ahead t =>
      match run g depth e ctx ahead t with
      | .matched more c t => again g depth e ctx (nodes ++ more) c t
      | .refused t => .matched nodes c t
      | .exhausted => .exhausted
    | .refused t => .matched nodes c t
    | .exhausted => .exhausted

end

/-- The depth that is allowed per character. No rule is entered twice at one place without an
input character being read, so the depth between two characters is below this. -/
def depthPerChar : Nat := 4096

/-- Matches a rule against a whole text. -/
def parse (g : RuleSet R) (r : R) (text : String) : Outcome R :=
  let cs := text.toList
  run g (depthPerChar * (cs.length + 1)) (.rule r) ⟨.free, .nowhere⟩ ⟨cs, 0⟩ .empty

end RuleSet

end Scriptlet.Grammar
