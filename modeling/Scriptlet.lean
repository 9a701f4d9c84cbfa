import Scriptlet.Eval.Closure
import Scriptlet.Eval.Convert
import Scriptlet.Eval.Expression
import Scriptlet.Eval.Monad
import Scriptlet.Eval.Operator
import Scriptlet.Eval.Pattern
import Scriptlet.Eval.Property
import Scriptlet.Eval.Recursion
import Scriptlet.Eval.Run
import Scriptlet.Eval.Statement
import Scriptlet.Fault
import Scriptlet.Grammar.Peg
import Scriptlet.Grammar.Rule
import Scriptlet.Grammar.Rules
import Scriptlet.Host.Blueprint
import Scriptlet.Host.Check
import Scriptlet.Host.Globals
import Scriptlet.Host.Session
import Scriptlet.Json.Basic
import Scriptlet.Json.Reader
import Scriptlet.Json.Writer
import Scriptlet.Native.Argument
import Scriptlet.Native.Array
import Scriptlet.Native.Function
import Scriptlet.Native.Global
import Scriptlet.Native.Number
import Scriptlet.Native.Text
import Scriptlet.Number.Arithmetic
import Scriptlet.Number.Dyadic
import Scriptlet.Number.Fixed
import Scriptlet.Number.Layout
import Scriptlet.Number.Radix
import Scriptlet.Number.Reader
import Scriptlet.Number.Shortest
import Scriptlet.Parse
import Scriptlet.ParseError
import Scriptlet.Scope.Arena
import Scriptlet.Scope.Reach
import Scriptlet.Scope.Retention
import Scriptlet.Scope.Census
import Scriptlet.Span
import Scriptlet.Table
import Scriptlet.Text.Blank
import Scriptlet.Text.Case
import Scriptlet.Text.CharSet
import Scriptlet.Text.Letter
import Scriptlet.Text.Printable
import Scriptlet.Text.Quoted
import Scriptlet.Text.Search
import Scriptlet.Text.Units
import Scriptlet.Text.Word
import Scriptlet.Tree.Basic
import Scriptlet.Tree.Binding
import Scriptlet.Tree.Escape
import Scriptlet.Tree.Expression
import Scriptlet.Tree.FreeReturn
import Scriptlet.Tree.Operator
import Scriptlet.Tree.Piece
import Scriptlet.Tree.Precedence
import Scriptlet.Tree.Statement
import Scriptlet.Tree.Target
import Scriptlet.Value.Basic
import Scriptlet.Value.Method
import Scriptlet.Value.Property
import Scriptlet.Value.Text
import Scriptlet.Value.ToJson
import Scriptlet.Proofs.Scope.Chain
import Scriptlet.Proofs.Scope.Held
import Scriptlet.Proofs.Scope.Reclaiming
import Scriptlet.Proofs.Scope.Desk
import Scriptlet.Proofs.Scope.Mirror
import Scriptlet.Proofs.Scope.Unobservable
import Scriptlet.Proofs.Scope.Account
import Scriptlet.Proofs.Scope.Hoisting
import Scriptlet.Proofs.Eval.Contract
import Scriptlet.Proofs.Eval.Values
import Scriptlet.Proofs.Eval.Natives
import Scriptlet.Proofs.Eval.Constructs
import Scriptlet.Proofs.Eval.Statements
import Scriptlet.Proofs.Eval.Whole
import Scriptlet.Proofs.Scope.Standing
import Scriptlet.Proofs.Eval.Discipline
import Scriptlet.Proofs.Host.World
import Scriptlet.Proofs.Host.Discipline
import Scriptlet.Proofs.Eval.Permanence
import Scriptlet.Proofs.Host.Permanence
import Scriptlet.Proofs.Eval.Executable
import Scriptlet.Proofs.Host.Executable
import Scriptlet.Proofs.Grammar.Extent
import Scriptlet.Proofs.Tree.Construct
import Scriptlet.Proofs.Tree.Grouping
import Scriptlet.Proofs.Tree.Rest
import Scriptlet.Proofs.Layout.Part
import Scriptlet.Proofs.Layout.Binding
import Scriptlet.Proofs.Layout.Expression
import Scriptlet.Proofs.Layout.Statement
import Scriptlet.Proofs.Layout.Accepted
import Scriptlet.Proofs.Tree.Strict
import Scriptlet.Proofs.Tree.RestLast
import Scriptlet.Proofs.Tree.Jump
import Scriptlet.Proofs.Eval.Completion
import Scriptlet.Proofs.Eval.Location
import Scriptlet.Proofs.Host.Location
import Scriptlet.Proofs.Eval.Limit
import Scriptlet.Proofs.Eval.Prototype
import Scriptlet.Proofs.Host.Prototype
import Scriptlet.Proofs.Scope.Census
import Scriptlet.Proofs.Grammar.Match
import Scriptlet.Proofs.Grammar.Total
import Scriptlet.Proofs.Grammar.Shift
import Scriptlet.Proofs.Shift.Tree
import Scriptlet.Proofs.Shift.Part
import Scriptlet.Proofs.Shift.Expression
import Scriptlet.Proofs.Shift.Statement
import Scriptlet.Proofs.Shift.Accepted
import Scriptlet.Proofs.Eval.Ledger
import Scriptlet.Proofs.Eval.Confinement
import Scriptlet.Proofs.Host.Confinement
import Scriptlet.Proofs.Eval.Growth
import Scriptlet.Proofs.Native.Sort
import Scriptlet.Proofs.Value.Walk
import Scriptlet.Proofs.Value.Conversion
import Scriptlet.Proofs.Value.RoundTrip
import Scriptlet.Proofs.Json.Indent
import Scriptlet.Proofs.Tree.Escape
import Scriptlet.Proofs.Tree.Literal
import Scriptlet.Proofs.Tree.Spelling
import Scriptlet.Proofs.Cover.Agreement
import Scriptlet.Proofs.Eval.Monad
import Scriptlet.Proofs.Eval.Position
import Scriptlet.Proofs.Eval.Expansion
import Scriptlet.Proofs.Value.Enumeration
import Scriptlet.Proofs.Host.Enumeration
import Scriptlet.Proofs.Value.Extension
import Scriptlet.Proofs.Tree.Declared
import Scriptlet.Proofs.Eval.Binding
import Scriptlet.Proofs.Eval.Projection
import Scriptlet.Proofs.Eval.Destructuring
import Scriptlet.Proofs.Eval.Turn
import Scriptlet.Proofs.Eval.Equality
import Scriptlet.Proofs.Native.Join
import Scriptlet.Proofs.Number.Whole
import Scriptlet.Proofs.Text.Search
import Scriptlet.Proofs.Native.Split
import Scriptlet.Proofs.Number.Numeral
import Scriptlet.Proofs.Number.Prefix
import Scriptlet.Proofs.Number.Integer
import Scriptlet.Proofs.Number.Layout
import Scriptlet.Proofs.Native.Course
import Scriptlet.Proofs.Native.Iteration
import Scriptlet.Proofs.Native.Meaning
import Scriptlet.Proofs.Scope.Visibility
import Scriptlet.Proofs.Number.Place
import Scriptlet.Proofs.Text.Occurrence
import Scriptlet.Proofs.Native.Search
import Scriptlet.Proofs.Value.Log
import Scriptlet.Proofs.Value.Index
import Scriptlet.Proofs.Eval.Store
import Scriptlet.Proofs.Native.Readable
