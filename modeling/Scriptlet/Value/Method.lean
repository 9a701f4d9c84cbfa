/-!
The functions that come with the language, by name and arity.
-/

namespace Scriptlet

/-- Methods of arrays. -/
inductive ArrayMethod where
  | push
  | pop
  | shift
  | unshift
  | slice
  | concat
  | join
  | indexOf
  | includes
  | reverse
  | map
  | filter
  | forEach
  | reduce
  | some
  | every
  | find
  | findIndex
  | sort
  | toString
  deriving DecidableEq, Repr

/-- Methods of texts. -/
inductive TextMethod where
  | charAt
  | charCodeAt
  | indexOf
  | includes
  | slice
  | substring
  | toUpperCase
  | toLowerCase
  | trim
  | trimStart
  | trimEnd
  | split
  | startsWith
  | endsWith
  | repeat
  | padStart
  | padEnd
  | concat
  | toString
  | valueOf
  deriving DecidableEq, Repr

/-- Methods of numbers. -/
inductive NumberMethod where
  | toFixed
  | toString
  | valueOf
  deriving DecidableEq, Repr

/-- Methods of functions. -/
inductive FunctionMethod where
  | call
  | apply
  | bind
  | toString
  deriving DecidableEq, Repr

/-- Methods of plain objects. -/
inductive ObjectMethod where
  | hasOwnProperty
  | toString
  | valueOf
  deriving DecidableEq, Repr

/-- Functions of one number. -/
inductive MathFunction where
  | abs
  | floor
  | ceil
  | round
  | sqrt
  | trunc
  | sign
  deriving DecidableEq, Repr

/-- Functions of the standard globals. -/
inductive GlobalFunction where
  | stringify
  | parseJson
  | math (f : MathFunction)
  | max
  | min
  | pow
  | keys
  | values
  | entries
  | assign
  | isArray
  | log
  | string
  | number
  | boolean
  | parseInt
  | parseFloat
  | isNaN
  | isFinite
  /-- The text of an error. -/
  | errorText
  deriving DecidableEq, Repr

/-- A name and a count of parameters. -/
structure Signature where
  name : String
  arity : Nat
  deriving DecidableEq, Repr

def ArrayMethod.signature : ArrayMethod → Signature
  | .push => ⟨"push", 1⟩
  | .pop => ⟨"pop", 0⟩
  | .shift => ⟨"shift", 0⟩
  | .unshift => ⟨"unshift", 1⟩
  | .slice => ⟨"slice", 2⟩
  | .concat => ⟨"concat", 1⟩
  | .join => ⟨"join", 1⟩
  | .indexOf => ⟨"indexOf", 1⟩
  | .includes => ⟨"includes", 1⟩
  | .reverse => ⟨"reverse", 0⟩
  | .map => ⟨"map", 1⟩
  | .filter => ⟨"filter", 1⟩
  | .forEach => ⟨"forEach", 1⟩
  | .reduce => ⟨"reduce", 1⟩
  | .some => ⟨"some", 1⟩
  | .every => ⟨"every", 1⟩
  | .find => ⟨"find", 1⟩
  | .findIndex => ⟨"findIndex", 1⟩
  | .sort => ⟨"sort", 1⟩
  | .toString => ⟨"toString", 0⟩

def ArrayMethod.all : List ArrayMethod :=
  [.push, .pop, .shift, .unshift, .slice, .concat, .join, .indexOf, .includes, .reverse, .map,
    .filter, .forEach, .reduce, .some, .every, .find, .findIndex, .sort, .toString]

def TextMethod.signature : TextMethod → Signature
  | .charAt => ⟨"charAt", 1⟩
  | .charCodeAt => ⟨"charCodeAt", 1⟩
  | .indexOf => ⟨"indexOf", 1⟩
  | .includes => ⟨"includes", 1⟩
  | .slice => ⟨"slice", 2⟩
  | .substring => ⟨"substring", 2⟩
  | .toUpperCase => ⟨"toUpperCase", 0⟩
  | .toLowerCase => ⟨"toLowerCase", 0⟩
  | .trim => ⟨"trim", 0⟩
  | .trimStart => ⟨"trimStart", 0⟩
  | .trimEnd => ⟨"trimEnd", 0⟩
  | .split => ⟨"split", 2⟩
  | .startsWith => ⟨"startsWith", 1⟩
  | .endsWith => ⟨"endsWith", 1⟩
  | .repeat => ⟨"repeat", 1⟩
  | .padStart => ⟨"padStart", 2⟩
  | .padEnd => ⟨"padEnd", 2⟩
  | .concat => ⟨"concat", 1⟩
  | .toString => ⟨"toString", 0⟩
  | .valueOf => ⟨"valueOf", 0⟩

def TextMethod.all : List TextMethod :=
  [.charAt, .charCodeAt, .indexOf, .includes, .slice, .substring, .toUpperCase, .toLowerCase, .trim,
    .trimStart, .trimEnd, .split, .startsWith, .endsWith, .repeat, .padStart, .padEnd, .concat,
    .toString, .valueOf]

def NumberMethod.signature : NumberMethod → Signature
  | .toFixed => ⟨"toFixed", 1⟩
  | .toString => ⟨"toString", 1⟩
  | .valueOf => ⟨"valueOf", 0⟩

def NumberMethod.all : List NumberMethod :=
  [.toFixed, .toString, .valueOf]

def FunctionMethod.signature : FunctionMethod → Signature
  | .call => ⟨"call", 1⟩
  | .apply => ⟨"apply", 2⟩
  | .bind => ⟨"bind", 1⟩
  | .toString => ⟨"toString", 0⟩

def FunctionMethod.all : List FunctionMethod :=
  [.call, .apply, .bind, .toString]

def ObjectMethod.signature : ObjectMethod → Signature
  | .hasOwnProperty => ⟨"hasOwnProperty", 1⟩
  | .toString => ⟨"toString", 0⟩
  | .valueOf => ⟨"valueOf", 0⟩

def ObjectMethod.all : List ObjectMethod :=
  [.hasOwnProperty, .toString, .valueOf]

def MathFunction.name : MathFunction → String
  | .abs => "abs"
  | .floor => "floor"
  | .ceil => "ceil"
  | .round => "round"
  | .sqrt => "sqrt"
  | .trunc => "trunc"
  | .sign => "sign"

def MathFunction.all : List MathFunction :=
  [.abs, .floor, .ceil, .round, .sqrt, .trunc, .sign]

def GlobalFunction.signature : GlobalFunction → Signature
  | .stringify => ⟨"stringify", 3⟩
  | .parseJson => ⟨"parse", 1⟩
  | .math f => ⟨f.name, 1⟩
  | .max => ⟨"max", 2⟩
  | .min => ⟨"min", 2⟩
  | .pow => ⟨"pow", 2⟩
  | .keys => ⟨"keys", 1⟩
  | .values => ⟨"values", 1⟩
  | .entries => ⟨"entries", 1⟩
  | .assign => ⟨"assign", 2⟩
  | .isArray => ⟨"isArray", 1⟩
  | .log => ⟨"log", 0⟩
  | .string => ⟨"String", 1⟩
  | .number => ⟨"Number", 1⟩
  | .boolean => ⟨"Boolean", 1⟩
  | .parseInt => ⟨"parseInt", 2⟩
  | .parseFloat => ⟨"parseFloat", 1⟩
  | .isNaN => ⟨"isNaN", 1⟩
  | .isFinite => ⟨"isFinite", 1⟩
  | .errorText => ⟨"toString", 0⟩

end Scriptlet
