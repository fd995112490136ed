import Lispette.Decimal.Notation
import Lispette.Tree

/-!
Values of the language. A function is known by its number, which no other function made in the
same store has; a closure keeps the scope it was declared in and the meter that counts the
calls in its body.
-/

namespace Lispette

inductive Kind
  | number | string | bool | function | nil
  deriving DecidableEq, Inhabited

def Kind.name : Kind → String
  | .number => "NUMBER"
  | .string => "STRING"
  | .bool => "BOOL"
  | .function => "FUNCTION"
  | .nil => "NIL"

/-- A chain of frames, innermost first. -/
structure Scope where
  inner : Nat
  outer : List Nat := []
  deriving DecidableEq, Inhabited

def Scope.chain (scope : Scope) : List Nat :=
  scope.inner :: scope.outer

inductive Arithmetic
  | add | subtract | multiply | divide | power
  deriving DecidableEq

inductive Comparison
  | greater | less | greaterEqual | lessEqual | equal | notEqual
  deriving DecidableEq

inductive Connective
  | or | and | xor
  deriving DecidableEq

inductive Builtin
  | print
  | concat
  | arithmetic (op : Arithmetic)
  | comparison (op : Comparison)
  | connective (op : Connective)
  | not
  | choose
  deriving DecidableEq

structure Closure where
  parameters : List String
  body : Tree
  scope : Scope
  meter : Nat

inductive Code
  | builtin (b : Builtin)
  | closure (c : Closure)

structure Function where
  id : Nat
  name : String
  code : Code

inductive Value
  | nil
  | bool (b : Bool)
  | number (x : Float)
  | string (s : String)
  | function (f : Function)
  deriving Inhabited

namespace Value

def kind : Value → Kind
  | .nil => .nil
  | .bool _ => .bool
  | .number _ => .number
  | .string _ => .string
  | .function _ => .function

def number? : Value → Option Float
  | .number x => some x
  | _ => none

def string? : Value → Option String
  | .string s => some s
  | _ => none

def bool? : Value → Option Bool
  | .bool b => some b
  | _ => none

def function? : Value → Option Function
  | .function f => some f
  | _ => none

/-- The text of a value when it is printed. -/
def text : Value → String
  | .nil => "nil"
  | .bool true => "true"
  | .bool false => "false"
  | .number x => numberText x
  | .string s => s
  | .function f => "fn " ++ f.name

/-- The text of a value when it is shown as a result: strings stand between quotes. -/
def shown : Value → String
  | .string s => "\"" ++ s ++ "\""
  | v => v.text

def same : Value → Value → Bool
  | .nil, .nil => true
  | .bool a, .bool b => a == b
  | .number x, .number y => x == y
  | .string s, .string t => s == t
  | .function f, .function g => f.id == g.id
  | _, _ => false

end Value

/-- Not-a-number stands in no order to any number. -/
def compareNumbers (x y : Float) : Option Ordering :=
  if x < y then some .lt else if y < x then some .gt else if x == y then some .eq else none

/-- The order of two values of one kind, if they are ordered; the kind of the second if the
kinds differ. Strings go by code points, false before true. -/
def Value.compare : Value → Value → Except Kind (Option Ordering)
  | .nil, .nil => .ok (some .eq)
  | .bool a, .bool b => .ok (some (Ord.compare a b))
  | .number x, .number y => .ok (compareNumbers x y)
  | .string s, .string t => .ok (some (Ord.compare s t))
  | .function f, .function g => .ok (if f.id = g.id then some .eq else none)
  | _, v => .error v.kind

def Comparison.holds : Comparison → Option Ordering → Bool
  | .greater, o => o = some .gt
  | .less, o => o = some .lt
  | .greaterEqual, o => o = some .gt || o = some .eq
  | .lessEqual, o => o = some .lt || o = some .eq
  | .equal, o => o = some .eq
  | .notEqual, o => o ≠ some .eq

def Arithmetic.result : Arithmetic → Float → Float → Float
  | .add, x, y => x + y
  | .subtract, x, y => x - y
  | .multiply, x, y => x * y
  | .divide, x, y => x / y
  | .power, x, y => x ^ y

def Connective.result : Connective → Bool → Bool → Bool
  | .or, a, b => a || b
  | .and, a, b => a && b
  | .xor, a, b => a ^^ b

end Lispette
