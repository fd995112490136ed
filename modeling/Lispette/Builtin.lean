import Lispette.Action

/-!
The functions that every prelude brings along. The number of arguments is checked before their
kinds, and the kinds from left to right; a comparison asks for a second argument of the first
one's kind.
-/

namespace Lispette

namespace Builtin

def one : List Value → Except CallError Value
  | [a] => .ok a
  | values => .error (.wrongArity 1 values.length)

def two : List Value → Except CallError (Value × Value)
  | [a, b] => .ok (a, b)
  | values => .error (.wrongArity 2 values.length)

def three : List Value → Except CallError (Value × Value × Value)
  | [a, b, c] => .ok (a, b, c)
  | values => .error (.wrongArity 3 values.length)

def number (v : Value) : Except CallError Float :=
  match v with
  | .number x => .ok x
  | _ => .error (.wrongKind .number v.kind)

def string (v : Value) : Except CallError String :=
  match v with
  | .string s => .ok s
  | _ => .error (.wrongKind .string v.kind)

def bool (v : Value) : Except CallError Bool :=
  match v with
  | .bool b => .ok b
  | _ => .error (.wrongKind .bool v.kind)

def joined : List Value → Except CallError String
  | [] => .ok ""
  | v :: vs => do
    let s ← string v
    let rest ← joined vs
    return s ++ rest

def compare (op : Comparison) (a b : Value) : Except CallError Bool :=
  match a.compare b with
  | .ok order => .ok (op.holds order)
  | .error found => .error (.wrongKind a.kind found)

/-- The answer of a builtin; printing answers nil. -/
def answer : Builtin → List Value → Except CallError Value
  | .print, _ => .ok .nil
  | .concat, values => do
    return .string (← joined values)
  | .arithmetic op, values => do
    let (a, b) ← two values
    let x ← number a
    let y ← number b
    return .number (op.result x y)
  | .comparison op, values => do
    let (a, b) ← two values
    return .bool (← compare op a b)
  | .connective op, values => do
    let (a, b) ← two values
    let p ← bool a
    let q ← bool b
    return .bool (op.result p q)
  | .not, values => do
    let p ← bool (← one values)
    return .bool (!p)
  | .choose, values => do
    let (condition, yes, no) ← three values
    return if ← bool condition then yes else no

def apply (b : Builtin) (values : List Value) : Action CallError Value := do
  if b = .print then Action.print values
  Action.ofExcept (b.answer values)

end Builtin

/-- The constants and functions of a prelude, in the order in which they are bound. -/
def preludeConstants : List (String × Value) :=
  [("nil", .nil), ("true", .bool true), ("false", .bool false)]

def preludeBuiltins : List (String × Builtin) :=
  [("print", .print), ("concat", .concat),
    ("+", .arithmetic .add), ("-", .arithmetic .subtract), ("*", .arithmetic .multiply),
    ("/", .arithmetic .divide), ("pow", .arithmetic .power),
    (">", .comparison .greater), ("<", .comparison .less), (">=", .comparison .greaterEqual),
    ("<=", .comparison .lessEqual), ("=", .comparison .equal), ("!=", .comparison .notEqual),
    ("or", .connective .or), ("and", .connective .and), ("xor", .connective .xor),
    ("not", .not), ("if", .choose)]

namespace Scope

variable {ε : Type}

def empty : Action ε Scope :=
  Action.newFrame [] []

/-- A scope with one more frame inside this one; of two bindings of a name the later counts. -/
def extend (scope : Scope) (bindings : List (String × Value)) : Action ε Scope :=
  Action.newFrame scope.chain bindings.reverse

def bindBuiltin (scope : Scope) (name : String) (b : Builtin) : Action ε Unit := do
  let f ← Action.newFunction name (.builtin b)
  Action.bind scope name (.function f)

def prelude : Action ε Scope := do
  let scope ← empty
  Action.record .installing
  preludeConstants.forM fun (name, value) => Action.bind scope name value
  preludeBuiltins.forM fun (name, b) => scope.bindBuiltin name b
  return scope

end Scope
end Lispette
