import Lispette.Builtin
import Lispette.Decimal.Reader

/-!
Evaluation. The value of a tree is defined by recursion on the tree, for a given way to apply
functions; applying a closure is evaluating its body, and each such step into a body takes one
unit of a budget. Evaluation with a budget of at least the store's headroom never runs out.
-/

namespace Lispette

/-- How an evaluation with a budget ends early: in a failure of the program, or because the
budget was too small. -/
inductive Halt (ε : Type)
  | failed (e : ε)
  | exhausted

def Halt.map {ε δ : Type} (f : ε → δ) : Halt ε → Halt δ
  | .failed e => .failed (f e)
  | .exhausted => .exhausted

/-- An evaluation with a budget. -/
abbrev Trial (ε α : Type) := Action (Halt ε) α

namespace Trial

variable {ε δ α : Type}

def fail (e : ε) : Trial ε α :=
  throw (.failed e)

/-- Counts a call on a meter while it runs, unless the meter is full. -/
def counted (meter : Nat) (position : Position) (x : Trial EvalError α) : Trial EvalError α := do
  let m := (← get).meter meter
  if m.depth < m.limit then
    modify (·.enter meter)
    Action.leaving meter x
  else fail ⟨.tooDeep m.limit, position⟩

variable {meter : Nat} {position : Position} {x : Trial EvalError α} {s : Store}

theorem counted_eq (meter : Nat) (position : Position) (x : Trial EvalError α) (s : Store) :
    counted meter position x s =
      if (s.meter meter).depth < (s.meter meter).limit then
        Action.leaving meter x (s.enter meter)
      else fail ⟨.tooDeep (s.meter meter).limit, position⟩ s := by
  show (if (s.meter meter).depth < (s.meter meter).limit then
    (do modify (·.enter meter); Action.leaving meter x)
    else fail ⟨.tooDeep (s.meter meter).limit, position⟩ : Trial EvalError α) s = _
  split <;> rfl

theorem counted_of_free (free : (s.meter meter).depth < (s.meter meter).limit) :
    counted meter position x s = Action.leaving meter x (s.enter meter) := by
  rw [counted_eq, if_pos free]

theorem counted_of_full (full : ¬ (s.meter meter).depth < (s.meter meter).limit) :
    counted meter position x s = fail ⟨.tooDeep (s.meter meter).limit, position⟩ s := by
  rw [counted_eq, if_neg full]

end Trial

/-- The function that a call's head names. -/
def callee (scope : Scope) (head : String) (position : Position) : Trial EvalError Function := do
  match ← Action.lookup scope head with
  | some (.function f) => return f
  | some v => Trial.fail ⟨.notCallable v.kind, position⟩
  | none => Trial.fail ⟨.notDefined head, position⟩

/-- Only the branch that the condition chooses is evaluated. -/
def conditional (position : Position) (condition yes no : Trial EvalError Value) :
    Trial EvalError Value := do
  match ← condition with
  | .bool true => yes
  | .bool false => no
  | v => Trial.fail ⟨.wrongKind .bool v.kind, position⟩

namespace Tree

variable (apply : Function → List Value → Trial CallError Value) (meter : Nat)

/-- A call of a function that is already known with arguments that are already values. -/
def applyAt (head : String) (position : Position) (f : Function) (values : List Value) :
    Trial EvalError Value :=
  Trial.counted meter position do
    Action.record (.calling head values.length)
    Action.mapError (Halt.map (CallError.at head position)) (apply f values)

/-- The arguments come before the look-up of the head. -/
def callWith (scope : Scope) (head : String) (position : Position)
    (arguments : Trial EvalError (List Value)) : Trial EvalError Value := do
  let values ← arguments
  let f ← callee scope head position
  applyAt apply meter head position f values

mutual

def evalWith (scope : Scope) : Tree → Trial EvalError Value
  | .program body _ => do
    Action.record (.running body.length)
    evalLast scope .nil body
  | .number digits position =>
    match readNumber? digits with
    | some x => return .number x
    | none => Trial.fail ⟨.notANumber digits, position⟩
  | .string text _ => return .string text
  | .identifier name position => do
    match ← Action.lookup scope name with
    | some value => return value
    | none => Trial.fail ⟨.notDefined name, position⟩
  | .define name value _ => do
    let value ← value.evalWith scope
    Action.record (.defining name value)
    Action.bind scope name value
    return .nil
  | .function name parameters body _ => do
    Action.record (.declaring name parameters)
    let f ← Action.newFunction name (.closure ⟨parameters, body, scope, meter⟩)
    Action.bind scope name (.function f)
    return .function f
  | .call head arguments position =>
    if head = "if" then
      match arguments with
      | [condition, yes, no] =>
        conditional position (condition.evalWith scope) (yes.evalWith scope) (no.evalWith scope)
      | arguments => callWith apply meter scope head position (evalAll scope arguments)
    else callWith apply meter scope head position (evalAll scope arguments)

def evalAll (scope : Scope) : List Tree → Trial EvalError (List Value)
  | [] => return []
  | t :: ts => do
    let v ← t.evalWith scope
    let vs ← evalAll scope ts
    return v :: vs

/-- The value of the last tree, or the given one if there is none. -/
def evalLast (scope : Scope) (last : Value) : List Tree → Trial EvalError Value
  | [] => return last
  | t :: ts => do
    let v ← t.evalWith scope
    evalLast scope v ts

end

end Tree

/-- Missing arguments leave their parameters unbound, further ones are dropped. -/
def Function.invoke : Nat → Function → List Value → Trial CallError Value
  | 0, _, _ => throw .exhausted
  | budget + 1, f, values =>
    match f.code with
    | .builtin b => Action.mapError .failed (b.apply values)
    | .closure c => do
      let scope ← c.scope.extend (c.parameters.zip values)
      Action.mapError (Halt.map .inside) (c.body.evalWith (invoke budget) c.meter scope)

end Lispette
