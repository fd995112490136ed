import Lispette.Eval

/-!
Sessions: one store with named scopes and named interpreters, changed step by step. A step
that names a scope, an interpreter or a binding which is not there has no answer.
-/

namespace Lispette

/-- A value in a step: given, or bound to a name in a scope of the session. -/
inductive Operand
  | value (v : Value)
  | binding (name scope : String)

inductive Step
  | evaluate (scope interpreter source : String)
  | run (scope interpreter : String) (tree : Tree)
  | makeInterpreter (name : String) (limit : Nat)
  | shareInterpreter (name shared : String)
  | makeScope (name : String)
  | makePrelude (name : String)
  | shareScope (name shared : String)
  | dropScope (name : String)
  | extendScope (name outer : String) (bindings : List (String × Operand))
  | assign (scope name : String) (operand : Operand)
  | find (scope name : String)
  | call (function : Operand) (arguments : List Operand)
  | compare (a b : Operand)

inductive Answer
  | done
  | value (v : Value)
  | failure (e : Failure)
  | limit (n : Nat)
  | found (v : Option Value)
  | called (name : String) (v : Value)
  | callFailure (e : CallError)
  | notAFunction (kind : Kind)
  | order (o : Except Kind (Option Ordering)) (same : Bool)

structure Session where
  store : Store
  scopes : List (String × Scope)
  interpreters : List (String × Nat)

namespace Session

variable {ε α : Type}

def rootName : String := "root"

def mainName : String := "main"

def startWith (root : Action Empty Scope) (limit : Nat) : Session :=
  let metered := Store.newMeter {} limit
  let rooted := root.sure metered.2
  ⟨rooted.2, [(rootName, rooted.1)], [(mainName, metered.1)]⟩

/-- One scope, which holds the prelude, and one interpreter. -/
def start (limit : Nat) : Session :=
  startWith Scope.prelude limit

/-- One scope, which binds nothing, and one interpreter. -/
def startBare (limit : Nat) : Session :=
  startWith Scope.empty limit

def scope? (s : Session) (name : String) : Option Scope :=
  s.scopes.lookup name

def interpreter? (s : Session) (name : String) : Option Nat :=
  s.interpreters.lookup name

def nameScope (s : Session) (name : String) (scope : Scope) : Session :=
  { s with scopes := (name, scope) :: s.scopes }

def nameInterpreter (s : Session) (name : String) (meter : Nat) : Session :=
  { s with interpreters := (name, meter) :: s.interpreters }

def find? (s : Session) (scope name : String) : Option Value := do
  s.store.lookup (← s.scope? scope) name

def resolve? (s : Session) : Operand → Option Value
  | .value v => some v
  | .binding name scope => s.find? scope name

def perform (s : Session) (x : Action ε α) : Except ε α × Session :=
  match x s.store with
  | .ok a store => (.ok a, { s with store })
  | .error e store => (.error e, { s with store })

def make (s : Session) (x : Action Empty α) : α × Session :=
  let made := x.sure s.store
  (made.1, { s with store := made.2 })

def reply : Except Failure Value → Answer
  | .ok v => .value v
  | .error e => .failure e

def step (s : Session) : Step → Option (Answer × Session)
  | .evaluate scope interpreter source => do
    let (result, s) := s.perform
      (Lispette.evaluate (← s.interpreter? interpreter) (← s.scope? scope) source)
    return (reply result, s)
  | .run scope interpreter tree => do
    let (result, s) := s.perform
      (Action.mapError .eval (tree.eval (← s.interpreter? interpreter) (← s.scope? scope)))
    return (reply result, s)
  | .makeInterpreter name limit =>
    let (meter, s) := s.make (Action.newMeter limit)
    some (.limit limit, s.nameInterpreter name meter)
  | .shareInterpreter name shared => do
    let meter ← s.interpreter? shared
    return (.limit (s.store.meter meter).limit, s.nameInterpreter name meter)
  | .makeScope name =>
    let (scope, s) := s.make Scope.empty
    some (.done, s.nameScope name scope)
  | .makePrelude name =>
    let (scope, s) := s.make Scope.prelude
    some (.done, s.nameScope name scope)
  | .shareScope name shared => do
    return (.done, s.nameScope name (← s.scope? shared))
  | .dropScope name =>
    some (.done, { s with scopes := s.scopes.filter (·.1 ≠ name) })
  | .extendScope name outer bindings => do
    let outer ← s.scope? outer
    let bindings ← bindings.mapM fun (name, operand) => (s.resolve? operand).map (name, ·)
    let (scope, s) := s.make (outer.extend bindings)
    return (.done, s.nameScope name scope)
  | .assign scope name operand => do
    let scope ← s.scope? scope
    let v ← s.resolve? operand
    let ((), s) := s.make (Action.bind scope name v)
    return (.done, s)
  | .find scope name => do
    return (.found (s.store.lookup (← s.scope? scope) name), s)
  | .call function arguments => do
    let callee ← s.resolve? function
    let values ← arguments.mapM s.resolve?
    match callee with
    | .function f =>
      match s.perform (f.call values) with
      | (.ok v, s) => return (.called f.name v, s)
      | (.error e, s) => return (.callFailure e, s)
    | v => return (.notAFunction v.kind, s)
  | .compare a b => do
    let a ← s.resolve? a
    let b ← s.resolve? b
    return (.order (a.compare b) (a.same b), s)

/-- What the session has printed since an earlier state of it. -/
def printedSince (s earlier : Session) : List (List Value) :=
  s.store.printed.toList.drop earlier.store.printed.size

/-- The answers to a list of steps, each with what was printed meanwhile. -/
def answers (s : Session) : List Step → Option (List (Answer × List (List Value)) × Session)
  | [] => some ([], s)
  | first :: rest => do
    let (answer, next) ← s.step first
    let (others, last) ← next.answers rest
    return ((answer, next.printedSince s) :: others, last)

end Session
end Lispette
