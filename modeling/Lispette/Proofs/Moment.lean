import Mathlib.Logic.Relation
import Lispette.Eval

/-!
Evaluation moment by moment, without a budget. A moment is what is being worked on, what waits for
its result, and the store; one rule of the language leads from a moment to the next. At most one
rule applies at a moment, and none when nothing waits for a result that is there.
-/

namespace Lispette

/-- A call: the name at its head, where it stands, and the scope and the meter that it is evaluated
with. -/
structure Site where
  head : String
  position : Position
  scope : Scope
  meter : Nat

inductive Focus
  | tree (t : Tree) (scope : Scope) (meter : Nat)
  | arguments (site : Site) (values : List Value) (rest : List Tree)
  | body (f : Function) (values : List Value)
  | result (r : Except EvalError Value)

/-- What waits for a result. -/
inductive Pending
  | statements (rest : List Tree) (scope : Scope) (meter : Nat)
  | binding (name : String) (scope : Scope)
  | branches (yes no : Tree) (position : Position) (scope : Scope) (meter : Nat)
  | argument (site : Site) (values : List Value) (rest : List Tree)
  | callee (site : Site)

/-- The meter that counts a call which is inside its callee. -/
def Pending.meter? : Pending → Option Nat
  | .callee site => some site.meter
  | _ => none

structure Moment where
  focus : Focus
  pending : List Pending
  store : Store

namespace Store

/-- A function declared in a scope, and bound there. -/
def declare (s : Store) (name : String) (c : Closure) : Function × Store :=
  let made := (s.record (.declaring name c.parameters)).newFunction name (.closure c)
  (made.1, made.2.bind c.scope name (.function made.1))

/-- The new scope in which the body of a closure is evaluated. -/
def enterBody (s : Store) (c : Closure) (values : List Value) : Scope × Store :=
  s.newFrame c.scope.chain (c.parameters.zip values).reverse

/-- What a builtin does besides answering. -/
def afterBuiltin (s : Store) (b : Builtin) (values : List Value) : Store :=
  if b = .print then s.print values else s

end Store

def numberAt (digits : String) (position : Position) : Except EvalError Value :=
  match readNumber? digits with
  | some x => .ok (.number x)
  | none => .error ⟨.notANumber digits, position⟩

def Store.valueAt (s : Store) (scope : Scope) (name : String) (position : Position) :
    Except EvalError Value :=
  match s.lookup scope name with
  | some v => .ok v
  | none => .error ⟨.notDefined name, position⟩

namespace Moment

inductive Next : Moment → Moment → Prop
  | program (body p scope meter k s) :
    Next ⟨.tree (.program body p) scope meter, k, s⟩
      ⟨.result (.ok .nil), .statements body scope meter :: k, s.record (.running body.length)⟩
  | number (digits p scope meter k s) :
    Next ⟨.tree (.number digits p) scope meter, k, s⟩ ⟨.result (numberAt digits p), k, s⟩
  | string (text p scope meter k s) :
    Next ⟨.tree (.string text p) scope meter, k, s⟩ ⟨.result (.ok (.string text)), k, s⟩
  | identifier (name p scope meter k s) :
    Next ⟨.tree (.identifier name p) scope meter, k, s⟩ ⟨.result (s.valueAt scope name p), k, s⟩
  | define (name value p scope meter k s) :
    Next ⟨.tree (.define name value p) scope meter, k, s⟩
      ⟨.tree value scope meter, .binding name scope :: k, s⟩
  | function (name parameters body p scope meter k s) :
    Next ⟨.tree (.function name parameters body p) scope meter, k, s⟩
      ⟨.result (.ok (.function (s.declare name ⟨parameters, body, scope, meter⟩).1)), k,
        (s.declare name ⟨parameters, body, scope, meter⟩).2⟩
  | condition (condition yes no p scope meter k s) :
    Next ⟨.tree (.call "if" [condition, yes, no] p) scope meter, k, s⟩
      ⟨.tree condition scope meter, .branches yes no p scope meter :: k, s⟩
  | call (head arguments p scope meter k s)
      (strict : ¬ (head = "if" ∧ arguments.length = 3)) :
    Next ⟨.tree (.call head arguments p) scope meter, k, s⟩
      ⟨.arguments ⟨head, p, scope, meter⟩ [] arguments, k, s⟩
  | argument (site values t rest k s) :
    Next ⟨.arguments site values (t :: rest), k, s⟩
      ⟨.tree t site.scope site.meter, .argument site values rest :: k, s⟩
  | notDefined (site values k s) (unbound : s.lookup site.scope site.head = none) :
    Next ⟨.arguments site values [], k, s⟩
      ⟨.result (.error ⟨.notDefined site.head, site.position⟩), k, s⟩
  | notCallable (site values k s v) (bound : s.lookup site.scope site.head = some v)
      (other : ∀ f, v ≠ .function f) :
    Next ⟨.arguments site values [], k, s⟩
      ⟨.result (.error ⟨.notCallable v.kind, site.position⟩), k, s⟩
  | tooDeep (site values k s f) (bound : s.lookup site.scope site.head = some (.function f))
      (full : ¬ (s.meter site.meter).depth < (s.meter site.meter).limit) :
    Next ⟨.arguments site values [], k, s⟩
      ⟨.result (.error ⟨.tooDeep (s.meter site.meter).limit, site.position⟩), k, s⟩
  | entered (site values k s f) (bound : s.lookup site.scope site.head = some (.function f))
      (free : (s.meter site.meter).depth < (s.meter site.meter).limit) :
    Next ⟨.arguments site values [], k, s⟩
      ⟨.body f values, .callee site :: k,
        (s.enter site.meter).record (.calling site.head values.length)⟩
  | builtin (f b values site k s) (code : f.code = .builtin b) :
    Next ⟨.body f values, .callee site :: k, s⟩
      ⟨.result ((b.answer values).mapError (CallError.at site.head site.position)),
        .callee site :: k, s.afterBuiltin b values⟩
  | closure (f c values k s) (code : f.code = .closure c) :
    Next ⟨.body f values, k, s⟩
      ⟨.tree c.body (s.enterBody c values).1 c.meter, k, (s.enterBody c values).2⟩
  | nextStatement (v t rest scope meter k s) :
    Next ⟨.result (.ok v), .statements (t :: rest) scope meter :: k, s⟩
      ⟨.tree t scope meter, .statements rest scope meter :: k, s⟩
  | lastStatement (v scope meter k s) :
    Next ⟨.result (.ok v), .statements [] scope meter :: k, s⟩ ⟨.result (.ok v), k, s⟩
  | bound (v name scope k s) :
    Next ⟨.result (.ok v), .binding name scope :: k, s⟩
      ⟨.result (.ok .nil), k, (s.record (.defining name v)).bind scope name v⟩
  | chosen (b yes no p scope meter k s) :
    Next ⟨.result (.ok (.bool b)), .branches yes no p scope meter :: k, s⟩
      ⟨.tree (bif b then yes else no) scope meter, k, s⟩
  | unchosen (v yes no p scope meter k s) (other : ∀ b, v ≠ .bool b) :
    Next ⟨.result (.ok v), .branches yes no p scope meter :: k, s⟩
      ⟨.result (.error ⟨.wrongKind .bool v.kind, p⟩), k, s⟩
  | argumentDone (v site values rest k s) :
    Next ⟨.result (.ok v), .argument site values rest :: k, s⟩
      ⟨.arguments site (values ++ [v]) rest, k, s⟩
  | returned (r site k s) :
    Next ⟨.result r, .callee site :: k, s⟩ ⟨.result r, k, s.leave site.meter⟩
  | failed (e q k s) (ordinary : q.meter? = none) :
    Next ⟨.result (.error e), q :: k, s⟩ ⟨.result (.error e), k, s⟩

def Leads : Moment → Moment → Prop :=
  Relation.ReflTransGen Next

/-- The beginning of an evaluation. -/
def start (t : Tree) (scope : Scope) (meter : Nat) (s : Store) : Moment :=
  ⟨.tree t scope meter, [], s⟩

/-- The end of an evaluation. -/
def ended : EStateM.Result EvalError Store Value → Moment
  | .ok v s => ⟨.result (.ok v), [], s⟩
  | .error e s => ⟨.result (.error e), [], s⟩

variable {m m' m'' : Moment}

theorem Next.unique (first : Next m m') (second : Next m m'') : m' = m'' := by
  cases first <;> cases second <;> grind [Pending.meter?]

theorem not_next_ended (r : EStateM.Result EvalError Store Value) : ¬ Next (ended r) m := by
  intro next
  cases r <;> cases next

end Moment
end Lispette
