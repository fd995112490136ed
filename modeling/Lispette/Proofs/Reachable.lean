import Lispette.Proofs.Course
import Lispette.Session

/-!
The states that sessions reach. A property of stores that the elementary actions and every
evaluation keep holds in all of them; between two steps no call is under way.
-/

namespace Lispette

/-- A value that a step gives is no function: functions come from preludes and programs. -/
def Operand.Plain : Operand → Prop
  | .value v => v.kind ≠ .function
  | .binding _ _ => True

def Step.Plain : Step → Prop
  | .extendScope _ _ bindings => ∀ binding ∈ bindings, binding.2.Plain
  | .assign _ _ operand => operand.Plain
  | .call function arguments => function.Plain ∧ ∀ argument ∈ arguments, argument.Plain
  | .compare a b => a.Plain ∧ b.Plain
  | _ => True

inductive Session.Reachable : Session → Prop
  | start (limit : Nat) : Reachable (start limit)
  | startBare (limit : Nat) : Reachable (startBare limit)
  | step {s s' : Session} {x : Step} {answer : Answer} (before : Reachable s) (plain : x.Plain)
      (taken : s.step x = some (answer, s')) : Reachable s'

namespace Store

/-- A property that the elementary actions and every evaluation keep. -/
structure Lasting (I : Store → Prop) : Prop where
  record : ∀ (s : Store) (e : Entry), I s → I (s.record e)
  print : ∀ (s : Store) (values : List Value), I s → I (s.print values)
  bind : ∀ (s : Store) (scope : Scope) (name : String) (v : Value), I s → I (s.bind scope name v)
  newFrame : ∀ (s : Store) (outer : List Nat) (frame : Frame), I s → I (s.newFrame outer frame).2
  newMeter : ∀ (s : Store) (limit : Nat), I s → I (s.newMeter limit).2
  newFunction : ∀ (s : Store) (name : String) (code : Code), I s → I (s.newFunction name code).2
  eval : ∀ (t : Tree) (scope : Scope) (meter : Nat) (s : Store), I s →
    I ((t.eval meter scope).after s)

namespace Lasting

open Lispette.Action

variable {I : Store → Prop} (lasting : Lasting I)
include lasting

theorem afterBuiltin (s : Store) (b : Builtin) (values : List Value) (h : I s) :
    I (s.afterBuiltin b values) := by
  unfold Store.afterBuiltin
  split
  · exact lasting.print s values h
  · exact h

theorem call (f : Function) (values : List Value) : Keeps I (f.call values) := by
  intro s h
  cases code : f.code with
  | builtin b =>
    rw [Function.after_call_of_builtin code]
    exact lasting.afterBuiltin s b values h
  | closure c =>
    rw [Function.after_call_of_closure code]
    exact lasting.eval _ _ _ _ (lasting.newFrame _ _ _ h)

theorem together : Together fun s t => t = s ∧ I s where
  record s _ e := by
    rintro ⟨rfl, h⟩
    exact ⟨rfl, lasting.record _ e h⟩
  bind s _ scope name v := by
    rintro ⟨rfl, h⟩
    exact ⟨rfl, lasting.bind _ scope name v h⟩
  newFrame s _ outer frame := by
    rintro ⟨rfl, h⟩
    exact ⟨rfl, rfl, lasting.newFrame _ outer frame h⟩
  newFunction s _ name code := by
    rintro ⟨rfl, h⟩
    exact ⟨rfl, rfl, lasting.newFunction _ name code h⟩

theorem evaluate (meter : Nat) (scope : Scope) (source : String) :
    Keeps I (evaluate meter scope source) := by
  have eval (t : Tree) : Keeps I (t.eval meter scope) := lasting.eval t scope meter
  exact ((lasting.together.readSource source).bind fun t => (eval t).parallel.mapError _).keeps

theorem empty : Keeps I (Scope.empty : Action Empty Scope) :=
  fun s => lasting.newFrame s [] []

theorem prelude : Keeps I (Scope.prelude : Action Empty Scope) :=
  lasting.together.prelude.keeps

end Lasting

end Store

namespace Session

variable {ε α : Type} {s s' : Session} {x : Step} {answer : Answer} {I : Store → Prop}

theorem perform_eq (s : Session) (x : Action ε α) :
    (s.perform x).2 = { s with store := x.after s.store } := by
  unfold perform Action.after
  cases x s.store <;> rfl

@[simp] theorem store_perform (s : Session) (x : Action ε α) :
    (s.perform x).2.store = x.after s.store := by
  rw [perform_eq]

@[simp] theorem store_make (s : Session) (x : Action Empty α) :
    (s.make x).2.store = x.after s.store := by
  show (x.sure s.store).2 = _
  unfold Action.sure Action.after
  cases run : x s.store with
  | ok a t => rfl
  | error e t => exact e.elim

@[simp] theorem store_nameScope (s : Session) (name : String) (scope : Scope) :
    (s.nameScope name scope).store = s.store := rfl

/-- A call from outside runs a function, or changes nothing. -/
theorem of_step_call {function : Operand} {arguments : List Operand}
    (taken : s.step (.call function arguments) = some (answer, s')) :
    (∃ f values, s.resolve? function = some (.function f) ∧
      arguments.mapM s.resolve? = some values ∧ s' = (s.perform (f.call values)).2) ∨ s' = s := by
  simp only [Session.step, Option.bind_eq_bind, Option.bind_eq_some_iff] at taken
  obtain ⟨callee, resolved, values, resolvedAll, taken⟩ := taken
  cases callee with
  | function f =>
    refine .inl ⟨f, values, resolved, resolvedAll, ?_⟩
    dsimp only at taken
    generalize s.perform (f.call values) = performed at taken
    obtain ⟨r, next⟩ := performed
    cases r <;> (cases taken; rfl)
  | nil | bool | number | string =>
    cases taken
    exact .inr rfl

theorem keeps_step (lasting : Store.Lasting I) (taken : s.step x = some (answer, s'))
    (h : I s.store) : I s'.store := by
  cases x with
  | evaluate scope interpreter source =>
    simp only [Session.step, Option.bind_eq_bind, Option.bind_eq_some_iff] at taken
    obtain ⟨meter, -, scope, -, taken⟩ := taken
    cases taken
    rw [store_perform]
    exact lasting.evaluate meter scope source _ h
  | run scope interpreter tree =>
    simp only [Session.step, Option.bind_eq_bind, Option.bind_eq_some_iff] at taken
    obtain ⟨meter, -, scope, -, taken⟩ := taken
    cases taken
    rw [store_perform, Action.after_mapError]
    exact lasting.eval tree scope meter _ h
  | makeInterpreter name limit =>
    cases taken
    exact lasting.newMeter _ _ h
  | makeScope name =>
    cases taken
    exact lasting.newFrame _ [] [] h
  | makePrelude name =>
    simp only [Session.step, Option.some.injEq, Prod.mk.injEq] at taken
    obtain ⟨-, rfl⟩ := taken
    rw [store_nameScope, store_make]
    exact lasting.prelude _ h
  | extendScope name outer bindings =>
    simp only [Session.step, Option.bind_eq_bind, Option.bind_eq_some_iff] at taken
    obtain ⟨outer, -, bindings, -, taken⟩ := taken
    cases taken
    exact lasting.newFrame s.store outer.chain bindings.reverse h
  | assign scope name operand =>
    simp only [Session.step, Option.bind_eq_bind, Option.bind_eq_some_iff] at taken
    obtain ⟨scope, -, v, -, taken⟩ := taken
    cases taken
    exact lasting.bind _ _ _ _ h
  | call function arguments =>
    rcases of_step_call taken with ⟨f, values, -, -, rfl⟩ | rfl
    · rw [store_perform]
      exact lasting.call f values s.store h
    · exact h
  | shareInterpreter name shared | shareScope name shared | find scope name =>
    simp only [Session.step, Option.bind_eq_bind, Option.bind_eq_some_iff] at taken
    obtain ⟨_, -, taken⟩ := taken
    cases taken
    exact h
  | dropScope name =>
    cases taken
    exact h
  | compare a b =>
    simp only [Session.step, Option.bind_eq_bind, Option.bind_eq_some_iff] at taken
    obtain ⟨_, -, _, -, taken⟩ := taken
    cases taken
    exact h

theorem keeps_startWith (lasting : Store.Lasting I) {root : Action Empty Scope}
    (kept : Action.Keeps I root) (limit : Nat) (h : I {}) : I (startWith root limit).store := by
  have made : (startWith root limit).store = root.after (Store.newMeter {} limit).2 :=
    store_make ⟨(Store.newMeter {} limit).2, [], []⟩ root
  rw [made]
  exact kept _ (lasting.newMeter {} limit h)

theorem Reachable.keeps (lasting : Store.Lasting I) (reachable : s.Reachable) (h : I {}) :
    I s.store := by
  induction reachable with
  | start limit => exact keeps_startWith lasting lasting.prelude limit h
  | startBare limit => exact keeps_startWith lasting lasting.empty limit h
  | step before plain taken ih => exact keeps_step lasting taken ih

end Session

end Lispette
