import Lispette.Proofs.SessionStandards

/-!
Sessions under way. A session is at rest, or at a moment of a step that evaluates; whoever takes
the steps may hand back every value that the session has answered or printed. A stage comes with the
functions made so far, in order: one whenever a declaration is evaluated, and one for each builtin
of a new prelude.
-/

namespace Lispette

open Moment

namespace Store

def printedValues (s : Store) : List Value :=
  s.printed.toList.flatten

/-- The functions that are made when these builtins are bound one after the other. -/
def boundBuiltins (scope : Scope) (s : Store) : List (String × Builtin) → List Function
  | [] => []
  | entry :: rest => (s.newFunction entry.1 (.builtin entry.2)).1 ::
      (s.bindBuiltin scope entry).boundBuiltins scope rest

/-- The functions that are made when a prelude is. -/
def preludeFunctions (s : Store) : List Function :=
  let made := s.newFrame [] []
  (preludeConstants.foldl (bindConstant made.1) (made.2.record .installing)).boundBuiltins made.1
    preludeBuiltins

end Store

/-- The function that is made at a moment, if a declaration is evaluated. -/
def Moment.made? (m : Moment) : Option Function :=
  match m.focus with
  | .tree (.function name parameters body _) scope meter =>
    some (m.store.declare name ⟨parameters, body, scope, meter⟩).1
  | _ => none

/-- A session at rest, with the values that it has answered, or at a moment of a step. -/
inductive Stage
  | resting (s : Session) (answered : List Value)
  | within (s : Session) (answered : List Value) (m : Moment)

namespace Session

/-- The moment at which a step begins to evaluate, if it evaluates something. -/
def begins? (s : Session) : Step → Option Moment
  | .evaluate scope interpreter source => do
    let meter ← s.interpreter? interpreter
    let scope ← s.scope? scope
    match readSource source s.store with
    | .ok t store => some (.start t scope meter store)
    | .error _ _ => none
  | .run scope interpreter tree => do
    let meter ← s.interpreter? interpreter
    let scope ← s.scope? scope
    return .start tree scope meter s.store
  | .call function arguments => do
    let callee ← s.resolve? function
    let values ← arguments.mapM s.resolve?
    let f ← callee.function?
    match f.code with
    | .closure _ => some ⟨.body f values, [], s.store⟩
    | .builtin _ => none
  | _ => none

/-- The functions that a step makes without evaluating anything. -/
def installs (s : Session) : Step → List Function
  | .makePrelude _ => s.store.preludeFunctions
  | _ => []

/-- What whoever takes the steps has seen of the session. -/
def known (s : Session) (answered : List Value) : List Value :=
  answered ++ s.store.printedValues

end Session

/-- The tree that a step evaluates. -/
def Step.tree? : Step → Option Tree
  | .evaluate _ _ source => (Tree.ofSource source).toOption
  | .run _ _ tree => some tree
  | _ => none

/-- The functions that a step gives are among the known values. -/
def Step.GivesKnown (known : List Value) (x : Step) : Prop :=
  ∀ f, .value (.function f) ∈ x.operands → .function f ∈ known

/-- The stage is reached by steps of an allowed kind, and these functions were made on the way. -/
inductive Stage.Reached (allowed : Step → Prop) : List Function → Stage → Prop
  | start (limit : Nat) : Reached allowed (Store.newMeter {} limit).2.preludeFunctions
      (.resting (.start limit) [])
  | startBare (limit : Nat) : Reached allowed [] (.resting (.startBare limit) [])
  | idle {made : List Function} {s s' : Session} {answered : List Value} {x : Step}
      {answer : Answer} (before : Reached allowed made (.resting s answered)) (kind : allowed x)
      (given : x.GivesKnown (s.known answered)) (idle : s.begins? x = none)
      (taken : s.step x = some (answer, s')) :
      Reached allowed (made ++ s.installs x) (.resting s' (answered ++ answer.value?.toList))
  | begun {made : List Function} {s : Session} {answered : List Value} {x : Step} {m : Moment}
      (before : Reached allowed made (.resting s answered)) (kind : allowed x)
      (given : x.GivesKnown (s.known answered)) (begins : s.begins? x = some m) :
      Reached allowed made (.within s answered m)
  | next {made : List Function} {s : Session} {answered : List Value} {m m' : Moment}
      (before : Reached allowed made (.within s answered m)) (next : Next m m') :
      Reached allowed (made ++ m.made?.toList) (.within s answered m')
  | returned {made : List Function} {s : Session} {answered : List Value} {v : Value} {t : Store}
      (before : Reached allowed made (.within s answered ⟨.result (.ok v), [], t⟩)) :
      Reached allowed made (.resting { s with store := t } (answered ++ [v]))
  | failed {made : List Function} {s : Session} {answered : List Value} {e : EvalError} {t : Store}
      (before : Reached allowed made (.within s answered ⟨.result (.error e), [], t⟩)) :
      Reached allowed made (.resting { s with store := t } answered)

/-- The failure of an evaluation or of a body that an answer reports. -/
def Answer.evalError? : Answer → Option EvalError
  | .failure (.eval e) | .callFailure (.inside e) => some e
  | _ => none

/-- The answer tells what an evaluation came to. -/
inductive Answer.Tells : Answer → EStateM.Result EvalError Store Value → Prop
  | value (v : Value) (t : Store) : Tells (.value v) (.ok v t)
  | called (name : String) (v : Value) (t : Store) : Tells (.called name v) (.ok v t)
  | failure (e : EvalError) (t : Store) : Tells (.failure (.eval e)) (.error e t)
  | callFailure (e : EvalError) (t : Store) : Tells (.callFailure (.inside e)) (.error e t)

namespace Session

variable {s s' : Session} {x : Step} {answer : Answer} {m : Moment}

/-- An action of a session that evaluates tells the outcome, and leaves the store of it. -/
theorem tells_reply (s : Session) {x : Action Failure Value}
    {r : EStateM.Result EvalError Store Value} (run : ∃ y t, x s.store = Action.mapError .eval y t ∧ r = y t) :
    (reply (s.perform x).1).Tells r ∧
      (s.perform x).2 = { s with store := (ended r).store } := by
  obtain ⟨y, t, run, rfl⟩ := run
  unfold perform
  cases inner : y t with
  | ok v u =>
    rw [run, Action.mapError_of_ok _ inner]
    exact ⟨.value v u, rfl⟩
  | error e u =>
    rw [run, Action.mapError_of_error _ inner]
    exact ⟨.failure e u, rfl⟩

/-- A step that evaluates goes on to the end of the evaluation, and answers what it comes to. -/
theorem exists_tells (begins : s.begins? x = some m) (taken : s.step x = some (answer, s')) :
    ∃ r, Leads m (ended r) ∧ answer.Tells r ∧ s' = { s with store := (ended r).store } := by
  cases x with
  | evaluate scope interpreter source =>
    simp only [begins?, Option.bind_eq_bind, Option.bind_eq_some_iff] at begins
    obtain ⟨meter, metered, scope, named, begins⟩ := begins
    simp only [step, metered, named, Option.bind_eq_bind, Option.bind_some] at taken
    cases read : readSource source s.store with
    | error e t =>
      rw [read] at begins
      cases begins
    | ok tree t =>
      rw [read] at begins
      cases begins
      cases taken
      have run : evaluate meter scope source s.store =
        Action.mapError .eval (tree.eval meter scope) t := Action.bind_of_ok read
      obtain ⟨tells, after⟩ := s.tells_reply ⟨_, _, run, rfl⟩
      exact ⟨_, tree.leads_eval scope meter t, tells, after⟩
  | run scope interpreter tree =>
    simp only [begins?, Option.bind_eq_bind, Option.bind_eq_some_iff] at begins
    obtain ⟨meter, metered, scope, named, begins⟩ := begins
    simp only [step, metered, named, Option.bind_eq_bind, Option.bind_some] at taken
    cases begins
    cases taken
    obtain ⟨tells, after⟩ := s.tells_reply ⟨tree.eval meter scope, s.store, rfl, rfl⟩
    exact ⟨_, tree.leads_eval scope meter s.store, tells, after⟩
  | call function arguments =>
    simp only [begins?, Option.bind_eq_bind, Option.bind_eq_some_iff] at begins
    obtain ⟨callee, resolved, values, resolvedAll, f, same, begins⟩ := begins
    cases callee with
    | function g =>
      cases same
      simp only [step, resolved, resolvedAll, Option.bind_eq_bind, Option.bind_some] at taken
      cases code : f.code with
      | builtin b =>
        rw [code] at begins
        cases begins
      | closure c =>
        rw [code] at begins
        cases begins
        -- a direct call goes on as the evaluation of the body
        have body := c.body.leads_eval (s.store.enterBody c values).1 c.meter
          (s.store.enterBody c values).2
        have leads := (Next.closure f c values [] s.store code).leads body
        refine ⟨_, leads, ?_⟩
        have called := Function.call_of_closure code values s.store
        unfold perform at taken
        cases run : c.body.eval c.meter (s.store.enterBody c values).1
            (s.store.enterBody c values).2 with
        | ok v t =>
          rw [called, Action.mapError_of_ok _ run] at taken
          cases taken
          exact ⟨.called f.name v t, rfl⟩
        | error e t =>
          rw [called, Action.mapError_of_error _ run] at taken
          cases taken
          exact ⟨.callFailure e t, rfl⟩
    | nil | bool | number | string => cases same
  | _ => cases begins

/-- The value is what one of the operands of the step stands for. -/
def Gives (s : Session) (x : Step) (v : Value) : Prop :=
  ∃ operand ∈ x.operands, s.resolve? operand = some v

theorem gives_arguments (function : Operand) {arguments : List Operand} {values : List Value}
    (resolvedAll : arguments.mapM s.resolve? = some values) :
    ∀ v ∈ values, s.Gives (.call function arguments) v := by
  intro v member
  obtain ⟨operand, known, resolved⟩ := exists_of_mem_mapM resolvedAll member
  exact ⟨operand, List.mem_cons_of_mem _ known, resolved⟩

/-- How a step that evaluates something begins. -/
inductive Begins (s : Session) (x : Step) : Moment → Prop
  | tree {name : String} {t : Tree} {scope : Scope} (meter : Nat) {store : Store}
      (told : x.tree? = some t) (named : s.scope? name = some scope)
      (noted : s.store.Noted store) : Begins s x (.start t scope meter store)
  | body {f : Function} {values : List Value} (callee : s.Gives x (.function f))
      (given : ∀ v ∈ values, s.Gives x v) : Begins s x ⟨.body f values, [], s.store⟩

theorem begins (begins : s.begins? x = some m) : s.Begins x m := by
  cases x with
  | evaluate scope interpreter source =>
    simp only [begins?, Option.bind_eq_bind, Option.bind_eq_some_iff] at begins
    obtain ⟨meter, -, scope, named, begins⟩ := begins
    obtain ⟨t, noted, read⟩ := readSource_run source s.store
    rw [read] at begins
    cases said : Tree.ofSource source with
    | ok tree =>
      rw [said] at begins
      cases begins
      exact .tree meter (congrArg Except.toOption said) named noted
    | error e =>
      rw [said] at begins
      cases begins
  | run scope interpreter tree =>
    simp only [begins?, Option.bind_eq_bind, Option.bind_eq_some_iff] at begins
    obtain ⟨meter, -, scope, named, begins⟩ := begins
    cases begins
    exact .tree meter rfl named (.refl _)
  | call function arguments =>
    simp only [begins?, Option.bind_eq_bind, Option.bind_eq_some_iff] at begins
    obtain ⟨callee, resolved, values, resolvedAll, f, same, begins⟩ := begins
    cases callee with
    | function g =>
      cases same
      cases code : f.code with
      | builtin b =>
        rw [code] at begins
        cases begins
      | closure c =>
        rw [code] at begins
        cases begins
        exact .body ⟨function, List.mem_cons_self, resolved⟩ (gives_arguments function resolvedAll)
    | nil | bool | number | string => cases same
  | _ => cases begins

/-- What a step does that evaluates nothing: the functions it makes, the value it shows, and the
store it leaves. -/
inductive Idles (s : Session) (x : Step) : List Function → Option Value → Store → Prop
  | still {t : Store} (frames : t.frames = s.store.frames)
      (functionCount : t.functionCount = s.store.functionCount)
      (printed : t.printed = s.store.printed) : Idles s x [] none t
  | found {scope : Scope} {name : String} {v : Value}
      (bound : s.store.lookup scope name = some v) : Idles s x [] (some v) s.store
  | framed (outer : List Nat) {frame : Frame} (given : ∀ binding ∈ frame, s.Gives x binding.2) :
      Idles s x [] none (s.store.newFrame outer frame).2
  | bound (scope : Scope) (name : String) {v : Value} (given : s.Gives x v) :
      Idles s x [] none (s.store.bind scope name v)
  | installed : Idles s x s.store.preludeFunctions none s.store.newPrelude.2
  | applied {b : Builtin} {values : List Value} {v? : Option Value}
      (given : ∀ v ∈ values, s.Gives x v) (answered : ∀ v, v? = some v → b.answer values = .ok v) :
      Idles s x [] v? (s.store.afterBuiltin b values)

theorem idles_call {function : Operand} {arguments : List Operand}
    (idle : s.begins? (.call function arguments) = none)
    (taken : s.step (.call function arguments) = some (answer, s')) :
    s.Idles (.call function arguments) [] answer.value? s'.store ∧ answer.evalError? = none := by
  simp only [step, Option.bind_eq_bind, Option.bind_eq_some_iff] at taken
  obtain ⟨callee, resolved, values, resolvedAll, taken⟩ := taken
  have given := gives_arguments function resolvedAll
  cases callee with
  | function f =>
    cases code : f.code with
    | closure c =>
      simp [begins?, resolved, resolvedAll, Value.function?, code] at idle
    | builtin b =>
      have run := (Function.call_of_builtin code values s.store).trans (b.apply_eq values s.store)
      dsimp only [perform] at taken
      rcases b.answer_cases values with ⟨v, answered, -⟩ | ⟨e, answered, outside⟩
      · rw [answered] at run
        rw [run] at taken
        cases taken
        exact ⟨.applied given fun w same => by cases same; exact answered, rfl⟩
      · rw [answered] at run
        rw [run] at taken
        cases taken
        refine ⟨.applied given fun w same => (by cases same), ?_⟩
        cases e with
        | inside inner => exact absurd rfl (outside inner)
        | wrongKind expected found | wrongArity expected found => rfl
  | nil | bool | number | string =>
    cases taken
    exact ⟨.still rfl rfl rfl, rfl⟩

/-- A step that evaluates nothing reports no failure of an evaluation. -/
theorem idles (idle : s.begins? x = none) (taken : s.step x = some (answer, s')) :
    s.Idles x (s.installs x) answer.value? s'.store ∧ answer.evalError? = none := by
  cases x with
  | evaluate scope interpreter source =>
    simp only [step, Option.bind_eq_bind, Option.bind_eq_some_iff] at taken
    obtain ⟨meter, metered, scope, named, taken⟩ := taken
    obtain ⟨t, noted, read⟩ := readSource_run source s.store
    cases said : Tree.ofSource source with
    | ok tree =>
      rw [said] at read
      simp [begins?, metered, named, read] at idle
    | error e =>
      rw [said] at read
      have run : evaluate meter scope source s.store = .error e t := Action.bind_of_error read
      unfold perform at taken
      rw [run] at taken
      cases taken
      refine ⟨.still noted.frames noted.functionCount noted.printed, ?_⟩
      rcases Tree.ofSource_eq_error said with ⟨e', rfl, -⟩ | ⟨tokens, e', rfl, -⟩ <;> rfl
  | run scope interpreter tree =>
    simp only [step, Option.bind_eq_bind, Option.bind_eq_some_iff] at taken
    obtain ⟨meter, metered, scope, named, -⟩ := taken
    simp [begins?, metered, named] at idle
  | call function arguments => exact idles_call idle taken
  | makeInterpreter name limit =>
    cases taken
    exact ⟨.still rfl rfl rfl, rfl⟩
  | makeScope name =>
    cases taken
    exact ⟨.framed [] (by simp), rfl⟩
  | makePrelude name =>
    rw [step_makePrelude] at taken
    cases taken
    exact ⟨.installed, rfl⟩
  | extendScope name outer bindings =>
    simp only [step, Option.bind_eq_bind, Option.bind_eq_some_iff] at taken
    obtain ⟨outer, -, bound, resolved, taken⟩ := taken
    cases taken
    refine ⟨.framed outer.chain fun binding member => ?_, rfl⟩
    obtain ⟨given, known, named⟩ := exists_of_mem_mapM resolved (List.mem_reverse.mp member)
    obtain ⟨v, found, rfl⟩ := Option.map_eq_some_iff.mp named
    exact ⟨given.2, List.mem_map_of_mem known, found⟩
  | assign scope name operand =>
    simp only [step, Option.bind_eq_bind, Option.bind_eq_some_iff] at taken
    obtain ⟨scope, -, v, resolved, taken⟩ := taken
    cases taken
    exact ⟨.bound scope name ⟨operand, List.mem_cons_self, resolved⟩, rfl⟩
  | find scope name =>
    simp only [step, Option.bind_eq_bind, Option.bind_eq_some_iff] at taken
    obtain ⟨scope, -, taken⟩ := taken
    cases taken
    cases bound : s.store.lookup scope name with
    | none => exact ⟨.still rfl rfl rfl, rfl⟩
    | some v => exact ⟨.found bound, rfl⟩
  | shareInterpreter name shared | shareScope name shared =>
    simp only [step, Option.bind_eq_bind, Option.bind_eq_some_iff] at taken
    obtain ⟨_, -, taken⟩ := taken
    cases taken
    exact ⟨.still rfl rfl rfl, rfl⟩
  | dropScope name =>
    cases taken
    exact ⟨.still rfl rfl rfl, rfl⟩
  | compare a b =>
    simp only [step, Option.bind_eq_bind, Option.bind_eq_some_iff] at taken
    obtain ⟨_, -, _, -, taken⟩ := taken
    cases taken
    exact ⟨.still rfl rfl rfl, rfl⟩

end Session

namespace Stage.Reached

variable {allowed : Step → Prop} {made : List Function} {s s' : Session} {answered : List Value}
  {x : Step} {answer : Answer} {m m' : Moment}

theorem leads (before : Reached allowed made (.within s answered m)) (leads : Leads m m') :
    ∃ new, Reached allowed (made ++ new) (.within s answered m') := by
  induction leads with
  | refl => exact ⟨[], by rwa [List.append_nil]⟩
  | tail _ next ih =>
    obtain ⟨new, reached⟩ := ih
    exact ⟨_, List.append_assoc .. ▸ reached.next next⟩

/-- Every step of a session is taken in stages. -/
theorem step (before : Reached allowed made (.resting s answered)) (kind : allowed x)
    (given : x.GivesKnown (s.known answered)) (taken : s.step x = some (answer, s')) :
    ∃ new, Reached allowed (made ++ new) (.resting s' (answered ++ answer.value?.toList)) := by
  cases begins : s.begins? x with
  | none => exact ⟨_, before.idle kind given begins taken⟩
  | some m =>
    obtain ⟨r, leads, tells, rfl⟩ := Session.exists_tells begins taken
    obtain ⟨new, within⟩ := (before.begun kind given begins).leads leads
    refine ⟨new, ?_⟩
    cases tells with
    | value v t | called name v t => exact within.returned
    | failure e t | callFailure e t =>
      show Reached allowed _ (.resting _ (answered ++ []))
      rw [List.append_nil]
      exact within.failed

end Stage.Reached

/-- The sessions that are reached without giving functions are at rest at some stage. -/
theorem Session.Reachable.exists_stage {s : Session} (reachable : s.Reachable) :
    ∃ made answered, Stage.Reached (fun _ => True) made (.resting s answered) := by
  induction reachable with
  | start limit => exact ⟨_, _, .start limit⟩
  | startBare limit => exact ⟨_, _, .startBare limit⟩
  | @step s s' x answer before plain taken ih =>
    obtain ⟨made, answered, reached⟩ := ih
    have given : x.GivesKnown (s.known answered) := fun f member =>
      absurd rfl (plain.operand _ member)
    obtain ⟨new, reached⟩ := reached.step trivial given taken
    exact ⟨_, _, reached⟩

end Lispette
