import Lispette.Proofs.Actions
import Lispette.Proofs.Moment

/-!
The course of an evaluation. From its start the moments lead to the outcome that the evaluator
finds, whatever waits for it, and a direct call is the evaluation of the function's body; so what
every rule preserves holds of the outcome.
-/

namespace Lispette

open Moment

namespace Moment

variable {m m' m'' : Moment}

@[simp] theorem store_ended (x : Action EvalError Value) (s : Store) :
    (ended (x s)).store = x.after s := by
  unfold ended Action.after
  cases x s <;> rfl

theorem Leads.next (leads : Leads m m') (next : Next m' m'') : Leads m m'' :=
  Relation.ReflTransGen.tail leads next

theorem Next.leads (next : Next m m') (leads : Leads m' m'') : Leads m m'' :=
  Relation.ReflTransGen.head next leads

/-- What every rule preserves holds from then on. -/
theorem Leads.preserves {P : Moment → Prop} (step : ∀ m m', Next m m' → P m → P m')
    (leads : Leads m m') (h : P m) : P m' := by
  induction leads with
  | refl => exact h
  | tail _ next ih => exact step _ _ next ih

/-- Every moment of an evaluation leads to its end. -/
theorem Leads.rest {r : EStateM.Result EvalError Store Value} (leads : Leads m m')
    (whole : Leads m (ended r)) : Leads m' (ended r) := by
  induction leads with
  | refl => exact whole
  | tail _ next ih =>
    rcases ih.cases_head with finished | ⟨_, next', rest⟩
    · subst finished
      exact absurd next (not_next_ended r)
    · rwa [next.unique next']

theorem Leads.ended_unique {r r' : EStateM.Result EvalError Store Value}
    (first : Leads m (ended r)) (second : Leads m (ended r')) : r = r' := by
  rcases (first.rest second).cases_head with same | ⟨_, next, -⟩
  · cases r <;> cases r' <;> simp_all [ended]
  · exact absurd next (not_next_ended r)

theorem Leads.goes_on {r : EStateM.Result EvalError Store Value} (leads : Leads m (ended r)) :
    m = ended r ∨ ∃ m', Next m m' := by
  rcases leads.cases_head with finished | ⟨m', next, -⟩
  · exact .inl finished
  · exact .inr ⟨m', next⟩

theorem Leads.not_endless {r : EStateM.Result EvalError Store Value}
    (leads : Leads m (ended r)) :
    ¬ ∃ moments : Nat → Moment, moments 0 = m ∧ ∀ n, Next (moments n) (moments (n + 1)) := by
  induction leads using Relation.ReflTransGen.head_induction_on with
  | refl =>
    intro endless
    obtain ⟨moments, begins, nexts⟩ := endless
    have next := nexts 0
    rw [begins] at next
    exact not_next_ended r next
  | head next _ ih =>
    intro endless
    obtain ⟨moments, rfl, nexts⟩ := endless
    exact ih ⟨fun n => moments (n + 1), (nexts 0).unique next, fun n => nexts (n + 1)⟩

/-- From a moment on, the outcome of a trial is found: a result there, or a failure that is handed
to what waits. -/
def Finds {α : Type} (m : Moment) (there : α → Store → Moment) (k : List Pending) :
    EStateM.Result (Halt EvalError) Store α → Prop
  | .ok a s => Leads m (there a s)
  | .error (.failed e) s => Leads m ⟨.result (.error e), k, s⟩
  | .error .exhausted _ => True

/-- The moment at which a value is handed to what waits for it. -/
def handed (k : List Pending) (v : Value) (s : Store) : Moment :=
  ⟨.result (.ok v), k, s⟩

variable {α β : Type} {there : α → Store → Moment} {there' : β → Store → Moment}
  {k : List Pending} {q : Pending} {s : Store} {r : EStateM.Result (Halt EvalError) Store α}

theorem Finds.value {v : Value} (next : Next m (handed k v s)) :
    Finds m (handed k) k ((pure v : Trial EvalError Value) s) :=
  .single next

theorem Finds.failure {e : EvalError} (next : Next m ⟨.result (.error e), k, s⟩) :
    Finds m there k ((Trial.fail e : Trial EvalError α) s) :=
  .single next

theorem Finds.after (found : Finds m' there k r) (leads : Leads m m') : Finds m there k r := by
  cases r with
  | ok a t => exact leads.trans found
  | error e t =>
    cases e with
    | failed e => exact leads.trans found
    | exhausted => trivial

theorem Finds.start (next : Next m m') (found : Finds m' there k r) : Finds m there k r :=
  found.after (.single next)

/-- A failure drops what waits for a value. -/
theorem Finds.dropped (found : Finds m there (q :: k) r) (ordinary : q.meter? = none) :
    Finds m there k r := by
  cases r with
  | ok a t => exact found
  | error e t =>
    cases e with
    | failed e => exact Leads.next found (.failed e q k t ordinary)
    | exhausted => trivial

theorem Finds.bind {x : Trial EvalError α} {f : α → Trial EvalError β}
    (first : Finds m there k (x s)) (second : ∀ a t, Finds (there a t) there' k (f a t)) :
    Finds m there' k ((x >>= f) s) := by
  cases run : x s with
  | ok a t =>
    rw [run] at first
    rw [Action.bind_of_ok run]
    exact (second a t).after first
  | error e t =>
    rw [run] at first
    rw [Action.bind_of_error run]
    cases e with
    | failed e => exact first
    | exhausted => trivial

theorem Finds.leaving {site : Site} {x : Trial EvalError Value}
    (inside : Finds m (handed (.callee site :: k)) (.callee site :: k) (x s)) :
    Finds m (handed k) k (Action.leaving site.meter x s) := by
  cases run : x s with
  | ok v t =>
    rw [run] at inside
    rw [Action.leaving_of_ok run]
    exact Leads.next inside (.returned (.ok v) site k t)
  | error e t =>
    rw [run] at inside
    rw [Action.leaving_of_error run]
    cases e with
    | failed e => exact Leads.next inside (.returned (.error e) site k t)
    | exhausted => trivial

end Moment

/-- The body of a function is entered and found as the given application says. -/
def Applies (apply : Function → List Value → Trial CallError Value) : Prop :=
  ∀ (f : Function) (values : List Value) (site : Site) (k : List Pending) (s : Store),
    Finds ⟨.body f values, .callee site :: k, s⟩ (handed (.callee site :: k)) (.callee site :: k)
      (Action.mapError (Halt.map (CallError.at site.head site.position)) (apply f values) s)

namespace Tree

variable {apply : Function → List Value → Trial CallError Value}

theorem finds_applyAt (applies : Applies apply) {site : Site} {f : Function} {values : List Value}
    {k : List Pending} {s : Store} (bound : s.lookup site.scope site.head = some (.function f)) :
    Finds ⟨.arguments site values [], k, s⟩ (handed k) k
      (applyAt apply site.meter site.head site.position f values s) := by
  unfold applyAt
  by_cases free : (s.meter site.meter).depth < (s.meter site.meter).limit
  · have inside := applies f values site k
      ((s.enter site.meter).record (.calling site.head values.length))
    rw [Trial.counted_of_free free]
    exact Finds.start (.entered _ _ _ _ _ bound free) inside.leaving
  · rw [Trial.counted_of_full free]
    exact .failure (.tooDeep _ _ _ _ _ bound free)

section callee

variable {scope : Scope} {head : String} {s : Store}

theorem callee_of_none (unbound : s.lookup scope head = none) (p : Position) :
    callee scope head p s = Trial.fail ⟨.notDefined head, p⟩ s := by
  have looked : (Action.lookup scope head : Trial EvalError (Option Value)) s = .ok none s :=
    congrArg (EStateM.Result.ok · s) unbound
  exact Action.bind_of_ok looked

theorem callee_of_function {f : Function} (bound : s.lookup scope head = some (.function f))
    (p : Position) : callee scope head p s = .ok f s := by
  have looked : (Action.lookup scope head : Trial EvalError (Option Value)) s =
    .ok (some (.function f)) s := congrArg (EStateM.Result.ok · s) bound
  exact Action.bind_of_ok looked

theorem callee_of_other {v : Value} (bound : s.lookup scope head = some v)
    (other : ∀ f, v ≠ .function f) (p : Position) :
    callee scope head p s = Trial.fail ⟨.notCallable v.kind, p⟩ s := by
  have looked : (Action.lookup scope head : Trial EvalError (Option Value)) s = .ok (some v) s :=
    congrArg (EStateM.Result.ok · s) bound
  cases v with
  | function f => exact absurd rfl (other f)
  | nil | bool | number | string => exact Action.bind_of_ok looked

end callee

theorem finds_callWith (applies : Applies apply) {site : Site} {k : List Pending} {m : Moment}
    {arguments : Trial EvalError (List Value)} {s : Store}
    (found : Finds m (fun values t => ⟨.arguments site values [], k, t⟩) k (arguments s)) :
    Finds m (handed k) k
      (callWith apply site.meter site.scope site.head site.position arguments s) := by
  unfold callWith
  refine Finds.bind found ?_
  intro values t
  cases bound : t.lookup site.scope site.head with
  | none =>
    rw [Action.bind_of_error (callee_of_none bound site.position)]
    exact .failure (.notDefined _ _ _ _ bound)
  | some v =>
    by_cases function : ∃ f, v = .function f
    · obtain ⟨f, rfl⟩ := function
      rw [Action.bind_of_ok (callee_of_function bound site.position)]
      exact finds_applyAt applies bound
    · have other (f : Function) (same : v = .function f) : False := function ⟨f, same⟩
      rw [Action.bind_of_error (callee_of_other bound other site.position)]
      exact .failure (.notCallable _ _ _ _ _ bound other)

/-- A call that is no conditional. -/
theorem finds_call (applies : Applies apply) {head : String} {arguments : List Tree}
    {p : Position} {scope : Scope} {meter : Nat} {k : List Pending} {s : Store}
    (strict : ¬ (head = "if" ∧ arguments.length = 3))
    (found : Finds ⟨.arguments ⟨head, p, scope, meter⟩ [] arguments, k, s⟩
      (fun values t => ⟨.arguments ⟨head, p, scope, meter⟩ values [], k, t⟩) k
      (evalAll apply meter scope arguments s)) :
    Finds ⟨.tree (.call head arguments p) scope meter, k, s⟩ (handed k) k
      (callWith apply meter scope head p (evalAll apply meter scope arguments) s) :=
  Finds.start (.call _ _ _ _ _ _ _ strict) (finds_callWith applies found)

theorem finds_conditional {head : String} {condition yes no : Tree} {p : Position} {scope : Scope}
    {meter : Nat} {first second third : Trial EvalError Value} (lazy : head = "if")
    (decided : ∀ k s, Finds ⟨.tree condition scope meter, k, s⟩ (handed k) k (first s))
    (affirmed : ∀ k s, Finds ⟨.tree yes scope meter, k, s⟩ (handed k) k (second s))
    (denied : ∀ k s, Finds ⟨.tree no scope meter, k, s⟩ (handed k) k (third s))
    (k : List Pending) (s : Store) :
    Finds ⟨.tree (.call head [condition, yes, no] p) scope meter, k, s⟩ (handed k) k
      (conditional p first second third s) := by
  subst lazy
  have waiting : (Pending.branches yes no p scope meter).meter? = none := rfl
  refine Finds.start (.condition ..) ?_
  refine Finds.bind ((decided _ s).dropped waiting) ?_
  intro v t
  cases v with
  | bool b =>
    refine Finds.start (.chosen ..) ?_
    cases b with
    | true => exact affirmed k t
    | false => exact denied k t
  | nil | number | string | function => exact .failure (.unchosen _ _ _ _ _ _ _ _ (by simp))

mutual

theorem finds_evalWith (applies : Applies apply) (scope : Scope) (meter : Nat) :
    ∀ (t : Tree) (k : List Pending) (s : Store),
      Finds ⟨.tree t scope meter, k, s⟩ (handed k) k (t.evalWith apply meter scope s)
  | .program body p, k, s => by
    unfold evalWith
    exact Finds.start (.program ..) (finds_evalLast applies scope meter .nil body k _)
  | .number digits p, k, s => by
    have next := Next.number digits p scope meter k s
    unfold evalWith
    cases read : readNumber? digits with
    | some x =>
      simp only [numberAt, read] at next
      exact .value next
    | none =>
      simp only [numberAt, read] at next
      exact .failure next
  | .string text p, k, s => by
    unfold evalWith
    exact .value (.string ..)
  | .identifier name p, k, s => by
    have next := Next.identifier name p scope meter k s
    unfold evalWith
    show Finds _ _ _ ((match s.lookup scope name with
      | some value => pure value
      | none => Trial.fail ⟨.notDefined name, p⟩ : Trial EvalError Value) s)
    cases bound : s.lookup scope name with
    | some v =>
      simp only [Store.valueAt, bound] at next
      exact .value next
    | none =>
      simp only [Store.valueAt, bound] at next
      exact .failure next
  | .define name value p, k, s => by
    unfold evalWith
    have waiting : (Pending.binding name scope).meter? = none := rfl
    refine Finds.start (.define ..) ?_
    refine Finds.bind ((finds_evalWith applies scope meter value _ s).dropped waiting) ?_
    intro v t
    exact .single (.bound ..)
  | .function name parameters body p, k, s => by
    unfold evalWith
    exact .single (.function ..)
  | .call head [condition, yes, no] p, k, s => by
    unfold evalWith
    split
    · next lazy =>
      exact finds_conditional lazy (finds_evalWith applies scope meter condition)
        (finds_evalWith applies scope meter yes) (finds_evalWith applies scope meter no) k s
    · next other =>
      exact finds_call applies (fun lazy => other lazy.1)
        (finds_evalAll applies ⟨head, p, scope, meter⟩ [condition, yes, no] [] k s)
  | .call head [] p, k, s | .call head [_] p, k, s | .call head [_, _] p, k, s
  | .call head (_ :: _ :: _ :: _ :: _) p, k, s => by
    unfold evalWith
    split <;> exact finds_call applies (by simp)
      (finds_evalAll applies ⟨head, p, scope, meter⟩ _ [] k s)

theorem finds_evalAll (applies : Applies apply) (site : Site) :
    ∀ (ts : List Tree) (values : List Value) (k : List Pending) (s : Store),
      Finds ⟨.arguments site values ts, k, s⟩
        (fun further t => ⟨.arguments site (values ++ further) [], k, t⟩) k
        (evalAll apply site.meter site.scope ts s)
  | [], values, k, s => by
    have same : values ++ [] = values := List.append_nil values
    unfold evalAll
    show Leads _ ⟨.arguments site (values ++ []) [], k, s⟩
    rw [same]
    exact .refl
  | t :: ts, values, k, s => by
    unfold evalAll
    have waiting : (Pending.argument site values ts).meter? = none := rfl
    refine Finds.start (.argument ..) ?_
    refine Finds.bind ((finds_evalWith applies site.scope site.meter t _ s).dropped waiting) ?_
    intro v s'
    refine Finds.start (.argumentDone ..) ?_
    refine Finds.bind (finds_evalAll applies site ts (values ++ [v]) k s') ?_
    intro vs s''
    show Leads _ ⟨.arguments site (values ++ v :: vs) [], k, s''⟩
    rw [List.append_assoc]
    exact .refl

theorem finds_evalLast (applies : Applies apply) (scope : Scope) (meter : Nat) :
    ∀ (last : Value) (ts : List Tree) (k : List Pending) (s : Store),
      Finds (handed (.statements ts scope meter :: k) last s) (handed k) k
        (evalLast apply meter scope last ts s)
  | last, [], k, s => by
    unfold evalLast
    exact .value (.lastStatement ..)
  | last, t :: ts, k, s => by
    unfold evalLast
    have waiting : (Pending.statements ts scope meter).meter? = none := rfl
    refine Finds.start (.nextStatement ..) ?_
    refine Finds.bind ((finds_evalWith applies scope meter t _ s).dropped waiting) ?_
    intro v t
    exact finds_evalLast applies scope meter v ts k t

end

end Tree

namespace Builtin

theorem apply_eq (b : Builtin) (values : List Value) (s : Store) :
    b.apply values s = Action.ofExcept (b.answer values) (s.afterBuiltin b values) := by
  by_cases print : b = .print
  · subst print
    rfl
  · simp [apply, Store.afterBuiltin, print]

theorem after_apply (b : Builtin) (values : List Value) (s : Store) :
    (b.apply values).after s = s.afterBuiltin b values :=
  (Action.after_congr (b.apply_eq values s)).trans (Action.after_ofExcept _ _)

end Builtin

theorem Moment.Finds.inside {m : Moment} {k : List Pending} {site : Site} {s : Store}
    {x : Trial EvalError Value} (found : Finds m (handed k) k (x s)) :
    Finds m (handed k) k (Action.mapError (Halt.map (CallError.at site.head site.position))
      (Action.mapError (Halt.map .inside) x) s) := by
  cases run : x s with
  | ok v t =>
    rw [run] at found
    rw [Action.mapError_of_ok _ (Action.mapError_of_ok _ run)]
    exact found
  | error e t =>
    rw [run] at found
    rw [Action.mapError_of_error _ (Action.mapError_of_error _ run)]
    cases e with
    | failed e => exact found
    | exhausted => trivial

theorem Function.applies_invoke (n : Nat) : Applies (invoke n) := by
  induction n with
  | zero => exact fun _ _ _ _ _ => trivial
  | succ n ih =>
    intro f values site k s
    unfold invoke
    cases code : f.code with
    | builtin b =>
      have next := Next.builtin f b values site k s code
      have run := b.apply_eq values s
      cases answer : b.answer values with
      | ok v =>
        rw [answer] at next run
        rw [Action.mapError_of_ok _ (Action.mapError_of_ok _ run)]
        exact .single next
      | error e =>
        rw [answer] at next run
        rw [Action.mapError_of_error _ (Action.mapError_of_error _ run)]
        exact .single next
    | closure c =>
      have found := Tree.finds_evalWith ih (s.enterBody c values).1 c.meter c.body
        (.callee site :: k) (s.enterBody c values).2
      exact Finds.start (.closure _ _ _ _ _ code) found.inside

namespace Trial

variable {ε α : Type}

theorem failed_complete (x : Store → Trial ε α) (enough : ∀ s, Steady s.headroom (x s))
    (s : Store) : Action.mapError .failed (complete x enough) s = x s s := by
  cases done : complete x enough s with
  | ok a t =>
    rw [Action.mapError_of_ok _ done]
    unfold complete at done
    split at done
    · next out => cases done; exact out.symm
    · cases done
    · next out => exact ((enough s).not_exhausted out).elim
  | error e t =>
    rw [Action.mapError_of_error _ done]
    unfold complete at done
    split at done
    · cases done
    · next out => cases done; exact out.symm
    · next out => exact ((enough s).not_exhausted out).elim

theorem failed_injective {x y : Action ε α} {s t : Store}
    (h : Action.mapError Halt.failed x s = Action.mapError Halt.failed y t) : x s = y t := by
  unfold Action.mapError EStateM.adaptExcept at h
  cases xs : x s <;> cases yt : y t <;> simp_all

end Trial

theorem Tree.failed_eval (t : Tree) (scope : Scope) (meter : Nat) (s : Store) :
    Action.mapError .failed (t.eval meter scope) s =
      t.evalWith (Function.invoke s.headroom) meter scope s :=
  Trial.failed_complete ..

/-- The moment at which an outcome is handed to what waits for it. -/
def Moment.delivered (k : List Pending) : EStateM.Result EvalError Store Value → Moment
  | .ok v s => ⟨.result (.ok v), k, s⟩
  | .error e s => ⟨.result (.error e), k, s⟩

/-- Whatever waits for a tree, the moments lead to the outcome that the evaluator finds. -/
theorem Tree.leads_delivered (t : Tree) (scope : Scope) (meter : Nat) (k : List Pending)
    (s : Store) : Leads ⟨.tree t scope meter, k, s⟩ (delivered k (t.eval meter scope s)) := by
  have found := finds_evalWith (Function.applies_invoke s.headroom) scope meter t k s
  rw [← failed_eval] at found
  cases run : t.eval meter scope s with
  | ok v s' =>
    rw [Action.mapError_of_ok _ run] at found
    exact found
  | error e s' =>
    rw [Action.mapError_of_error _ run] at found
    exact found

/-- From the start of an evaluation the moments lead to the outcome that the evaluator finds. -/
theorem Tree.leads_eval (t : Tree) (scope : Scope) (meter : Nat) (s : Store) :
    Leads (start t scope meter s) (ended (t.eval meter scope s)) := by
  have leads := t.leads_delivered scope meter [] s
  cases run : t.eval meter scope s <;> rwa [run] at leads

namespace Function

variable {f : Function} {b : Builtin} {c : Closure}

theorem failed_call (f : Function) (values : List Value) (s : Store) :
    Action.mapError .failed (f.call values) s = f.invoke (s.headroom + 1) values s :=
  Trial.failed_complete ..

theorem call_of_builtin (code : f.code = .builtin b) (values : List Value) (s : Store) :
    f.call values s = b.apply values s := by
  apply Trial.failed_injective
  rw [failed_call, invoke, code]

/-- A direct call of a closure is the evaluation of its body in a new scope. -/
theorem call_of_closure (code : f.code = .closure c) (values : List Value) (s : Store) :
    f.call values s = Action.mapError .inside (c.body.eval c.meter (s.enterBody c values).1)
      (s.enterBody c values).2 := by
  apply Trial.failed_injective
  rw [failed_call, invoke, code]
  have body := c.body.failed_eval (s.enterBody c values).1 c.meter (s.enterBody c values).2
  show Action.mapError (Halt.map CallError.inside) (c.body.evalWith (invoke s.headroom) c.meter
    (s.enterBody c values).1) (s.enterBody c values).2 = _
  cases run : c.body.eval c.meter (s.enterBody c values).1 (s.enterBody c values).2 with
  | ok v t =>
    rw [Action.mapError_of_ok _ run] at body
    rw [Action.mapError_of_ok _ (Action.mapError_of_ok _ run)]
    exact Action.mapError_of_ok _ body.symm
  | error e t =>
    rw [Action.mapError_of_error _ run] at body
    rw [Action.mapError_of_error _ (Action.mapError_of_error _ run)]
    exact Action.mapError_of_error _ body.symm

theorem after_call_of_builtin (code : f.code = .builtin b) (values : List Value) (s : Store) :
    (f.call values).after s = s.afterBuiltin b values :=
  (Action.after_congr (call_of_builtin code values s)).trans (b.after_apply values s)

theorem after_call_of_closure (code : f.code = .closure c) (values : List Value) (s : Store) :
    (f.call values).after s =
      (c.body.eval c.meter (s.enterBody c values).1).after (s.enterBody c values).2 :=
  (Action.after_congr (call_of_closure code values s)).trans (Action.after_mapError _ _ _)

end Function

end Lispette
