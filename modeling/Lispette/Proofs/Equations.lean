import Lispette.Proofs.Course

/-!
The outcome of a tree from the outcomes of its parts. A definition binds the value of its part, a
conditional is the branch that its condition chooses, and a call is the direct call of the function
that its head names when the arguments have been evaluated.
-/

namespace Lispette

open Moment

@[simp] theorem Moment.delivered_nil (r : EStateM.Result EvalError Store Value) :
    delivered [] r = ended r := by
  cases r <;> rfl

/-- A call that is inside its callee ends when the callee does. -/
theorem Moment.Leads.leaving {m : Moment} {site : Site} {k : List Pending}
    {x : Action EvalError Value} {s : Store}
    (inside : Leads m (delivered (.callee site :: k) (x s))) :
    Leads m (delivered k (Action.leaving site.meter x s)) := by
  cases run : x s with
  | ok v t =>
    rw [run] at inside
    rw [Action.leaving_of_ok run]
    exact Leads.next inside (.returned ..)
  | error e t =>
    rw [run] at inside
    rw [Action.leaving_of_error run]
    exact Leads.next inside (.returned ..)

theorem Moment.Next.identifier_of_bound {s : Store} {scope : Scope} {name : String} {v : Value}
    (bound : s.lookup scope name = some v) (p : Position) (meter : Nat) (k : List Pending) :
    Next ⟨.tree (.identifier name p) scope meter, k, s⟩ ⟨.result (.ok v), k, s⟩ := by
  have value : s.valueAt scope name p = .ok v := by rw [Store.valueAt, bound]
  have next := Next.identifier name p scope meter k s
  rwa [value] at next

namespace Tree

variable {meter : Nat} {scope : Scope} {s t : Store} {p : Position}

theorem eval_eq_of_leads {tree : Tree} {r : EStateM.Result EvalError Store Value}
    (leads : Leads (start tree scope meter s) (ended r)) : tree.eval meter scope s = r :=
  (tree.leads_eval scope meter s).ended_unique leads

theorem eval_identifier {name : String} {v : Value} (bound : s.lookup scope name = some v) :
    (identifier name p).eval meter scope s = .ok v s :=
  eval_eq_of_leads (.single (.identifier_of_bound bound ..))

theorem eval_define {name : String} {value : Tree} {v : Value}
    (run : value.eval meter scope s = .ok v t) :
    (define name value p).eval meter scope s =
      .ok .nil ((t.record (.defining name v)).bind scope name v) := by
  have inner := value.leads_delivered scope meter [.binding name scope] s
  rw [run] at inner
  exact eval_eq_of_leads ((Next.define ..).leads (inner.next (.bound ..)))

theorem eval_function (name : String) (parameters : List String) (body : Tree) (p : Position)
    (scope : Scope) (meter : Nat) (s : Store) :
    let c : Closure := ⟨parameters, body, scope, meter⟩
    (function name parameters body p).eval meter scope s =
      .ok (.function (s.declare name c).1) (s.declare name c).2 :=
  eval_eq_of_leads (.single (.function ..))

theorem eval_if {condition yes no : Tree} {q : Bool}
    (run : condition.eval meter scope s = .ok (.bool q) t) :
    (call "if" [condition, yes, no] p).eval meter scope s =
      (bif q then yes else no).eval meter scope t := by
  have inner := condition.leads_delivered scope meter [.branches yes no p scope meter] s
  rw [run] at inner
  have branch := (bif q then yes else no).leads_eval scope meter t
  exact eval_eq_of_leads ((Next.condition ..).leads ((inner.next (.chosen ..)).trans branch))

theorem eval_if_of_ne_bool {condition yes no : Tree} {v : Value}
    (run : condition.eval meter scope s = .ok v t) (other : ∀ q, v ≠ .bool q) :
    (call "if" [condition, yes, no] p).eval meter scope s =
      .error ⟨.wrongKind .bool v.kind, p⟩ t := by
  have inner := condition.leads_delivered scope meter [.branches yes no p scope meter] s
  rw [run] at inner
  exact eval_eq_of_leads
    ((Next.condition ..).leads (inner.next (.unchosen _ _ _ _ _ _ _ _ other)))

/-- The values of several trees, from left to right. -/
def evalEach (meter : Nat) (scope : Scope) : List Tree → Action EvalError (List Value)
  | [] => pure []
  | t :: ts => do
    let v ← t.eval meter scope
    let vs ← evalEach meter scope ts
    return v :: vs

theorem evalEach_cons {tree : Tree} {ts : List Tree} {v : Value} {vs : List Value} {u : Store}
    (first : tree.eval meter scope s = .ok v t) (rest : evalEach meter scope ts t = .ok vs u) :
    evalEach meter scope (tree :: ts) s = .ok (v :: vs) u := by
  unfold evalEach
  rw [Action.bind_of_ok first, Action.bind_of_ok rest]
  rfl

theorem of_evalEach_cons {tree : Tree} {ts : List Tree} {vs : List Value} {u : Store}
    (run : evalEach meter scope (tree :: ts) s = .ok vs u) : ∃ v t ws, vs = v :: ws ∧
      tree.eval meter scope s = .ok v t ∧ evalEach meter scope ts t = .ok ws u := by
  unfold evalEach at run
  cases first : tree.eval meter scope s with
  | error e t =>
    rw [Action.bind_of_error first] at run
    cases run
  | ok v t =>
    rw [Action.bind_of_ok first] at run
    cases rest : evalEach meter scope ts t with
    | error e u' =>
      rw [Action.bind_of_error rest] at run
      cases run
    | ok ws u' =>
      rw [Action.bind_of_ok rest] at run
      cases run
      exact ⟨v, t, ws, rfl, rfl, rest⟩

theorem leads_arguments (site : Site) (k : List Pending) {ts : List Tree} {vs : List Value}
    (values : List Value) (run : evalEach site.meter site.scope ts s = .ok vs t) :
    Leads ⟨.arguments site values ts, k, s⟩ ⟨.arguments site (values ++ vs) [], k, t⟩ := by
  induction ts generalizing s values vs with
  | nil =>
    cases run
    rw [List.append_nil]
    exact .refl
  | cons tree ts ih =>
    obtain ⟨v, u, ws, rfl, first, rest⟩ := of_evalEach_cons run
    have inner := tree.leads_delivered site.scope site.meter (.argument site values ts :: k) s
    rw [first] at inner
    have others := ih (values ++ [v]) rest
    rw [List.append_assoc] at others
    exact (Next.argument ..).leads ((inner.next (.argumentDone ..)).trans others)

end Tree

/-- What is entered at a call comes to what the direct call of the function comes to. -/
theorem Function.leads_call (f : Function) (values : List Value) (site : Site) (k : List Pending)
    (s : Store) : Leads ⟨.body f values, .callee site :: k, s⟩
      (delivered (.callee site :: k)
        (Action.mapError (CallError.at site.head site.position) (f.call values) s)) := by
  cases code : f.code with
  | builtin b =>
    have next := Next.builtin f b values site k s code
    have run := (call_of_builtin code values s).trans (b.apply_eq values s)
    cases answer : b.answer values with
    | ok v =>
      rw [answer] at next run
      rw [Action.mapError_of_ok _ run]
      exact .single next
    | error e =>
      rw [answer] at next run
      rw [Action.mapError_of_error _ run]
      exact .single next
  | closure c =>
    have body := c.body.leads_delivered (s.enterBody c values).1 c.meter (.callee site :: k)
      (s.enterBody c values).2
    have same := call_of_closure code values s
    cases run : c.body.eval c.meter (s.enterBody c values).1 (s.enterBody c values).2 with
    | ok v t =>
      rw [Action.mapError_of_ok _ run] at same
      rw [run] at body
      rw [Action.mapError_of_ok _ same]
      exact (Next.closure _ _ _ _ _ code).leads body
    | error e t =>
      rw [Action.mapError_of_error _ run] at same
      rw [run] at body
      rw [Action.mapError_of_error _ same]
      exact (Next.closure _ _ _ _ _ code).leads body

namespace Tree

variable {meter : Nat} {scope : Scope} {s t : Store} {p : Position} {head : String}
  {arguments : List Tree} {values : List Value} {f : Function}
  (strict : ¬ (head = "if" ∧ arguments.length = 3))
  (run : evalEach meter scope arguments s = .ok values t)
  (bound : t.lookup scope head = some (.function f))
include strict run bound

/-- A call is the direct call of what its head names, counted on the meter while it lasts. -/
theorem eval_call (free : (t.meter meter).depth < (t.meter meter).limit) :
    (call head arguments p).eval meter scope s =
      Action.leaving meter (Action.mapError (CallError.at head p) (f.call values))
        ((t.enter meter).record (.calling head values.length)) := by
  let site : Site := ⟨head, p, scope, meter⟩
  have given := leads_arguments site [] [] run
  have entered := Next.entered site values [] t f bound free
  have inside := f.leads_call values site []
    ((t.enter meter).record (.calling head values.length))
  have whole := Leads.leaving (((Next.call _ _ p _ _ _ _ strict).leads given).trans
    (entered.leads inside))
  rw [delivered_nil] at whole
  exact eval_eq_of_leads whole

theorem eval_call_of_full (full : ¬ (t.meter meter).depth < (t.meter meter).limit) :
    (call head arguments p).eval meter scope s =
      .error ⟨.tooDeep (t.meter meter).limit, p⟩ t := by
  let site : Site := ⟨head, p, scope, meter⟩
  have given := leads_arguments site [] [] run
  have refused := Next.tooDeep site values [] t f bound full
  exact eval_eq_of_leads (((Next.call _ _ p _ _ _ _ strict).leads given).next refused)

end Tree

end Lispette
