import Lispette.Proofs.Furnishing
import Lispette.Proofs.Mirrors

/-!
A run is found again step by step: to each rule of the first there is the same rule of the second.
So whole evaluations come to values that are found again, or to related failures.
-/

namespace Lispette

open List (Forall₂)
open Moment

variable {μ : Mirror} {before before' : List (List Value)}

theorem Site.Mirrors.at {site site' : Site} (sites : site.Mirrors μ site') {e : CallError}
    (outside : ∀ inner, e ≠ .inside inner) :
    μ.failures (CallError.at site.head site.position e)
      (CallError.at site'.head site'.position e) := by
  cases e with
  | wrongKind expected found => exact sites.failures _
  | wrongArity expected found =>
    rw [sites.head]
    exact sites.failures _
  | inside e => exact absurd rfl (outside e)

theorem Builtin.mirrors_answer {site site' : Site} (sites : site.Mirrors μ site') (b : Builtin)
    {vs ws : List Value} (values : μ.values vs ws) : Focus.Mirrors μ
      (.result ((b.answer vs).mapError (CallError.at site.head site.position)))
      (.result ((b.answer ws).mapError (CallError.at site'.head site'.position))) := by
  have agree := agree_answer Value.likeness_mirrors b values
  generalize b.answer vs = r, b.answer ws = r' at agree
  cases agree with
  | ok related =>
    rcases related with ⟨-, related⟩ | ⟨plain, rfl⟩
    · exact .value related
    · exact .value (.plain plain)
  | error outside => exact .failure (sites.at outside)

namespace Moment

variable {m m' n : Moment}

namespace Next

variable {pending pending' : List Pending} {s t : Store}
  (waiting : Forall₂ (Pending.Mirrors μ) pending pending') (store : s.Mirrors μ before before' t)
include waiting store

theorem mirrors_tree {tree tree' : Tree} {scope : Scope} {meter : Nat}
    (next : Next ⟨.tree tree scope meter, pending, s⟩ m') (trees : μ.trees tree tree') :
    ∃ n', Next ⟨.tree tree' (μ.scope scope) (μ.meter meter), pending', t⟩ n' ∧
      m'.Mirrors μ before before' n' := by
  cases next with
  | program body p =>
    obtain ⟨body', p', rfl, parts⟩ := μ.program trees
    exact ⟨_, .program .., .value (.plain (by simp [Value.kind])),
      .cons (.statements parts) waiting, store.record _ _⟩
  | number digits p =>
    obtain ⟨p', rfl, failures⟩ := μ.number trees
    refine ⟨_, .number .., ?_, waiting, store⟩
    dsimp only
    unfold numberAt
    cases readNumber? digits with
    | some x => exact .value (.plain (by simp [Value.kind]))
    | none => exact .failure failures
  | string text p =>
    obtain ⟨p', rfl⟩ := μ.string trees
    exact ⟨_, .string .., .value (.plain (by simp [Value.kind])), waiting, store⟩
  | identifier name p =>
    obtain ⟨p', rfl, failures⟩ := μ.identifier trees
    exact ⟨_, .identifier .., store.valueAt scope failures, waiting, store⟩
  | define name value p =>
    obtain ⟨value', p', rfl, part⟩ := μ.define trees
    exact ⟨_, .define .., .tree part, .cons .binding waiting, store⟩
  | function name parameters body p =>
    obtain ⟨body', p', rfl, part⟩ := μ.declare trees
    obtain ⟨functions, store⟩ := store.declare name parameters scope meter part
    exact ⟨_, .function .., .value (.function functions), waiting, store⟩
  | condition condition yes no p =>
    obtain ⟨arguments, p', rfl, parts, failures⟩ := μ.call trees
    obtain _ | ⟨first, _ | ⟨second, _ | ⟨third, _ | _⟩⟩⟩ := parts
    exact ⟨_, .condition .., .tree first, .cons (.branches second third failures) waiting, store⟩
  | call head arguments p _ _ _ _ strict =>
    obtain ⟨arguments', p', rfl, parts, failures⟩ := μ.call trees
    rw [parts.length_eq] at strict
    exact ⟨_, .call _ _ _ _ _ _ _ strict, .arguments ⟨rfl, rfl, rfl, failures⟩ .nil parts,
      waiting, store⟩

theorem mirrors_arguments {site site' : Site} {values values' : List Value} {rest rest' : List Tree}
    (next : Next ⟨.arguments site values rest, pending, s⟩ m') (sites : site.Mirrors μ site')
    (given : μ.values values values') (trees : Forall₂ μ.trees rest rest') :
    ∃ n', Next ⟨.arguments site' values' rest', pending', t⟩ n' ∧
      m'.Mirrors μ before before' n' := by
  cases next with
  | argument =>
    obtain _ | ⟨first, rest⟩ := trees
    refine ⟨_, .argument .., ?_, .cons (.argument sites given rest) waiting, store⟩
    rw [sites.scope, sites.meter]
    exact .tree first
  | notDefined _ _ _ _ unbound =>
    obtain _ | _ := trees
    refine ⟨_, .notDefined _ _ _ _ (store.callee_none sites unbound), ?_, waiting, store⟩
    rw [sites.head]
    exact .failure (sites.failures _)
  | notCallable _ _ _ _ v bound other =>
    obtain _ | _ := trees
    obtain ⟨w, bound', related⟩ := store.callee_some sites bound
    have plain : v.kind ≠ .function := by
      cases v with
      | function f => exact absurd rfl (other f)
      | nil | bool | number | string => simp [Value.kind]
    obtain rfl : w = v := Value.likeness_mirrors.plain related plain
    exact ⟨_, .notCallable _ _ _ _ _ bound' other, .failure (sites.failures _), waiting, store⟩
  | tooDeep _ _ _ _ f bound full =>
    obtain _ | _ := trees
    obtain ⟨g, bound', functions⟩ := store.callee_function sites bound
    rw [← store.meter_site sites] at full ⊢
    exact ⟨_, .tooDeep _ _ _ _ _ bound' full, .failure (sites.failures _), waiting, store⟩
  | entered _ _ _ _ f bound free =>
    obtain _ | _ := trees
    obtain ⟨g, bound', functions⟩ := store.callee_function sites bound
    have inside := store.enter free
    rw [← sites.meter] at inside
    rw [← store.meter_site sites] at free
    exact ⟨_, .entered _ _ _ _ _ bound' free, .body functions given,
      .cons (.callee sites) waiting, inside.record _ _⟩

theorem mirrors_body {f g : Function} {values values' : List Value}
    (next : Next ⟨.body f values, pending, s⟩ m') (functions : f.Mirrors μ g)
    (given : μ.values values values') :
    ∃ n', Next ⟨.body g values', pending', t⟩ n' ∧ m'.Mirrors μ before before' n' := by
  obtain ⟨codes⟩ := functions
  cases next with
  | builtin _ b _ site _ _ code =>
    obtain _ | ⟨first, waiting⟩ := waiting
    obtain _ | _ | _ | _ | sites := first
    cases code
    obtain _ | _ := codes
    exact ⟨_, .builtin _ _ _ _ _ _ rfl, b.mirrors_answer sites given,
      .cons (.callee sites) waiting, store.afterBuiltin b given⟩
  | closure _ c _ _ _ code =>
    cases code
    obtain _ | bodies := codes
    obtain ⟨inside, store⟩ := store.enterBody given
    refine ⟨_, .closure _ _ _ _ _ rfl, ?_, waiting, store⟩
    rw [inside]
    exact .tree bodies

theorem mirrors_value {v w : Value} (next : Next ⟨.result (.ok v), pending, s⟩ m')
    (values : v.Mirrors μ w) :
    ∃ n', Next ⟨.result (.ok w), pending', t⟩ n' ∧ m'.Mirrors μ before before' n' := by
  obtain _ | ⟨first, waiting⟩ := waiting
  · cases next
  cases first with
  | statements trees =>
    cases next with
    | nextStatement =>
      obtain _ | ⟨first, rest⟩ := trees
      exact ⟨_, .nextStatement .., .tree first, .cons (.statements rest) waiting, store⟩
    | lastStatement =>
      obtain _ | _ := trees
      exact ⟨_, .lastStatement .., .value values, waiting, store⟩
  | @binding name scope =>
    cases next
    exact ⟨_, .bound .., .value (.plain (by simp [Value.kind])), waiting,
      (store.record _ _).bind scope name values⟩
  | branches affirmed denied failures =>
    cases next with
    | chosen b =>
      obtain ⟨plain⟩ := values
      refine ⟨_, .chosen .., ?_, waiting, store⟩
      cases b with
      | true => exact .tree affirmed
      | false => exact .tree denied
    | unchosen _ _ _ _ _ _ _ _ other =>
      rw [← Value.likeness_mirrors.kind values]
      refine ⟨_, .unchosen _ _ _ _ _ _ _ _ (fun b same => ?_), .failure (failures _), waiting,
        store⟩
      subst same
      cases values
      exact other b rfl
  | argument sites given trees =>
    cases next
    exact ⟨_, .argumentDone .., .arguments sites (List.rel_append given (.cons values .nil)) trees,
      waiting, store⟩
  | @callee site site' sites =>
    cases next
    have outside := store.leave site.meter
    rw [← sites.meter] at outside
    exact ⟨_, .returned .., .value values, waiting, outside⟩

theorem mirrors_failure {e e' : EvalError} (next : Next ⟨.result (.error e), pending, s⟩ m')
    (failures : μ.failures e e') :
    ∃ n', Next ⟨.result (.error e'), pending', t⟩ n' ∧ m'.Mirrors μ before before' n' := by
  obtain _ | ⟨first, waiting⟩ := waiting
  · cases next
  cases next with
  | returned _ site =>
    obtain _ | _ | _ | _ | sites := first
    have outside := store.leave site.meter
    rw [← sites.meter] at outside
    exact ⟨_, .returned .., .failure failures, waiting, outside⟩
  | failed _ _ _ _ ordinary =>
    refine ⟨_, .failed _ _ _ _ ?_, .failure failures, waiting, store⟩
    cases first with
    | callee sites => cases ordinary
    | statements | binding | branches | argument => rfl

end Next

/-- The same rule applies in the second run, and what it leads to is found again. -/
theorem Next.mirrors (next : Next m m') (mirrors : m.Mirrors μ before before' n) :
    ∃ n', Next n n' ∧ m'.Mirrors μ before before' n' := by
  obtain ⟨focus, pending, s⟩ := m
  obtain ⟨focus', pending', t⟩ := n
  obtain ⟨focuses, waiting, store⟩ := mirrors
  cases focuses with
  | tree trees => exact next.mirrors_tree waiting store trees
  | arguments sites given trees => exact next.mirrors_arguments waiting store sites given trees
  | body functions given => exact next.mirrors_body waiting store functions given
  | value values => exact next.mirrors_value waiting store values
  | failure failures => exact next.mirrors_failure waiting store failures

theorem Leads.mirrors (leads : Leads m m') (mirrors : m.Mirrors μ before before' n) :
    ∃ n', Leads n n' ∧ m'.Mirrors μ before before' n' := by
  induction leads with
  | refl => exact ⟨n, .refl, mirrors⟩
  | tail _ next ih =>
    obtain ⟨n', leads, mirrors⟩ := ih
    obtain ⟨n'', next, mirrors⟩ := next.mirrors mirrors
    exact ⟨n'', leads.next next, mirrors⟩

end Moment

/-- Both runs come to a value, or both to a failure; and the one outcome is found in the other. -/
inductive Mirror.Outcomes {ε δ : Type} (μ : Mirror) (before before' : List (List Value))
    (failures : ε → δ → Prop) :
    EStateM.Result ε Store Value → EStateM.Result δ Store Value → Prop
  | ok {v w : Value} {s t : Store} (values : v.Mirrors μ w)
    (stores : s.Mirrors μ before before' t) : Outcomes μ before before' failures (.ok v s) (.ok w t)
  | error {e : ε} {e' : δ} {s t : Store} (failed : failures e e')
    (stores : s.Mirrors μ before before' t) :
    Outcomes μ before before' failures (.error e s) (.error e' t)

theorem Mirror.Outcomes.mapError {ε ε' δ δ' : Type} {failures : ε → δ → Prop}
    {failures' : ε' → δ' → Prop} {x : Action ε Value} {y : Action δ Value} {s t : Store}
    (outcomes : μ.Outcomes before before' failures (x s) (y t)) (f : ε → ε') (g : δ → δ')
    (failed : ∀ e e', failures e e' → failures' (f e) (g e')) :
    μ.Outcomes before before' failures' (Action.mapError f x s) (Action.mapError g y t) := by
  generalize run : x s = r, run' : y t = r' at outcomes
  cases outcomes with
  | ok values stores =>
    rw [Action.mapError_of_ok f run, Action.mapError_of_ok g run']
    exact .ok values stores
  | error related stores =>
    rw [Action.mapError_of_error f run, Action.mapError_of_error g run']
    exact .error (failed _ _ related) stores

theorem Mirror.Outcomes.imp {ε δ : Type} {failures failures' : ε → δ → Prop}
    {r : EStateM.Result ε Store Value} {r' : EStateM.Result δ Store Value}
    (outcomes : μ.Outcomes before before' failures r r')
    (weaker : ∀ e e', failures e e' → failures' e e') :
    μ.Outcomes before before' failures' r r' := by
  cases outcomes with
  | ok values stores => exact .ok values stores
  | error failed stores => exact .error (weaker _ _ failed) stores

/-- Of two moments that are in step the one has an end if the other has, and it is found again. -/
theorem Moment.Leads.outcomes {m n : Moment} {r : EStateM.Result EvalError Store Value}
    (leads : Leads m (ended r)) (mirrors : m.Mirrors μ before before' n) :
    ∃ r', Leads n (ended r') ∧ μ.Outcomes before before' μ.failures r r' := by
  obtain ⟨⟨focus', pending', t⟩, leads', ends⟩ := leads.mirrors mirrors
  obtain ⟨focus, pending, store⟩ := ends
  cases r with
  | ok v s =>
    obtain _ | _ := pending
    cases focus with
    | @value _ w values => exact ⟨.ok w t, leads', .ok values store⟩
  | error e s =>
    obtain _ | _ := pending
    cases focus with
    | @failure _ e' failures => exact ⟨.error e' t, leads', .error failures store⟩

variable {s s' t t' : Store}

/-- Related trees come to outcomes that are found again. -/
theorem Tree.mirrors_eval {tree tree' : Tree} (trees : μ.trees tree tree') (scope : Scope)
    (meter : Nat) (mirrors : s.Mirrors μ before before' t) :
    μ.Outcomes before before' μ.failures (tree.eval meter scope s)
      (tree'.eval (μ.meter meter) (μ.scope scope) t) := by
  have begins : (start tree scope meter s).Mirrors μ before before'
    (start tree' (μ.scope scope) (μ.meter meter) t) := ⟨.tree trees, .nil, mirrors⟩
  obtain ⟨r', leads, outcomes⟩ := (tree.leads_eval scope meter s).outcomes begins
  rwa [(tree'.leads_eval (μ.scope scope) (μ.meter meter) t).ended_unique leads]

/-- The failures inside bodies are related, and the others are the same. -/
inductive Mirror.callFailures (μ : Mirror) : CallError → CallError → Prop
  | inside {e e' : EvalError} (failures : μ.failures e e') :
    callFailures μ (.inside e) (.inside e')
  | outside {e : CallError} (outside : ∀ inner, e ≠ .inside inner) : callFailures μ e e

/-- A function and the one it is found under come to outcomes that are found again. -/
theorem Function.mirrors_call {f g : Function} {vs ws : List Value} (functions : f.Mirrors μ g)
    (given : μ.values vs ws) (mirrors : s.Mirrors μ before before' t) :
    μ.Outcomes before before' μ.callFailures (f.call vs s) (g.call ws t) := by
  obtain ⟨codes⟩ := functions
  cases codes with
  | builtin b =>
    rw [call_of_builtin rfl, call_of_builtin rfl, Builtin.apply_eq, Builtin.apply_eq]
    have agree := b.agree_answer Value.likeness_mirrors given
    have stores := mirrors.afterBuiltin b given
    generalize b.answer vs = r, b.answer ws = r' at agree
    cases agree with
    | ok related =>
      rcases related with ⟨-, related⟩ | ⟨plain, rfl⟩
      · exact .ok related stores
      · exact .ok (.plain plain) stores
    | error outside => exact .error (.outside outside) stores
  | closure bodies =>
    obtain ⟨inside, stores⟩ := mirrors.enterBody given
    rw [call_of_closure rfl, call_of_closure rfl]
    dsimp only
    rw [inside]
    exact (Tree.mirrors_eval bodies _ _ stores).mapError CallError.inside CallError.inside
      fun _ _ => .inside

namespace Store.Mirrors

theorem of_noted (mirrors : s.Mirrors μ before before' t) (noted : s.Noted s')
    (noted' : t.Noted t') : s'.Mirrors μ before before' t' where
  frame id := by
    rw [Store.frame, Store.frame, noted.frames, noted'.frames]
    exact mirrors.frame id
  nextFrame n := by
    rw [noted.frames, noted'.frames]
    exact mirrors.nextFrame n
  nextFunction n := by
    rw [noted.functionCount, noted'.functionCount]
    exact mirrors.nextFunction n
  meter id := by
    rw [Store.meter, Store.meter, noted.meters, noted'.meters]
    exact mirrors.meter id
  printed := by
    rw [noted.printed, noted'.printed]
    exact mirrors.printed

theorem furnish (mirrors : s.Mirrors μ before before' t) (scope : Scope) :
    (s.furnish scope).Mirrors μ before before' (t.furnish (μ.scope scope)) := by
  have constants : Store.Mirrors μ before before'
      (preludeConstants.foldl (bindConstant scope) (s.record .installing))
      (preludeConstants.foldl (bindConstant (μ.scope scope)) (t.record .installing)) :=
    List.foldl_rel (mirrors.record _ _) fun entry member _ _ mirrors => by
      have plain : entry.2.kind ≠ .function := by
        revert entry
        decide
      exact mirrors.bind scope entry.1 (.plain plain)
  refine List.foldl_rel constants fun entry _ _ _ mirrors => ?_
  obtain ⟨functions, made⟩ := mirrors.newFunction entry.1 (.builtin entry.2)
  exact made.bind scope entry.1 (.function functions)

theorem newPrelude (mirrors : s.Mirrors μ before before' t) :
    t.newPrelude.1 = μ.scope s.newPrelude.1 ∧
      s.newPrelude.2.Mirrors μ before before' t.newPrelude.2 := by
  obtain ⟨same, made⟩ := mirrors.newFrame [] .nil
  refine ⟨same, ?_⟩
  have furnished := made.furnish (s.newFrame [] []).1
  rw [← same] at furnished
  exact furnished

end Store.Mirrors

section

variable {source source' : String} {failures : Failure → Failure → Prop}

/-- Sources that say related trees come to outcomes that are found again. -/
theorem mirrors_evaluate {tree tree' : Tree} (said : Tree.ofSource source = .ok tree)
    (said' : Tree.ofSource source' = .ok tree') (trees : μ.trees tree tree')
    (raised : ∀ e e', μ.failures e e' → failures (.eval e) (.eval e')) (scope : Scope) (meter : Nat)
    (mirrors : s.Mirrors μ before before' t) :
    μ.Outcomes before before' failures (evaluate meter scope source s)
      (evaluate (μ.meter meter) (μ.scope scope) source' t) := by
  obtain ⟨s', noted, run⟩ := evaluate_of_tree said meter scope s
  obtain ⟨t', noted', run'⟩ := evaluate_of_tree said' (μ.meter meter) (μ.scope scope) t
  rw [run, run']
  exact (Tree.mirrors_eval trees scope meter (mirrors.of_noted noted noted')).mapError _ _ raised

/-- Sources that are refused are refused whatever they are run with. -/
theorem mirrors_evaluate_refused {e e' : Failure} (said : Tree.ofSource source = .error e)
    (said' : Tree.ofSource source' = .error e') (related : failures e e') (scope scope' : Scope)
    (meter meter' : Nat) (mirrors : s.Mirrors μ before before' t) :
    μ.Outcomes before before' failures (evaluate meter scope source s)
      (evaluate meter' scope' source' t) := by
  obtain ⟨s', noted, run⟩ := evaluate_of_failure said meter scope s
  obtain ⟨t', noted', run'⟩ := evaluate_of_failure said' meter' scope' t
  rw [run, run']
  exact .error related (mirrors.of_noted noted noted')

end

end Lispette
