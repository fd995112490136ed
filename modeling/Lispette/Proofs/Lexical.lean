import Lispette.Proofs.Course
import Lispette.Proofs.Rewording

/-!
Scoping is lexical: a parameter of a function can have another name. Declared with the one name and
with the other, the function does the same when it is called, whatever the two names are bound to
around it, as long as no call of it on the way leaves the parameter without an argument.
-/

namespace Lispette

open List (Forall₂)
open Moment

variable {ρ : Rewording} {zones : List Zone}

theorem Site.Reworded.at {side : Side} {site site' : Site}
    (sites : site.Reworded ρ zones side site') {e : CallError}
    (outside : ∀ inner, e ≠ .inside inner) :
    ρ.Failures (CallError.at site.head site.position e)
      (CallError.at site'.head site'.position e) := by
  obtain ⟨-, -⟩ := sites
  refine ⟨side, ?_⟩
  cases e with
  | wrongKind expected found | wrongArity expected found => rfl
  | inside e => exact absurd rfl (outside e)

theorem Builtin.reworded_answer {side : Side} {site site' : Site}
    (sites : site.Reworded ρ zones side site') (b : Builtin) {vs ws : List Value}
    (values : ρ.values zones vs ws) : Focus.Reworded ρ zones
      (.result ((b.answer vs).mapError (CallError.at site.head site.position)))
      (.result ((b.answer ws).mapError (CallError.at site'.head site'.position))) := by
  have agree := agree_answer Value.likeness_reworded b values
  generalize b.answer vs = r, b.answer ws = r' at agree
  cases agree with
  | ok related =>
    rcases related with ⟨-, related⟩ | ⟨plain, rfl⟩
    · exact .value related
    · exact .value (.plain plain)
  | error outside => exact .failure (sites.at outside)

namespace Moment

variable {m m' n : Moment}

/-- If the moment is at a call of that function, there is an argument for the parameter. -/
def Supplies (m : Moment) (function : Nat) (parameter : String) : Prop :=
  ∀ f c values, m.focus = .body f values → f.id = function → f.code = .closure c →
    parameter ∈ c.parameters.take values.length

namespace Next

variable {pending pending' : List Pending} {s t : Store}
  (waiting : Forall₂ (Pending.Reworded ρ zones) pending pending') (stores : s.Reworded ρ zones t)
include waiting stores

theorem reworded_tree {side : Side} {tree tree' : Tree} {scope : Scope} {meter : Nat}
    (next : Next ⟨.tree tree scope meter, pending, s⟩ m')
    (trees : tree.Renamed ρ.toRenaming side tree') (chained : Chained zones side scope.chain) :
    ∃ n', Next ⟨.tree tree' scope meter, pending', t⟩ n' ∧ m'.Reworded ρ zones n' := by
  cases next with
  | program body p =>
    obtain ⟨parts⟩ := trees
    exact ⟨_, .program .., .value (.plain (by simp [Value.kind])),
      .cons (.statements parts chained) waiting, stores.record _ _⟩
  | number digits p =>
    cases trees
    refine ⟨_, .number .., ?_, waiting, stores⟩
    dsimp only
    unfold numberAt
    cases readNumber? digits with
    | some x => exact .value (.plain (by simp [Value.kind]))
    | none => exact .failure ⟨.outside, rfl⟩
  | string text p =>
    cases trees
    exact ⟨_, .string .., .value (.plain (by simp [Value.kind])), waiting, stores⟩
  | identifier name p =>
    cases trees with
    | identifier allowed =>
      refine ⟨_, .identifier .., ?_, waiting, stores⟩
      have found := stores.lookup chained allowed
      dsimp only
      unfold Store.valueAt
      generalize s.lookup scope name = r, t.lookup scope _ = r' at found
      cases found with
      | none => exact .failure ⟨side, rfl⟩
      | some values => exact .value values
  | define name value p =>
    cases trees with
    | define allowed part =>
      exact ⟨_, .define .., .tree part chained, .cons (.binding allowed chained) waiting, stores⟩
  | function name parameters body p =>
    cases trees with
    | function kept allowed part =>
      obtain ⟨named, allowed⟩ := List.forall_mem_cons.mp allowed
      -- What is declared on a side makes frames that are read on that side.
      cases side with
      | outside =>
        obtain ⟨functions, stores⟩ :=
          stores.declare .outside meter part allowed chained (absurd · (by decide)) named kept
        exact ⟨_, .function .., .value (.function functions), waiting, stores⟩
      | inside =>
        obtain ⟨functions, stores⟩ :=
          stores.declare .inside meter part allowed chained (absurd · (by decide)) named kept
        exact ⟨_, .function .., .value (.function functions), waiting, stores⟩
  | condition condition yes no p =>
    cases trees with
    | call allowed parts =>
      obtain _ | ⟨first, _ | ⟨second, _ | ⟨third, _ | _⟩⟩⟩ := parts
      rw [ρ.read_if]
      exact ⟨_, .condition .., .tree first chained, .cons (.branches second third chained) waiting,
        stores⟩
  | call head arguments p _ _ _ _ strict =>
    cases trees with
    | call allowed parts =>
      rw [parts.length_eq, ← ρ.read_eq_if side] at strict
      exact ⟨_, .call _ _ _ _ _ _ _ strict, .arguments ⟨allowed, chained⟩ .nil parts, waiting,
        stores⟩

theorem reworded_arguments {side : Side} {site site' : Site} {values values' : List Value}
    {rest rest' : List Tree} (next : Next ⟨.arguments site values rest, pending, s⟩ m')
    (sites : site.Reworded ρ zones side site') (given : ρ.values zones values values')
    (trees : Forall₂ (Tree.Renamed ρ.toRenaming side) rest rest') :
    ∃ n', Next ⟨.arguments site' values' rest', pending', t⟩ n' ∧ m'.Reworded ρ zones n' := by
  cases next with
  | argument =>
    obtain _ | ⟨first, rest⟩ := trees
    have waits := Pending.Reworded.argument sites given rest
    obtain ⟨allowed, chained⟩ := sites
    exact ⟨_, .argument .., .tree first chained, .cons waits waiting, stores⟩
  | notDefined _ _ _ _ unbound =>
    obtain _ | _ := trees
    have unbound' := stores.callee_none sites unbound
    obtain ⟨allowed, chained⟩ := sites
    exact ⟨_, .notDefined _ _ _ _ unbound', .failure ⟨side, rfl⟩, waiting, stores⟩
  | notCallable _ _ _ _ v bound other =>
    obtain _ | _ := trees
    obtain ⟨w, bound', related⟩ := stores.callee_some sites bound
    have plain : v.kind ≠ .function := by
      cases v with
      | function f => exact absurd rfl (other f)
      | nil | bool | number | string => simp [Value.kind]
    obtain rfl : w = v := Value.likeness_reworded.plain related plain
    obtain ⟨allowed, chained⟩ := sites
    exact ⟨_, .notCallable _ _ _ _ _ bound' other, .failure ⟨side, rfl⟩, waiting, stores⟩
  | tooDeep _ _ _ _ f bound full =>
    obtain _ | _ := trees
    obtain ⟨g, bound', functions⟩ := stores.callee_function sites bound
    obtain ⟨allowed, chained⟩ := sites
    rw [← stores.meter] at full ⊢
    exact ⟨_, .tooDeep _ _ _ _ _ bound' full, .failure ⟨side, rfl⟩, waiting, stores⟩
  | entered _ _ _ _ f bound free =>
    obtain _ | _ := trees
    obtain ⟨g, bound', functions⟩ := stores.callee_function sites bound
    have waits := Pending.Reworded.callee sites
    obtain ⟨allowed, chained⟩ := sites
    rw [← stores.meter] at free
    exact ⟨_, .entered _ _ _ _ _ bound' free, .body functions given, .cons waits waiting,
      (stores.enter _).record _ _⟩

theorem reworded_body {f g : Function} {values values' : List Value}
    (next : Next ⟨.body f values, pending, s⟩ m') (functions : f.Reworded ρ zones g)
    (given : ρ.values zones values values')
    (supplied : Supplies ⟨.body f values, pending, s⟩ ρ.function ρ.old) :
    ∃ zones' n', Next ⟨.body g values', pending', t⟩ n' ∧ m'.Reworded ρ zones' n' := by
  cases next with
  | builtin _ b _ site _ _ code =>
    obtain _ | ⟨first, waiting⟩ := waiting
    obtain _ | _ | _ | _ | sites := first
    cases functions with
    | closure => cases code
    | builtin =>
      cases code
      exact ⟨zones, _, .builtin _ _ _ _ _ _ rfl, b.reworded_answer sites given,
        .cons (.callee sites) waiting, stores.afterBuiltin b given⟩
  | closure _ c _ _ _ code =>
    cases functions with
    | builtin => cases code
    | @closure id meter name parameters body body' scope zone bodies allowed chained root =>
      cases code
      obtain ⟨inside, within, stores⟩ := stores.enterBody body body' meter allowed chained
        (fun made => supplied _ _ _ rfl (root made) rfl) given
      refine ⟨_, _, .closure _ _ _ _ _ rfl, ?_, waiting.imp fun _ _ => Pending.Reworded.mono
        (List.prefix_append ..), stores⟩
      rw [inside]
      exact .tree bodies within

theorem reworded_value {v w : Value} (next : Next ⟨.result (.ok v), pending, s⟩ m')
    (values : v.Reworded ρ zones w) :
    ∃ n', Next ⟨.result (.ok w), pending', t⟩ n' ∧ m'.Reworded ρ zones n' := by
  obtain _ | ⟨first, waiting⟩ := waiting
  · cases next
  cases first with
  | statements trees chained =>
    cases next with
    | nextStatement =>
      obtain _ | ⟨first, rest⟩ := trees
      exact ⟨_, .nextStatement .., .tree first chained, .cons (.statements rest chained) waiting,
        stores⟩
    | lastStatement =>
      obtain _ | _ := trees
      exact ⟨_, .lastStatement .., .value values, waiting, stores⟩
  | binding allowed chained =>
    cases next
    exact ⟨_, .bound .., .value (.plain (by simp [Value.kind])), waiting,
      (stores.record _ _).bind chained allowed values⟩
  | branches affirmed denied chained =>
    cases next with
    | chosen b =>
      obtain ⟨plain⟩ := values
      refine ⟨_, .chosen .., ?_, waiting, stores⟩
      cases b with
      | true => exact .tree affirmed chained
      | false => exact .tree denied chained
    | unchosen _ _ _ _ _ _ _ _ other =>
      rw [← Value.likeness_reworded.kind values]
      refine ⟨_, .unchosen _ _ _ _ _ _ _ _ (fun b same => ?_), .failure ⟨.outside, rfl⟩, waiting,
        stores⟩
      subst same
      cases values
      exact other b rfl
  | argument sites given trees =>
    cases next
    exact ⟨_, .argumentDone .., .arguments sites (List.rel_append given (.cons values .nil)) trees,
      waiting, stores⟩
  | callee sites =>
    cases next
    obtain ⟨allowed, chained⟩ := sites
    exact ⟨_, .returned .., .value values, waiting, stores.leave _⟩

theorem reworded_failure {e e' : EvalError} (next : Next ⟨.result (.error e), pending, s⟩ m')
    (failures : ρ.Failures e e') :
    ∃ n', Next ⟨.result (.error e'), pending', t⟩ n' ∧ m'.Reworded ρ zones n' := by
  obtain _ | ⟨first, waiting⟩ := waiting
  · cases next
  cases next with
  | returned _ site =>
    obtain _ | _ | _ | _ | sites := first
    obtain ⟨allowed, chained⟩ := sites
    exact ⟨_, .returned .., .failure failures, waiting, stores.leave _⟩
  | failed _ _ _ _ ordinary =>
    refine ⟨_, .failed _ _ _ _ ?_, .failure failures, waiting, stores⟩
    cases first with
    | callee sites => cases ordinary
    | statements | binding | branches | argument => rfl

end Next

/-- The same rule applies in the second run, and what it leads to differs in names alone. -/
theorem Next.reworded (next : Next m m') (related : m.Reworded ρ zones n)
    (supplied : m.Supplies ρ.function ρ.old) :
    ∃ zones' n', Next n n' ∧ m'.Reworded ρ zones' n' := by
  obtain ⟨focus, pending, s⟩ := m
  obtain ⟨focus', pending', t⟩ := n
  obtain ⟨focuses, waiting, stores⟩ := related
  cases focuses with
  | tree trees chained => exact ⟨zones, next.reworded_tree waiting stores trees chained⟩
  | arguments sites given trees =>
    exact ⟨zones, next.reworded_arguments waiting stores sites given trees⟩
  | body functions given => exact next.reworded_body waiting stores functions given supplied
  | value values => exact ⟨zones, next.reworded_value waiting stores values⟩
  | failure failures => exact ⟨zones, next.reworded_failure waiting stores failures⟩

theorem Leads.reworded (leads : Leads m m') (related : m.Reworded ρ zones n)
    (supplied : ∀ m'', Leads m m'' → m''.Supplies ρ.function ρ.old) :
    ∃ zones' n', Leads n n' ∧ m'.Reworded ρ zones' n' := by
  induction leads with
  | refl => exact ⟨zones, n, .refl, related⟩
  | tail leads next ih =>
    obtain ⟨zones', n', leads', related⟩ := ih
    obtain ⟨zones'', n'', next', related⟩ := next.reworded related (supplied _ leads)
    exact ⟨zones'', n'', leads'.next next', related⟩

end Moment

/-- Both runs come to a value, or both to a failure, and names are what they differ in. -/
inductive Rewording.Outcomes {ε : Type} (ρ : Rewording) (failures : ε → ε → Prop) :
    EStateM.Result ε Store Value → EStateM.Result ε Store Value → Prop
  | ok {zones : List Zone} {v w : Value} {s t : Store} (values : v.Reworded ρ zones w)
    (stores : s.Reworded ρ zones t) : Outcomes ρ failures (.ok v s) (.ok w t)
  | error {zones : List Zone} {e e' : ε} {s t : Store} (failed : failures e e')
    (stores : s.Reworded ρ zones t) : Outcomes ρ failures (.error e s) (.error e' t)

theorem Rewording.Outcomes.mapError {ε δ : Type} {failures : ε → ε → Prop}
    {failures' : δ → δ → Prop} {x y : Action ε Value} {s t : Store}
    (outcomes : ρ.Outcomes failures (x s) (y t)) (f : ε → δ)
    (failed : ∀ e e', failures e e' → failures' (f e) (f e')) :
    ρ.Outcomes failures' (Action.mapError f x s) (Action.mapError f y t) := by
  generalize run : x s = r, run' : y t = r' at outcomes
  cases outcomes with
  | ok values stores =>
    rw [Action.mapError_of_ok f run, Action.mapError_of_ok f run']
    exact .ok values stores
  | error related stores =>
    rw [Action.mapError_of_error f run, Action.mapError_of_error f run']
    exact .error (failed _ _ related) stores

theorem Tree.reworded_eval {side : Side} {tree tree' : Tree} {scope : Scope} (meter : Nat)
    {s t : Store} (trees : tree.Renamed ρ.toRenaming side tree')
    (chained : Chained zones side scope.chain) (stores : s.Reworded ρ zones t)
    (supplied : ∀ m, Leads (start tree scope meter s) m → m.Supplies ρ.function ρ.old) :
    ρ.Outcomes ρ.Failures (tree.eval meter scope s) (tree'.eval meter scope t) := by
  have begins : (start tree scope meter s).Reworded ρ zones (start tree' scope meter t) :=
    ⟨.tree trees chained, .nil, stores⟩
  obtain ⟨zones', ⟨focus', pending', t'⟩, leads, ends⟩ :=
    (tree.leads_eval scope meter s).reworded begins supplied
  obtain ⟨focus, waiting, stores⟩ := ends
  have whole := tree'.leads_eval scope meter t
  generalize tree.eval meter scope s = r at focus waiting stores
  cases r with
  | ok v s' =>
    obtain _ | _ := waiting
    cases focus with
    | @value _ w values =>
      have reached : Leads (start tree' scope meter t) (ended (.ok w t')) := leads
      rw [whole.ended_unique reached]
      exact .ok values stores
  | error e s' =>
    obtain _ | _ := waiting
    cases focus with
    | @failure _ e' failures =>
      have reached : Leads (start tree' scope meter t) (ended (.error e' t')) := leads
      rw [whole.ended_unique reached]
      exact .error failures stores

/-- Failures in a body that differ in the name they report. -/
inductive Rewording.CallFailures (ρ : Rewording) : CallError → CallError → Prop
  | inside {e e' : EvalError} (failures : ρ.Failures e e') :
    CallFailures ρ (.inside e) (.inside e')

/-- No call of the function that a call of it makes on the way leaves the parameter without an
argument. -/
def Function.Supplied (f : Function) (parameter : String) (values : List Value) (s : Store) :
    Prop :=
  ∀ c, f.code = .closure c → ∀ m,
    Leads (start c.body (s.enterBody c values).1 c.meter (s.enterBody c values).2) m →
    m.Supplies f.id parameter

theorem Function.reworded_call {f g : Function} {c : Closure} {vs ws : List Value} {s t : Store}
    (functions : f.Reworded ρ zones g) (number : f.id = ρ.function) (code : f.code = .closure c)
    (early : ρ.old ∈ c.parameters.take vs.length) (supplied : f.Supplied ρ.old vs s)
    (given : ρ.values zones vs ws) (stores : s.Reworded ρ zones t) :
    ρ.Outcomes ρ.CallFailures (f.call vs s) (g.call ws t) := by
  cases functions with
  | builtin => cases code
  | @closure id meter name parameters body body' scope zone bodies allowed chained root =>
    obtain rfl : id = ρ.function := number
    cases code
    obtain ⟨inside, within, entered⟩ := stores.enterBody body body' meter allowed chained
      (fun _ => early) given
    rw [call_of_closure rfl, call_of_closure rfl, inside]
    exact (Tree.reworded_eval meter bodies within entered (supplied _ rfl)).mapError _
      fun _ _ => .inside

end Lispette
