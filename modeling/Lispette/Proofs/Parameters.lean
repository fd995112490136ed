import Lispette.Proofs.Equations
import Lispette.Proofs.Lexical
import Lispette.Proofs.Repetition

/-!
Sessions in two copies. In the one a function is declared, in the other the same function with
another name for a parameter; calls of it show and print the same in both.
-/

namespace Lispette

open List (Forall₂)
open Moment

variable {ρ : Rewording} {zones : List Zone}

section copies

variable {s : Store} {v : Value} {f : Function}

/-- Where no call of the function has been made yet, all frames stand outside. -/
def Store.allOutside (s : Store) : List Zone :=
  List.replicate s.frames.size .outside

theorem Store.HasScope.chained {scope : Scope} (has : s.HasScope scope) :
    Chained s.allOutside .outside scope.chain := by
  unfold HasScope at has
  generalize scope.chain = chain at has
  induction chain with
  | nil => exact .nil
  | cons id ids ih =>
    obtain ⟨first, rest⟩ := List.forall_mem_cons.mp has
    exact .cons (List.getElem?_replicate_of_lt first) rfl (ih rest)

theorem Function.Meets.reworded (meets : f.Meets .any s) : f.Reworded ρ s.allOutside f := by
  obtain ⟨id, name, code⟩ := f
  cases code with
  | builtin b => exact .builtin
  | closure c =>
    obtain ⟨parameters, body, scope, meter⟩ := c
    obtain ⟨has, -⟩ := meets.closure _ rfl
    have functions : Function.Reworded ρ s.allOutside
        ⟨id, name, .closure ⟨parameters, body, scope, meter⟩⟩
        ⟨id, name, .closure ⟨parameters.map (ρ.read .outside), body, scope, meter⟩⟩ :=
      .closure .outside (body.renamed_self ρ.toRenaming) (fun n _ => ρ.allows_outside n)
        has.chained (absurd · (by decide))
    rwa [ρ.read_outside, List.map_id] at functions

theorem Value.Meets.reworded (meets : v.Meets .any s) : v.Reworded ρ s.allOutside v := by
  cases v with
  | function f => exact .function (meets f rfl).reworded
  | nil | bool | number | string => exact .plain (by simp [Value.kind])

/-- A store as it is in two copies. -/
theorem Store.Meets.reworded (meets : s.Meets .any) : s.Reworded ρ s.allOutside s where
  zoned := List.length_replicate
  frames := rfl
  frame {id zone} here := by
    obtain rfl := List.eq_of_mem_replicate (List.mem_of_getElem? here)
    exact List.forall₂_same.mpr fun binding member =>
      ⟨ρ.allows_outside _, rfl, Value.Meets.reworded (meets id binding member)⟩
  root here := by cases List.eq_of_mem_replicate (List.mem_of_getElem? here)
  functionCount := rfl
  meters := rfl
  printed := rfl

end copies

theorem exists_mapM_of_forall₂ {α β γ δ : Type} {R : α → β → Prop} {S : γ → δ → Prop}
    {f : α → Option γ} {g : β → Option δ} {as : List α} {bs : List β} {cs : List γ}
    (same : Forall₂ R as bs) (one : ∀ a b c, R a b → f a = some c → ∃ d, g b = some d ∧ S c d)
    (run : as.mapM f = some cs) : ∃ ds, bs.mapM g = some ds ∧ Forall₂ S cs ds := by
  induction same generalizing cs with
  | nil =>
    cases run
    exact ⟨[], rfl, .nil⟩
  | cons first rest ih =>
    simp only [List.mapM_cons, Option.bind_eq_bind, Option.bind_eq_some_iff] at run
    obtain ⟨c, found, cs, run, same⟩ := run
    cases same
    obtain ⟨d, found', related⟩ := one _ _ _ first found
    obtain ⟨ds, run', others⟩ := ih run
    refine ⟨d :: ds, ?_, .cons related others⟩
    rw [List.mapM_cons, found', run']
    rfl

/-- Operands that mean the same in two copies of a session, in which a function was declared since:
a name, a value that was there before, or the function as it is in each copy. -/
inductive Operand.Counterparts (s : Store) (f f' : Function) : Operand → Operand → Prop
  | binding (name scope : String) :
    Counterparts s f f' (.binding name scope) (.binding name scope)
  | value {v : Value} (meets : v.Meets .any s) : Counterparts s f f' (.value v) (.value v)
  | declared : Counterparts s f f' (.value (.function f)) (.value (.function f'))

/-- Answers to a call that look alike, but for the name that a failure reports. -/
inductive Answer.LooksRenamed (ρ : Renaming) : Answer → Answer → Prop
  | called (name : String) {v w : Value} (seen : w.seen = v.seen) :
    LooksRenamed ρ (.called name v) (.called name w)
  | callFailure {e e' : EvalError} (reported : e' = e ∨ e' = e.rename ρ.apply) :
    LooksRenamed ρ (.callFailure (.inside e)) (.callFailure (.inside e'))

namespace Session

/-- The session after a declaration. -/
def declared (s : Session) (name : String) (c : Closure) : Session :=
  { s with store := (s.store.declare name c).2 }

theorem step_run_function {s : Session} {scopeName interpreter : String} {scope : Scope}
    {meter : Nat} (named : s.scope? scopeName = some scope)
    (metered : s.interpreter? interpreter = some meter) (name : String) (parameters : List String)
    (body : Tree) (p : Position) :
    let c : Closure := ⟨parameters, body, scope, meter⟩
    s.step (.run scopeName interpreter (.function name parameters body p)) =
      some (.value (.function (s.store.declare name c).1), s.declared name c) := by
  intro c
  have run := Action.mapError_of_ok Failure.eval
    (Tree.eval_function name parameters body p scope meter s.store)
  simp only [Session.step, named, metered, Option.bind_eq_bind, Option.bind_some, perform, run]
  rfl

theorem of_step_run_function {s s₁ : Session} {scopeName interpreter name : String}
    {parameters : List String} {body : Tree} {p : Position} {answer : Answer}
    (taken : s.step (.run scopeName interpreter (.function name parameters body p)) =
      some (answer, s₁)) :
    ∃ scope meter, s.scope? scopeName = some scope ∧ s.interpreter? interpreter = some meter ∧
      s₁ = s.declared name ⟨parameters, body, scope, meter⟩ := by
  have parts := taken
  simp only [Session.step, Option.bind_eq_bind, Option.bind_eq_some_iff] at parts
  obtain ⟨meter, metered, scope, named, -⟩ := parts
  rw [step_run_function named metered] at taken
  cases taken
  exact ⟨scope, meter, named, metered, rfl⟩

theorem find?_declared {s : Session} {scopeName : String} {c : Closure} (name : String)
    (named : s.scope? scopeName = some c.scope) (has : s.store.HasScope c.scope) :
    (s.declared name c).find? scopeName name = some (.function (s.store.declare name c).1) := by
  show (s.scope? scopeName).bind _ = _
  rw [named]
  exact Store.lookup_declare has name

section copies

variable {s t : Session} {name : String} {c c' : Closure} {f f' : Function}

/-- What an operand stands for in the one copy has a counterpart in the other. -/
theorem Meets.exists_counterpart (meets : s.Meets .any)
    (functions : f.Reworded ρ s.store.allOutside f')
    (stores : (s.declared name c).store.Reworded ρ s.store.allOutside (s.declared name c').store)
    {operand operand' : Operand} {v : Value}
    (same : Operand.Counterparts s.store f f' operand operand')
    (resolved : (s.declared name c).resolve? operand = some v) :
    ∃ w, (s.declared name c').resolve? operand' = some w ∧
      v.Reworded ρ s.store.allOutside w := by
  cases same with
  | value meets =>
    cases resolved
    exact ⟨v, rfl, Value.Meets.reworded meets⟩
  | declared =>
    cases resolved
    exact ⟨_, rfl, .function functions⟩
  | binding name scope =>
    obtain ⟨scope', named, found⟩ := Option.bind_eq_some_iff.mp resolved
    have related := stores.lookup (meets.scope? named).chained (ρ.allows_outside name)
    rw [found] at related
    generalize looked : (s.declared _ c').store.lookup scope' _ = r at related
    cases related with
    | some values => exact ⟨_, Option.bind_eq_some_iff.mpr ⟨scope', named, looked⟩, values⟩

theorem printedSince_reworded {zones' : List Zone} {s' t' : Session}
    (stores : s.store.Reworded ρ zones t.store) (stores' : s'.store.Reworded ρ zones' t'.store) :
    (t'.printedSince t).map (·.map Value.seen) = (s'.printedSince s).map (·.map Value.seen) := by
  have size : t.store.printed.size = s.store.printed.size := by
    simpa using congrArg List.length stores.printed
  rw [printedSince, printedSince, List.map_drop, List.map_drop, stores'.printed, size]

/-- Calls that go the same but for names show and print the same. -/
theorem looksRenamed_of_outcomes {vs ws : List Value} (named : f'.name = f.name)
    (stores : s.store.Reworded ρ zones t.store)
    (outcomes : ρ.Outcomes ρ.CallFailures (f.call vs s.store) (f'.call ws t.store)) :
    Answer.LooksRenamed ρ.toRenaming
      (match (s.perform (f.call vs)).1 with
        | .ok v => .called f.name v
        | .error e => .callFailure e)
      (match (t.perform (f'.call ws)).1 with
        | .ok v => .called f'.name v
        | .error e => .callFailure e) ∧
      ((t.perform (f'.call ws)).2.printedSince t).map (·.map Value.seen) =
        ((s.perform (f.call vs)).2.printedSince s).map (·.map Value.seen) := by
  unfold perform
  generalize f.call vs s.store = r, f'.call ws t.store = r' at outcomes
  cases outcomes with
  | ok values stores' =>
    rw [named]
    exact ⟨.called f.name values.seen, printedSince_reworded stores stores'⟩
  | error failed stores' =>
    obtain ⟨side, reported⟩ := failed
    refine ⟨.callFailure ?_, printedSince_reworded stores stores'⟩
    cases side with
    | outside => exact .inl (reported.trans (EvalError.rename_id _))
    | inside => exact .inr reported

end copies

/-- A parameter can be renamed to a name that does not occur in the function. The function declared
with either name shows and prints the same when it is called with enough arguments, or has the same
failure but for the name it reports, whatever the scopes bind the two names to; if no call of it on
the way leaves the parameter without an argument. -/
theorem call_renamed {s s₁ : Session} (reachable : s.Reachable) (ρ : Renaming)
    {scope interpreter name : String} {parameters : List String} {body : Tree} {p : Position}
    {answer : Answer} (parameter : ρ.old ∈ parameters)
    (unnamed : ρ.old ∉ (Tree.function name parameters body p).functionNames)
    (fresh : ρ.new ∉ (Tree.function name parameters body p).names)
    (taken : s.step (.run scope interpreter (.function name parameters body p)) =
      some (answer, s₁)) :
    ∃ answer' s₁' f f',
      s.step (.run scope interpreter ((Tree.function name parameters body p).rename ρ.apply)) =
        some (answer', s₁') ∧
      s₁.find? scope name = some (.function f) ∧ s₁'.find? scope name = some (.function f') ∧
      ∀ operands operands' values,
        Forall₂ (Operand.Counterparts s.store f f') operands operands' →
        operands.mapM s₁.resolve? = some values → parameters.length ≤ values.length →
        f.Supplied ρ.old values s₁.store →
        ∃ b s₂ b' s₂', s₁.step (.call (.binding name scope) operands) = some (b, s₂) ∧
          s₁'.step (.call (.binding name scope) operands') = some (b', s₂') ∧
          b.LooksRenamed ρ b' ∧
          (s₂'.printedSince s₁').map (·.map Value.seen) =
            (s₂.printedSince s₁).map (·.map Value.seen) := by
  have meets := reachable.meets_any
  obtain ⟨scope', meter, named, metered, rfl⟩ := of_step_run_function taken
  have has := meets.scope? named
  let ω : Rewording := ⟨ρ, s.store.functionCount⟩
  let c : Closure := ⟨parameters, body, scope', meter⟩
  let c' : Closure := ⟨parameters.map ρ.apply, body.rename ρ.apply, scope', meter⟩
  have allowed (n : String) (occurs : n ∈ (Tree.function name parameters body p).names) :
      ω.Allows .inside n := fun _ same => fresh (same ▸ occurs)
  obtain ⟨heading, inner⟩ := List.forall_mem_append.mp allowed
  have bodies : body.Renamed ρ .inside (body.rename ρ.apply) :=
    body.renamed_rename inner fun n occurs => Renaming.read_of_ne .inside fun same =>
      unnamed (same ▸ List.mem_cons_of_mem _ occurs)
  -- The scope of the function is outside; what its calls make is not.
  obtain ⟨functions, stores⟩ : (s.store.declare name c).1.Reworded ω s.store.allOutside
        (s.store.declare name c').1 ∧
      (s.declared name c).store.Reworded ω s.store.allOutside (s.declared name c').store :=
    meets.store.reworded.declare .root meter bodies
      (fun n member => heading n (List.mem_cons_of_mem _ member)) has.chained (fun _ => rfl)
      (ω.allows_outside name) rfl
  have found := find?_declared (c := c) name named has
  have found' := find?_declared (c := c') name named has
  refine ⟨_, _, _, _, step_run_function named metered .., found, found',
    fun operands operands' values same resolved enough supplied => ?_⟩
  obtain ⟨values', resolved', given⟩ := exists_mapM_of_forall₂ same
    (fun _ _ _ => meets.exists_counterpart functions stores) resolved
  have early : ρ.old ∈ parameters.take values.length := by rwa [List.take_of_length_le enough]
  have again : (s.store.declare name c').1.name = (s.store.declare name c).1.name := rfl
  obtain ⟨alike, printed⟩ := looksRenamed_of_outcomes again stores
    (Function.reworded_call functions rfl rfl early supplied given stores)
  exact ⟨_, _, _, _, step_call found resolved, step_call found' resolved', alike, printed⟩

/-- A function that hands out another one, which keeps its parameter; around it the parameter's name
is bound as well. -/
theorem call_renamed_escaping : ∃ a s a₁ s₁ a₁' s₁' f f' b s₂ b' s₂',
    (start 1).step (.evaluate rootName mainName "(def x nil)") = some (a, s) ∧ s.Reachable ∧
    s.step (.run rootName mainName (.function "f" ["x"]
      (.function "g" ["z"] (.identifier "x" {}) {}) {})) = some (a₁, s₁) ∧
    s.step (.run rootName mainName (.function "f" ["y"]
      (.function "g" ["z"] (.identifier "y" {}) {}) {})) = some (a₁', s₁') ∧
    s₁.find? rootName "f" = some (.function f) ∧ s₁'.find? rootName "f" = some (.function f') ∧
    f.Supplied "x" [.bool true] s₁.store ∧
    s₁.step (.call (.binding "f" rootName) [.value (.bool true)]) = some (b, s₂) ∧
    s₁'.step (.call (.binding "f" rootName) [.value (.bool true)]) = some (b', s₂') ∧
    b.LooksRenamed ⟨"x", "y", by decide, by decide⟩ b' ∧
    (s₂'.printedSince s₁').map (·.map Value.seen) =
      (s₂.printedSince s₁).map (·.map Value.seen) := by
  obtain ⟨a, s, a₁, s₁, evaluated, taken⟩ : ∃ a s a₁ s₁,
      (start 1).step (.evaluate rootName mainName "(def x nil)") = some (a, s) ∧
      s.step (.run rootName mainName (.function "f" ["x"]
        (.function "g" ["z"] (.identifier "x" {}) {}) {})) = some (a₁, s₁) := by
    have both : (((start 1).step (.evaluate rootName mainName "(def x nil)")).bind fun r =>
        r.2.step (.run rootName mainName (.function "f" ["x"]
          (.function "g" ["z"] (.identifier "x" {}) {}) {}))).isSome = true := by
      decide +kernel
    obtain ⟨⟨a₁, s₁⟩, both⟩ := Option.isSome_iff_exists.mp both
    obtain ⟨⟨a, s⟩, evaluated, taken⟩ := Option.bind_eq_some_iff.mp both
    exact ⟨a, s, a₁, s₁, evaluated, taken⟩
  have reachable : s.Reachable := .step (.start 1) (x := .evaluate ..) trivial evaluated
  obtain ⟨a₁', s₁', f, f', taken', found, found', calls⟩ :=
    call_renamed reachable ⟨"x", "y", by decide, by decide⟩ (by decide) (by decide) (by decide)
      taken
  have supplied : f.Supplied "x" [.bool true] s₁.store := by
    obtain ⟨scope, meter, named, -, rfl⟩ := of_step_run_function taken
    have same := found.symm.trans (find?_declared "f" named (reachable.meets_any.scope? named))
    cases same
    intro c code m leads f' c' values calls
    cases code
    rcases leads.cases_head with rfl | ⟨m', next, rest⟩
    · cases calls
    · cases next
      rcases rest.cases_head with rfl | ⟨m'', next, -⟩
      · cases calls
      · cases next
  obtain ⟨b, s₂, b', s₂', called, called', alike, printed⟩ :=
    calls [.value (.bool true)] [.value (.bool true)] [.bool true]
      (.cons (.value (Value.meets_of_kind (by simp [Value.kind]))) .nil) rfl (by decide) supplied
  exact ⟨a, s, a₁, s₁, a₁', s₁', f, f', b, s₂, b', s₂', evaluated, reachable, taken, taken', found,
    found', supplied, called, called', alike, printed⟩

/-- A function that calls itself, and forgets the argument. -/
def forgetful (parameter : String) : Tree :=
  .function "f" [parameter] (.call "if"
    [.identifier parameter {}, .call "f" [] {}, .identifier parameter {}] {}) {}

/-- If the parameter may be without an argument, what its name is bound to around the function
shows: with the other name, there is nothing. -/
theorem call_renamed_forgetful : ∃ a s a₁ s₁ a₁' s₁' b s₂ b' s₂',
    (start 2).step (.evaluate rootName mainName "(def x false)") = some (a, s) ∧ s.Reachable ∧
    "x" ∉ (forgetful "x").functionNames ∧ "y" ∉ (forgetful "x").names ∧
    (forgetful "x").rename (Renaming.apply ⟨"x", "y", by decide, by decide⟩) = forgetful "y" ∧
    s.step (.run rootName mainName (forgetful "x")) = some (a₁, s₁) ∧
    s.step (.run rootName mainName (forgetful "y")) = some (a₁', s₁') ∧
    s₁.step (.call (.binding "f" rootName) [.value (.bool true)]) = some (b, s₂) ∧
    s₁'.step (.call (.binding "f" rootName) [.value (.bool true)]) = some (b', s₂') ∧
    b.value?.map Value.seen = some (.bool, "false", "false") ∧ b'.value?.isNone ∧
    ¬ b.LooksRenamed ⟨"x", "y", by decide, by decide⟩ b' := by
  have shown : ((start 2).step (.evaluate rootName mainName "(def x false)")).bind (fun r =>
      (r.2.step (.run rootName mainName (forgetful "x"))).bind fun r =>
        (r.2.step (.call (.binding "f" rootName) [.value (.bool true)])).map fun r =>
          r.1.value?.map Value.seen) = some (some (.bool, "false", "false")) := by
    decide +kernel
  have failed : ((start 2).step (.evaluate rootName mainName "(def x false)")).bind (fun r =>
      (r.2.step (.run rootName mainName (forgetful "y"))).bind fun r =>
        (r.2.step (.call (.binding "f" rootName) [.value (.bool true)])).map fun r =>
          r.1.value?.map Value.seen) = some none := by
    decide +kernel
  obtain ⟨⟨a, s⟩, evaluated, shown⟩ := Option.bind_eq_some_iff.mp shown
  rw [evaluated, Option.bind_some] at failed
  obtain ⟨⟨a₁, s₁⟩, taken, shown⟩ := Option.bind_eq_some_iff.mp shown
  obtain ⟨⟨a₁', s₁'⟩, taken', failed⟩ := Option.bind_eq_some_iff.mp failed
  obtain ⟨⟨b, s₂⟩, called, shown⟩ := Option.map_eq_some_iff.mp shown
  obtain ⟨⟨b', s₂'⟩, called', failed⟩ := Option.map_eq_some_iff.mp failed
  have none : b'.value? = none := Option.map_eq_none_iff.mp failed
  refine ⟨a, s, a₁, s₁, a₁', s₁', b, s₂, b', s₂', evaluated,
    .step (.start 2) (x := .evaluate ..) trivial evaluated, by decide, by decide, rfl, taken,
    taken', called, called', shown, by rw [none]; rfl, fun alike => ?_⟩
  cases alike with
  | called => cases none
  | callFailure => cases shown

end Session

end Lispette
