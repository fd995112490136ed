import Lispette.Proofs.Mirroring
import Lispette.Proofs.SessionStandards

/-!
New preludes. Whatever was run in a store, a prelude and a meter that are new in it are like those
of a store of their own: all that is made with them is found again behind what there was, and none
of what there was is changed.
-/

namespace Lispette

open List (Forall₂)

/-- All numbers follow those of what a store already holds. -/
def Mirror.shift (s : Store) : Mirror where
  frame id := s.frames.size + id
  function id := s.functionCount + id
  meter id := s.meters.size + id
  trees t u := u = t
  failures e e' := e' = e
  frame_injective _ _ := Nat.add_left_cancel
  function_injective _ _ := Nat.add_left_cancel
  meter_injective _ _ := Nat.add_left_cancel
  program h := ⟨_, _, h, List.forall₂_same.mpr fun _ _ => rfl⟩
  number h := ⟨_, h, rfl⟩
  string h := ⟨_, h⟩
  identifier h := ⟨_, h, rfl⟩
  define h := ⟨_, _, h, rfl⟩
  declare h := ⟨_, _, h, rfl⟩
  call h := ⟨_, _, h, List.forall₂_same.mpr fun _ _ => rfl, fun _ => rfl⟩

namespace Store

/-- A meter in a store of its own is found again as a new meter in any other store. -/
theorem mirrors_newMeter (s : Store) (limit : Nat) :
    (newMeter {} limit).2.Mirrors (.shift s) [] s.printed.toList (s.newMeter limit).2 where
  frame id := by
    show Forall₂ _ _ ((s.newMeter limit).2.frame (s.frames.size + id))
    rw [frame_newMeter, frame_newMeter, frame_of_le (Nat.le_add_right ..),
      frame_of_le (Nat.zero_le id)]
    exact .nil
  nextFrame n := congrArg (s.frames.size + ·) (Nat.zero_add n)
  nextFunction n := congrArg (s.functionCount + ·) (Nat.zero_add n)
  meter id := by
    show (s.newMeter limit).2.meter (s.meters.size + id) = _
    cases id <;> simp [meter_eq, newMeter]
  printed := ⟨[], [], rfl, by simp [newMeter], .nil⟩

theorem together_newMeter (limit : Nat) : Together fun s t => t = (s.newMeter limit).2 where
  record _ _ _ := by
    rintro rfl
    rfl
  bind _ _ _ _ _ := by
    rintro rfl
    rfl
  newFrame _ _ _ _ := by
    rintro rfl
    exact ⟨rfl, rfl⟩
  newFunction _ _ _ _ := by
    rintro rfl
    exact ⟨rfl, rfl⟩

/-- It makes no difference whether the meter or the prelude is made first. -/
theorem newPrelude_newMeter (s : Store) (limit : Nat) :
    (s.newMeter limit).2.newPrelude = (s.newPrelude.1, (s.newPrelude.2.newMeter limit).2) := by
  have parallel : Action.Parallel _ (Scope.prelude : Action Empty Scope) :=
    (together_newMeter limit).prelude
  rcases parallel s _ rfl with
    ⟨scope, s', t', first, second, same⟩ | ⟨e, -⟩
  · rw [prelude_run] at first second
    obtain ⟨scope₁, store₁⟩ := EStateM.Result.ok.inj first
    obtain ⟨scope₂, store₂⟩ := EStateM.Result.ok.inj second
    refine Prod.ext (scope₂.trans scope₁.symm) (store₂.trans ?_)
    rw [same, store₁]
  · exact e.elim

theorem mirrors_newPrelude (s : Store) (limit : Nat) :
    s.newPrelude.1 = (Mirror.shift s).scope Session.startScope ∧
      (Session.startStore limit).Mirrors (.shift s) [] s.printed.toList
        (s.newPrelude.2.newMeter limit).2 := by
  have made := (mirrors_newMeter s limit).newPrelude
  rw [newPrelude_newMeter] at made
  exact made

end Store

theorem mirrors_evaluate_newPrelude (s : Store) (limit : Nat) (source : String) :
    (Mirror.shift s).Outcomes [] s.printed.toList (fun e e' => e' = e)
      (evaluate 0 Session.startScope source (Session.startStore limit))
      (evaluate s.meters.size s.newPrelude.1 source (s.newPrelude.2.newMeter limit).2) := by
  obtain ⟨scope, stores⟩ := s.mirrors_newPrelude limit
  cases said : Tree.ofSource source with
  | ok tree =>
    rw [scope]
    exact mirrors_evaluate said said rfl (fun _ _ => congrArg Failure.eval) _ 0 stores
  | error e =>
    refine mirrors_evaluate_refused said said ?_ _ _ _ _ stores
    rfl

theorem frame_evaluate (source : String) (scope : Scope) (meter : Nat) {s : Store} {id : Nat}
    (old : id < s.frames.size) (other : id ≠ scope.inner) :
    ((evaluate meter scope source).after s).frame id = s.frame id := by
  cases said : Tree.ofSource source with
  | ok tree =>
    obtain ⟨s', noted, run⟩ := evaluate_of_tree said meter scope s
    have old : id < s'.frames.size := by rwa [noted.frames]
    rw [Action.after_congr run, Action.after_mapError, tree.frame_eval scope meter old other,
      Store.frame, noted.frames, Store.frame]
  | error e =>
    obtain ⟨s', noted, run⟩ := evaluate_of_failure said meter scope s
    rw [Action.after_of_error run, Store.frame, noted.frames, Store.frame]

namespace Session

theorem step_evaluate {s : Session} {scopeName interpreter source : String} {scope : Scope}
    {meter : Nat} (named : s.scope? scopeName = some scope)
    (metered : s.interpreter? interpreter = some meter) :
    s.step (.evaluate scopeName interpreter source) =
      some (reply (s.perform (evaluate meter scope source)).1,
        (s.perform (evaluate meter scope source)).2) := by
  simp [Session.step, named, metered]

/-- The scope is named in the session, or a closure that a name is bound to was declared in it. -/
inductive Knows (s : Session) : Scope → Prop
  | named {name : String} {scope : Scope} (named : (name, scope) ∈ s.scopes) : Knows s scope
  | declared {id : Nat} {name : String} {f : Function} {c : Closure}
    (bound : (name, .function f) ∈ s.store.frame id) (code : f.code = .closure c) : Knows s c.scope

theorem Reachable.hasScope {s : Session} (reachable : s.Reachable) {scope : Scope}
    (known : s.Knows scope) : s.store.HasScope scope := by
  have meets := reachable.meets_any
  cases known with
  | named named => exact meets.scopes _ _ named
  | declared bound code => exact ((meets.store _ _ bound _ rfl).closure _ code).1

/-- The session with a new interpreter. -/
def metered (s : Session) (name : String) (limit : Nat) : Session :=
  { s with store := (s.store.newMeter limit).2 }.nameInterpreter name s.store.meters.size

/-- The session with a new prelude and a new interpreter. -/
def renewed (s : Session) (prelude interpreter : String) (limit : Nat) : Session :=
  (s.installed prelude).metered interpreter limit

theorem store_renewed (s : Session) (prelude interpreter : String) (limit : Nat) :
    (s.renewed prelude interpreter limit).store = (s.store.newPrelude.2.newMeter limit).2 := rfl

variable {s : Session} {prelude interpreter source : String} {limit : Nat}

theorem answers_cons {s next : Session} {x : Step} {answer : Answer} (rest : List Step)
    (taken : s.step x = some (answer, next)) : s.answers (x :: rest) =
      (next.answers rest).map fun r => ((answer, next.printedSince s) :: r.1, r.2) := by
  cases run : next.answers rest <;> simp [answers, taken, run]

/-- Every step has its answer. -/
theorem length_answers {s final : Session} {steps : List Step}
    {results : List (Answer × List (List Value))}
    (answers : s.answers steps = some (results, final)) : results.length = steps.length := by
  induction steps generalizing s results with
  | nil =>
    cases answers
    rfl
  | cons x rest ih =>
    simp only [Session.answers, Option.bind_eq_bind, Option.bind_eq_some_iff] at answers
    obtain ⟨⟨answer, next⟩, -, ⟨others, last⟩, further, same⟩ := answers
    cases same
    rw [List.length_cons, List.length_cons, ih further]

theorem printedSince_eq_nil {s t : Session} (same : t.store.printed = s.store.printed) :
    t.printedSince s = [] := by
  simp [printedSince, same]

theorem printedSince_of_append {s t : Session} {new : List (List Value)}
    (printed : t.store.printed.toList = s.store.printed.toList ++ new) : t.printedSince s = new := by
  rw [printedSince, printed, ← Array.length_toList, List.drop_left]

theorem scope?_renewed (s : Session) (prelude interpreter : String) (limit : Nat) :
    (s.renewed prelude interpreter limit).scope? prelude = some s.store.newPrelude.1 :=
  List.lookup_cons_self

theorem answers_renewed (s : Session) (prelude interpreter source : String) (limit : Nat) :
    s.answers [.makePrelude prelude, .makeInterpreter interpreter limit,
        .evaluate prelude interpreter source] =
      let evaluated := (s.renewed prelude interpreter limit).perform
        (evaluate s.store.meters.size s.store.newPrelude.1 source)
      some ([(.done, []), (.limit limit, []),
        (reply evaluated.1, evaluated.2.store.printed.toList.drop s.store.printed.size)],
        evaluated.2) := by
  have quiet : (s.installed prelude).store.printed = s.store.printed := s.store.printed_newPrelude
  have still : (s.renewed prelude interpreter limit).store.printed =
    (s.installed prelude).store.printed := rfl
  have size : (s.renewed prelude interpreter limit).store.printed.size = s.store.printed.size :=
    congrArg Array.size quiet
  have metered : (s.renewed prelude interpreter limit).interpreter? interpreter =
      some s.store.meters.size := by
    rw [← s.store.meters_newPrelude]
    exact List.lookup_cons_self
  have made : (s.installed prelude).step (.makeInterpreter interpreter limit) =
    some (.limit limit, s.renewed prelude interpreter limit) := rfl
  rw [answers_cons _ (step_makePrelude s prelude), answers_cons _ made,
    answers_cons _ (step_evaluate (s.scope?_renewed prelude interpreter limit) metered),
    printedSince_eq_nil quiet, printedSince_eq_nil still, printedSince]
  rw [← size]
  rfl

theorem perform_outcomes {ε : Type} {μ : Mirror} {before before' : List (List Value)}
    {s t : Session} {x y : Action ε Value} (outcomes : μ.Outcomes before before' (fun e e' => e' = e)
      (x s.store) (y t.store)) :
    (t.perform y).1.map Value.seen = (s.perform x).1.map Value.seen ∧
      (s.perform x).2.store.Mirrors μ before before' (t.perform y).2.store := by
  unfold perform
  generalize x s.store = r, y t.store = r' at outcomes
  cases outcomes with
  | ok values stores => exact ⟨congrArg Except.ok values.seen, stores⟩
  | error failed stores => exact ⟨congrArg Except.error failed, stores⟩

theorem answers_start (limit : Nat) (source : String) :
    (start limit).answers [.evaluate rootName mainName source] =
      let evaluated := (single (startStore limit) startScope).perform
        (evaluate 0 startScope source)
      some ([(reply evaluated.1, evaluated.2.store.printed.toList)], evaluated.2) := by
  have silent : (startStore limit).printed.size = 0 :=
    congrArg Array.size (Store.newMeter {} limit).2.printed_newPrelude
  have named : (single (startStore limit) startScope).scope? rootName = some startScope :=
    List.lookup_cons_self
  have metered : (single (startStore limit) startScope).interpreter? mainName = some 0 :=
    List.lookup_cons_self
  have size : (single (startStore limit) startScope).store.printed.size = 0 := silent
  rw [start_eq, answers_cons _ (step_evaluate named metered), printedSince, size]
  rfl

theorem find?_perform {s : Session} {x : Action Failure Value} {scopeName : String} {scope : Scope}
    (named : s.scope? scopeName = some scope) (name : String) :
    (s.perform x).2.find? scopeName name = (s.perform x).2.store.lookup scope name := by
  have still : (s.perform x).2.scope? scopeName = some scope := by rwa [perform_eq]
  rw [find?, still]
  rfl

theorem find?_perform_none {s : Session} {x : Action Failure Value} {scopeName : String}
    (unnamed : s.scope? scopeName = none) (name : String) :
    (s.perform x).2.find? scopeName name = none := by
  have still : (s.perform x).2.scope? scopeName = none := by rwa [perform_eq]
  rw [find?, still]
  rfl

theorem scope?_renewed_of_ne (s : Session) {prelude scopeName : String} (interpreter : String)
    (limit : Nat) (other : scopeName ≠ prelude) :
    (s.renewed prelude interpreter limit).scope? scopeName = s.scope? scopeName := by
  show List.lookup scopeName ((prelude, _) :: s.scopes) = _
  rw [List.lookup_cons, beq_false_of_ne other]
  rfl

theorem lookup_renewed {scope : Scope} (has : s.store.HasScope scope) (name : String) :
    ((s.renewed prelude interpreter limit).perform
        (evaluate s.store.meters.size s.store.newPrelude.1 source)).2.store.lookup scope name =
      s.store.lookup scope name := by
  refine Store.lookup_congr (fun id member => ?_) name
  have old : id < s.store.frames.size := has id member
  have older : id < (s.store.newPrelude.2.newMeter limit).2.frames.size := by
    rw [Store.frames_newMeter]
    exact Nat.lt_of_lt_of_le old s.store.grows_newPrelude.frames
  have other : id ≠ s.store.newPrelude.1.inner := by
    rw [Store.scope_newPrelude]
    exact Nat.ne_of_lt old
  rw [store_perform, store_renewed, frame_evaluate _ _ _ older other, Store.frame_newMeter,
    Store.frame_newPrelude old]

/-- A program run in a new prelude on a new interpreter shows what it shows in a session of its own,
whatever ran before; and it changes no look-up from a scope that was there before. -/
theorem evaluate_isolated (reachable : s.Reachable) (prelude interpreter source : String)
    (limit : Nat) : ∃ r r' printed printed' t t',
    s.answers [.makePrelude prelude, .makeInterpreter interpreter limit,
      .evaluate prelude interpreter source] =
        some ([(.done, []), (.limit limit, []), (reply r, printed)], t) ∧
    (start limit).answers [.evaluate rootName mainName source] =
      some ([(reply r', printed')], t') ∧
    r.map Value.seen = r'.map Value.seen ∧
    printed.map (·.map Value.seen) = printed'.map (·.map Value.seen) ∧
    (∀ name, (t.find? prelude name).map Value.seen = (t'.find? rootName name).map Value.seen) ∧
    (∀ scope, s.Knows scope → s.store.HasScope scope) ∧
    (∀ scope, s.store.HasScope scope → ∀ name,
      t.store.lookup scope name = s.store.lookup scope name) ∧
    (∀ scope, scope ≠ prelude → ∀ name, t.find? scope name = s.find? scope name) := by
  obtain ⟨made, -⟩ := s.store.mirrors_newPrelude limit
  obtain ⟨same, stores⟩ := perform_outcomes (s := single (startStore limit) startScope)
    (t := s.renewed prelude interpreter limit) (mirrors_evaluate_newPrelude s.store limit source)
  obtain ⟨new, new', first, second, printed⟩ := stores.printed
  have named : (single (startStore limit) startScope).scope? rootName = some startScope :=
    List.lookup_cons_self
  refine ⟨_, _, _, _, _, _, answers_renewed .., answers_start .., same, ?_, fun name => ?_,
    fun scope => reachable.hasScope, fun scope has => lookup_renewed has, ?_⟩
  · rw [second, ← Array.length_toList, List.drop_left, first, List.nil_append]
    exact Mirror.values_seen printed
  · rw [find?_perform (s.scope?_renewed prelude interpreter limit), find?_perform named, made]
    exact stores.lookup_seen startScope name
  · intro scopeName other name
    have named := s.scope?_renewed_of_ne interpreter limit other
    cases known : s.scope? scopeName with
    | none =>
      rw [find?_perform_none (named.trans known), find?, known]
      rfl
    | some scope =>
      rw [find?_perform (named.trans known),
        lookup_renewed (reachable.meets_any.scope? known), find?, known]
      rfl

/-- A program that prints, after another one has hidden `print` in the first prelude. -/
theorem evaluate_isolated_hidden : ∃ a s,
    (start 1).step (.evaluate rootName mainName "(def print nil)") = some (a, s) ∧ s.Reachable ∧
    ∃ r r' printed printed' t t',
      s.answers [.makePrelude "new", .makeInterpreter "own" 1, .evaluate "new" "own" "(print 1)"] =
        some ([(.done, []), (.limit 1, []), (reply r, printed)], t) ∧
      (start 1).answers [.evaluate rootName mainName "(print 1)"] =
        some ([(reply r', printed')], t') ∧
      r.map Value.seen = r'.map Value.seen ∧
      printed.map (·.map Value.seen) = printed'.map (·.map Value.seen) := by
  obtain ⟨a, s, taken⟩ : ∃ a s,
      (start 1).step (.evaluate rootName mainName "(def print nil)") = some (a, s) := by
    rw [start_eq, step_single]
    exact ⟨_, _, rfl⟩
  have plain : (Step.evaluate rootName mainName "(def print nil)").Plain := trivial
  have reachable : s.Reachable := .step (.start 1) plain taken
  obtain ⟨r, r', printed, printed', t, t', late, fresh, value, prints, -⟩ :=
    evaluate_isolated reachable "new" "own" "(print 1)" 1
  exact ⟨a, s, taken, reachable, r, r', printed, printed', t, t', late, fresh, value, prints⟩

end Session

end Lispette
