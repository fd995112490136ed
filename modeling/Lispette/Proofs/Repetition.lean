import Lispette.Proofs.Isolation
import Lispette.Proofs.Metering

/-!
Calls that are repeated. A call from outside leaves all that there was as it was, and what it makes
comes behind; so a second call goes like the first, with other numbers for what it makes.
-/

namespace Lispette

open List (Forall₂)

/-- What has been made keeps its number; what is made from now on comes behind further frames and
functions. -/
def Mirror.later (s : Store) (frames functions : Nat) : Mirror where
  __ := Mirror.shift s
  frame id := if id < s.frames.size then id else id + frames
  function id := if id < s.functionCount then id else id + functions
  meter id := id
  frame_injective i j same := by
    dsimp only at same
    split at same <;> split at same <;> omega
  function_injective i j same := by
    dsimp only at same
    split at same <;> split at same <;> omega
  meter_injective _ _ := id

/-- The second store comes after the first: what there was is as it was. -/
structure Store.Later (s t : Store) : Prop where
  grows : Store.Grows s t
  frame {id : Nat} (old : id < s.frames.size) : t.frame id = s.frame id
  meters : t.meters = s.meters

variable {s t : Store} {values : List Value} {f : Function} {v : Value}

theorem Function.later_call (functions : f.Meets .any s) (given : ∀ v ∈ values, v.Meets .any s)
    (store : s.Meets .any) : s.Later ((f.call values).after s) where
  grows := (meets_call Standard.any_upheld functions given store).store.1
  frame := f.frame_call values
  meters := f.meters_call values s

namespace Store.Later

/-- What is made in the first store from now on, and in the second. -/
def mirror (s t : Store) : Mirror :=
  .later s (t.frames.size - s.frames.size) (t.functionCount - s.functionCount)

theorem scope_mirror {scope : Scope} (has : s.HasScope scope) :
    (mirror s t).scope scope = scope := by
  have old (id : Nat) (member : id ∈ scope.chain) : (mirror s t).frame id = id :=
    if_pos (has id member)
  obtain ⟨inner, outer⟩ := scope
  have chain : outer.map (mirror s t).frame = outer :=
    List.map_congr_left (fun id member => old id (List.mem_cons_of_mem _ member)) |>.trans
      (List.map_id outer)
  exact congr (congrArg Scope.mk (old inner List.mem_cons_self)) chain

theorem mirrors_function (meets : f.Meets .any s) : f.Mirrors (mirror s t) f := by
  obtain ⟨id, name, code⟩ := f
  have number : (mirror s t).function id = id := if_pos meets.made
  suffices codes : code.Mirrors (mirror s t) code by
    have mirrors : Function.Mirrors (mirror s t) ⟨id, name, code⟩
      ⟨(mirror s t).function id, name, code⟩ := .mk codes
    rwa [number] at mirrors
  cases code with
  | builtin b => exact .builtin b
  | closure c =>
    obtain ⟨parameters, body, scope, meter⟩ := c
    obtain ⟨has, -⟩ := meets.closure _ rfl
    have codes : Code.Mirrors (mirror s t) (.closure ⟨parameters, body, scope, meter⟩)
      (.closure ⟨parameters, body, (mirror s t).scope scope, meter⟩) := .closure rfl
    rwa [scope_mirror has] at codes

theorem mirrors_value (meets : v.Meets .any s) : v.Mirrors (mirror s t) v := by
  cases v with
  | function f => exact .function (mirrors_function (meets f rfl))
  | nil | bool | number | string => exact .plain (by simp [Value.kind])

theorem mirrors_values (given : ∀ v ∈ values, v.Meets .any s) :
    (mirror s t).values values values :=
  List.forall₂_same.mpr fun v member => mirrors_value (given v member)

/-- A later store holds all that there was, and goes on as the earlier one would. -/
theorem mirrors (later : s.Later t) (store : s.Meets .any) :
    s.Mirrors (mirror s t) s.printed.toList t.printed.toList t where
  frame id := by
    have frames := later.grows.frames
    by_cases old : id < s.frames.size
    · have number : (mirror s t).frame id = id := if_pos old
      rw [number, later.frame old]
      exact List.forall₂_same.mpr fun binding member =>
        ⟨rfl, mirrors_value (store id binding member)⟩
    · have number : (mirror s t).frame id = id + (t.frames.size - s.frames.size) := if_neg old
      rw [number, frame_of_le (by omega), frame_of_le (by omega)]
      exact .nil
  nextFrame n := by
    have frames := later.grows.frames
    have number : (mirror s t).frame (s.frames.size + n) =
      s.frames.size + n + (t.frames.size - s.frames.size) := if_neg (by omega)
    omega
  nextFunction n := by
    have functions := later.grows.functionCount
    have number : (mirror s t).function (s.functionCount + n) =
      s.functionCount + n + (t.functionCount - s.functionCount) := if_neg (by omega)
    omega
  meter id := by
    show t.meter id = s.meter id
    rw [meter, later.meters, meter]
  printed := ⟨[], [], by simp, by simp, .nil⟩

end Store.Later

theorem Function.mirrors_call_again (functions : f.Meets .any s)
    (given : ∀ v ∈ values, v.Meets .any s) (store : s.Meets .any) :
    (Store.Later.mirror s ((f.call values).after s)).Outcomes s.printed.toList
      ((f.call values).after s).printed.toList (fun e e' => e' = e) (f.call values s)
      (f.call values ((f.call values).after s)) := by
  have later := later_call functions given store
  refine (mirrors_call (Store.Later.mirrors_function functions)
    (Store.Later.mirrors_values given) (later.mirrors store)).imp fun e e' failures => ?_
  cases failures with
  | inside failures => exact congrArg CallError.inside failures
  | outside outside => rfl

/-- Answers to a call that look alike. -/
inductive Answer.LooksLike : Answer → Answer → Prop
  | called (name : String) {v w : Value} (seen : w.seen = v.seen) :
    LooksLike (.called name v) (.called name w)
  | callFailure (e : CallError) : LooksLike (.callFailure e) (.callFailure e)
  | notAFunction (kind : Kind) : LooksLike (.notAFunction kind) (.notAFunction kind)

namespace Session

variable {s s' s'' : Session} {function : Operand} {arguments : List Operand} {answer : Answer}

theorem Meets.resolve?_call (meets : s.Meets .any) (f : Function) (values : List Value)
    (operand : Operand) : (s.perform (f.call values)).2.resolve? operand = s.resolve? operand := by
  rw [perform_eq]
  cases operand with
  | value v => rfl
  | binding name scope =>
    cases named : s.scope? scope with
    | none =>
      show (s.scope? scope).bind _ = (s.scope? scope).bind _
      rw [named]
      rfl
    | some scope' =>
      show (s.scope? scope).bind _ = (s.scope? scope).bind _
      rw [named]
      exact f.lookup_call values (meets.scope? named) name

/-- What a call from outside shows and prints, when it is made once and then once more. -/
def Repeats (s : Session) (f : Function) (values : List Value) : Prop :=
  let first := s.perform (f.call values)
  let second := first.2.perform (f.call values)
  second.1.map Value.seen = first.1.map Value.seen ∧
    (second.2.printedSince first.2).map (·.map Value.seen) =
      (first.2.printedSince s).map (·.map Value.seen)

theorem Meets.repeats (meets : s.Meets .any) {f : Function} {values : List Value}
    (functions : f.Meets .any s.store) (given : ∀ v ∈ values, v.Meets .any s.store) :
    s.Repeats f values := by
  have again := Function.mirrors_call_again functions given meets.store
  rw [← store_perform] at again
  obtain ⟨same, stores⟩ := perform_outcomes (s := s) (t := (s.perform (f.call values)).2) again
  obtain ⟨new, new', first, second, printed⟩ := stores.printed
  refine ⟨same, ?_⟩
  rw [printedSince_of_append second, printedSince_of_append first]
  exact Mirror.values_seen printed

/-- A step that calls answers for the function and the values that its operands stand for. -/
theorem step_call {f : Function} {values : List Value}
    (resolved : s.resolve? function = some (.function f))
    (resolvedAll : arguments.mapM s.resolve? = some values) :
    s.step (.call function arguments) = some (match (s.perform (f.call values)).1 with
      | .ok v => .called f.name v
      | .error e => .callFailure e, (s.perform (f.call values)).2) := by
  simp only [step, resolved, resolvedAll, Option.bind_eq_bind, Option.bind_some]
  generalize s.perform (f.call values) = performed
  obtain ⟨r, next⟩ := performed
  cases r <;> rfl

/-- A step that calls, when it is taken once and then once more. -/
theorem Meets.repeats_step (meets : s.Meets .any) (plain : (Step.call function arguments).Plain)
    (taken : s.step (.call function arguments) = some (answer, s')) :
    ∃ answer' s'', s'.step (.call function arguments) = some (answer', s'') ∧
      answer.LooksLike answer' ∧
      (s''.printedSince s').map (·.map Value.seen) =
        (s'.printedSince s).map (·.map Value.seen) := by
  have parts := taken
  simp only [Session.step, Option.bind_eq_bind, Option.bind_eq_some_iff] at parts
  obtain ⟨callee, resolved, values, resolvedAll, last⟩ := parts
  cases callee with
  | function f =>
    rw [step_call resolved resolvedAll] at taken
    cases taken
    have functions : f.Meets .any s.store := meets.resolve? plain.1 resolved f rfl
    obtain ⟨same, printed⟩ := meets.repeats functions (meets.resolveAll plain.2 resolvedAll)
    have still := meets.resolve?_call f values
    refine ⟨_, _, step_call ((still function).trans resolved) ?_, ?_, printed⟩
    · rw [funext still]
      exact resolvedAll
    · generalize (s.perform (f.call values)).1 = r,
        ((s.perform (f.call values)).2.perform (f.call values)).1 = r' at same
      cases r with
      | ok v =>
        cases r' with
        | ok w => exact .called f.name (Except.ok.inj same)
        | error e => cases same
      | error e =>
        cases r' with
        | ok w => cases same
        | error e' =>
          cases same
          exact .callFailure e
  | nil | bool | number | string =>
    cases last
    exact ⟨_, s, taken, .notAFunction _, rfl⟩

/-- A function keeps nothing from one call to the next: called from outside with the same arguments
it shows the same value or has the same failure, and prints the same, as the first time. It is so of
every function that was made in the session, be it bound there or answered by it. -/
theorem call_repeats (reachable : s.Reachable) :
    (∀ id, ∀ binding ∈ s.store.frame id, binding.2.Meets .any s.store) ∧
    (∀ x answer s' v, x.Plain → s.step x = some (answer, s') → answer.value? = some v →
      v.Meets .any s'.store) ∧
    (∀ (f : Function) (values : List Value), f.Meets .any s.store →
      (∀ v ∈ values, v.Meets .any s.store) → s.Repeats f values) ∧
    ∀ function arguments answer s', (Step.call function arguments).Plain →
      s.step (.call function arguments) = some (answer, s') →
      ∃ answer' s'', s'.step (.call function arguments) = some (answer', s'') ∧
        answer.LooksLike answer' ∧
        (s''.printedSince s').map (·.map Value.seen) =
          (s'.printedSince s).map (·.map Value.seen) := by
  have meets := reachable.meets_any
  refine ⟨meets.store, fun x answer s' v plain taken => ?_, fun f values => meets.repeats,
    fun function arguments answer s' => meets.repeats_step⟩
  refine meets.shown Standard.any_upheld ?_ plain taken
  cases x <;> simp [Step.Admitted, Standard.any]

/-- A function that prints, whose body hides the parameter. -/
theorem call_repeats_hidden : ∃ a s,
    (start 1).step (.evaluate rootName mainName "(fn f [x] (def x (print x)))") = some (a, s) ∧
    s.Reachable ∧ ∃ answer s' answer' s'',
      s.step (.call (.binding "f" rootName) [.value (.bool true)]) = some (answer, s') ∧
      s'.step (.call (.binding "f" rootName) [.value (.bool true)]) = some (answer', s'') ∧
      answer.LooksLike answer' ∧
      (s''.printedSince s').map (·.map Value.seen) =
        (s'.printedSince s).map (·.map Value.seen) := by
  obtain ⟨a, s, answer, s', taken, called⟩ : ∃ a s answer s',
      (start 1).step (.evaluate rootName mainName "(fn f [x] (def x (print x)))") = some (a, s) ∧
      s.step (.call (.binding "f" rootName) [.value (.bool true)]) = some (answer, s') := by
    have both : (((start 1).step (.evaluate rootName mainName "(fn f [x] (def x (print x)))")).bind
        fun r => r.2.step (.call (.binding "f" rootName) [.value (.bool true)])).isSome = true := by
      decide +kernel
    obtain ⟨⟨answer, s'⟩, both⟩ := Option.isSome_iff_exists.mp both
    obtain ⟨⟨a, s⟩, taken, called⟩ := Option.bind_eq_some_iff.mp both
    exact ⟨a, s, answer, s', taken, called⟩
  have plain : (Step.evaluate rootName mainName "(fn f [x] (def x (print x)))").Plain := trivial
  have operands : (Step.call (.binding "f" rootName) [.value (.bool true)]).Plain :=
    ⟨trivial, List.forall_mem_singleton.mpr (by simp [Operand.Plain, Value.kind])⟩
  have reachable : s.Reachable := .step (.start 1) plain taken
  obtain ⟨answer', s'', again, alike, printed⟩ :=
    (call_repeats reachable).2.2.2 _ _ answer s' operands called
  exact ⟨a, s, taken, reachable, answer, s', answer', s'', called, again, alike, printed⟩

end Session

end Lispette
