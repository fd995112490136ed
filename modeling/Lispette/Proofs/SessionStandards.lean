import Lispette.Proofs.Furnishing

/-!
Standards in sessions. If the steps bring admitted trees only, all that a session holds meets the
standard, whatever the steps were; and its scopes stand on frames that were made in it.
-/

namespace Lispette

theorem exists_of_mem_mapM {α β : Type} {f : α → Option β} {as : List α} {bs : List β} {b : β}
    (run : as.mapM f = some bs) (member : b ∈ bs) : ∃ a ∈ as, f a = some b := by
  induction as generalizing bs with
  | nil =>
    cases run
    cases member
  | cons a as ih =>
    simp only [List.mapM_cons, Option.bind_eq_bind, Option.bind_eq_some_iff] at run
    obtain ⟨first, found, rest, run, same⟩ := run
    cases same
    rcases List.mem_cons.mp member with rfl | later
    · exact ⟨a, List.mem_cons_self, found⟩
    · obtain ⟨a', given, found⟩ := ih run later
      exact ⟨a', List.mem_cons_of_mem _ given, found⟩

/-- The operands of a step. -/
def Step.operands : Step → List Operand
  | .extendScope _ _ bindings => bindings.map Prod.snd
  | .assign _ _ operand => [operand]
  | .call function arguments => function :: arguments
  | .compare a b => [a, b]
  | _ => []

/-- A value that a step gives meets the standard. -/
def Operand.Meets (std : Standard) (s : Store) : Operand → Prop
  | .value v => v.Meets std s
  | .binding _ _ => True

theorem Operand.Plain.meets {std : Standard} {s : Store} {operand : Operand}
    (plain : operand.Plain) : operand.Meets std s := by
  cases operand with
  | value v => exact Value.meets_of_kind plain
  | binding name scope => trivial

theorem Step.Plain.operand {x : Step} (plain : x.Plain) :
    ∀ operand ∈ x.operands, operand.Plain := by
  intro operand member
  cases x with
  | extendScope name outer bindings =>
    obtain ⟨binding, bound, rfl⟩ := List.mem_map.mp member
    exact plain binding bound
  | assign scope name given => exact List.mem_singleton.mp member ▸ plain
  | call function arguments => exact List.forall_mem_cons.mpr plain operand member
  | compare a b =>
    exact List.forall_mem_cons.mpr ⟨plain.1, List.forall_mem_singleton.mpr plain.2⟩ operand member
  | _ => exact absurd member List.not_mem_nil

theorem Step.Plain.meets {std : Standard} {s : Store} {x : Step} (plain : x.Plain) :
    ∀ operand ∈ x.operands, operand.Meets std s :=
  fun operand member => (plain.operand operand member).meets

/-- The value that an answer shows. -/
def Answer.value? : Answer → Option Value
  | .value v | .called _ v => some v
  | .found v => v
  | _ => none

def Code.builtin? : Code → Option Builtin
  | .builtin b => some b
  | .closure _ => none

def Code.closure? : Code → Option Closure
  | .builtin _ => none
  | .closure c => some c

theorem Code.eq_of_builtin? {code : Code} {b : Builtin} (known : code.builtin? = some b) :
    code = .builtin b := by
  cases code with
  | builtin b => rw [Option.some.inj known]
  | closure c => cases known

theorem Code.eq_of_closure? {code : Code} {c : Closure} (known : code.closure? = some c) :
    code = .closure c := by
  cases code with
  | builtin b => cases known
  | closure c => rw [Option.some.inj known]

/-- The function that a program came to. -/
def Answer.function? : Answer → Option Function
  | .value v => v.function?
  | _ => none

theorem Answer.eq_of_function? {answer : Answer} {f : Function}
    (known : answer.function? = some f) : answer = .value (.function f) := by
  cases answer with
  | value v =>
    cases v with
    | function g => rw [Option.some.inj known]
    | _ => cases known
  | _ => cases known

/-- The trees that the step evaluates are admitted. -/
def Step.Admitted (std : Standard) : Step → Prop
  | .evaluate _ _ source => ∀ t, Tree.ofSource source = .ok t → std.admits t
  | .run _ _ tree => std.admits tree
  | _ => True

structure Session.Meets (std : Standard) (s : Session) : Prop where
  store : s.store.Meets std
  scopes (name : String) (scope : Scope) (named : (name, scope) ∈ s.scopes) :
    s.store.HasScope scope

namespace Session

variable {std : Standard} {s s' : Session} {x : Step} {answer : Answer}

/-- The session with a new prelude. -/
def installed (s : Session) (name : String) : Session :=
  { s with store := s.store.newPrelude.2 }.nameScope name s.store.newPrelude.1

theorem step_makePrelude (s : Session) (name : String) :
    s.step (.makePrelude name) = some (.done, s.installed name) := by
  have made : s.make Scope.prelude =
      (s.store.newPrelude.1, { s with store := s.store.newPrelude.2 }) := by
    unfold make
    rw [Action.sure_of_ok (Store.prelude_run s.store)]
  simp only [Session.step, made, installed]

theorem scope_mem {name : String} {scope : Scope} (named : s.scope? name = some scope) :
    (name, scope) ∈ s.scopes := by
  obtain ⟨newer, older, split, -⟩ := List.lookup_eq_some_iff.mp named
  simp [split]

/-- The value that an action of a session comes to meets the standard. -/
theorem meets_perform {ε : Type} {accepts : ε → Prop} {x : Action ε Value} {v : Value}
    (ends : std.Ends accepts s.store (x s.store)) (run : (s.perform x).1 = .ok v) :
    v.Meets std (s.perform x).2.store := by
  unfold perform at run ⊢
  generalize x s.store = r at ends run
  cases r with
  | ok w t =>
    cases run
    exact ends.2.2
  | error e t => cases run

theorem of_reply {r : Except Failure Value} {v : Value} (known : (reply r).value? = some v) :
    r = .ok v := by
  cases r with
  | ok w => exact congrArg Except.ok (Option.some.inj known)
  | error e => cases known

namespace Meets

variable (meets : s.Meets std)
include meets

theorem scope? {name : String} {scope : Scope} (named : s.scope? name = some scope) :
    s.store.HasScope scope :=
  meets.scopes name scope (scope_mem named)

theorem resolve?_of_meets {operand : Operand} {v : Value} (given : operand.Meets std s.store)
    (resolved : s.resolve? operand = some v) : v.Meets std s.store := by
  cases operand with
  | value w =>
    cases resolved
    exact given
  | binding name scope =>
    obtain ⟨scope, -, found⟩ := Option.bind_eq_some_iff.mp resolved
    exact meets.store.lookup found

theorem resolve? {operand : Operand} {v : Value} (plain : operand.Plain)
    (resolved : s.resolve? operand = some v) : v.Meets std s.store :=
  meets.resolve?_of_meets plain.meets resolved

theorem resolveAll_of_meets {operands : List Operand} {values : List Value}
    (given : ∀ operand ∈ operands, operand.Meets std s.store)
    (resolved : operands.mapM s.resolve? = some values) : ∀ v ∈ values, v.Meets std s.store := by
  intro v member
  obtain ⟨operand, known, resolved⟩ := exists_of_mem_mapM resolved member
  exact meets.resolve?_of_meets (given operand known) resolved

theorem resolveAll {operands : List Operand} {values : List Value}
    (plain : ∀ operand ∈ operands, operand.Plain)
    (resolved : operands.mapM s.resolve? = some values) : ∀ v ∈ values, v.Meets std s.store :=
  meets.resolveAll_of_meets (fun operand known => (plain operand known).meets) resolved

/-- A session whose store has grown and still meets the standard. -/
theorem of_grows {t : Store} (grows : Store.Grows s.store t) (store : t.Meets std) :
    ({ s with store := t } : Session).Meets std :=
  ⟨store, fun name scope named => (meets.scopes name scope named).mono grows⟩

theorem nameScope {name : String} {scope : Scope} (has : s.store.HasScope scope) :
    (s.nameScope name scope).Meets std where
  store := meets.store
  scopes name' scope' named := by
    rcases List.mem_cons.mp named with same | older
    · cases same
      exact has
    · exact meets.scopes name' scope' older

/-- A step that gives what meets the standard keeps all that the session holds to it. -/
theorem step_of_meets (upheld : std.Upheld) (admitted : x.Admitted std)
    (given : ∀ operand ∈ x.operands, operand.Meets std s.store)
    (taken : s.step x = some (answer, s')) : s'.Meets std := by
  cases x with
  | evaluate scope interpreter source =>
    simp only [Session.step, Option.bind_eq_bind, Option.bind_eq_some_iff] at taken
    obtain ⟨meter, -, scope, named, taken⟩ := taken
    cases taken
    obtain ⟨grows, store⟩ := (meets_evaluate upheld meter admitted meets.store
      (meets.scope? named)).store
    rw [perform_eq]
    exact meets.of_grows grows store
  | run scope interpreter tree =>
    simp only [Session.step, Option.bind_eq_bind, Option.bind_eq_some_iff] at taken
    obtain ⟨meter, -, scope, named, taken⟩ := taken
    cases taken
    obtain ⟨grows, store⟩ := (Tree.meets_eval upheld meter admitted meets.store
      (meets.scope? named)).store
    rw [perform_eq, Action.after_mapError]
    exact meets.of_grows grows store
  | makeInterpreter name limit =>
    cases taken
    exact ⟨meets.store.of_eq rfl rfl, meets.scopes⟩
  | makeScope name =>
    cases taken
    exact (meets.of_grows (Store.grows_newFrame ..) (meets.store.newFrame [] (by simp))).nameScope
      (Store.hasScope_newFrame (by simp))
  | makePrelude name =>
    rw [step_makePrelude] at taken
    cases taken
    obtain ⟨store, has⟩ := Store.meets_newPrelude meets.store
    exact (meets.of_grows s.store.grows_newPrelude store).nameScope has
  | extendScope name outer bindings =>
    simp only [Session.step, Option.bind_eq_bind, Option.bind_eq_some_iff] at taken
    obtain ⟨outer, named, bindings, resolved, taken⟩ := taken
    cases taken
    have bound : ∀ binding ∈ bindings.reverse, binding.2.Meets std s.store := by
      intro binding member
      obtain ⟨bound, known, named⟩ := exists_of_mem_mapM resolved (List.mem_reverse.mp member)
      obtain ⟨v, found, rfl⟩ := Option.map_eq_some_iff.mp named
      exact meets.resolve?_of_meets (given _ (List.mem_map_of_mem known)) found
    have made := meets.of_grows (Store.grows_newFrame ..) (meets.store.newFrame outer.chain bound)
    exact made.nameScope (Store.hasScope_newFrame (meets.scope? named))
  | assign scope name operand =>
    simp only [Session.step, Option.bind_eq_bind, Option.bind_eq_some_iff] at taken
    obtain ⟨scope, -, v, resolved, taken⟩ := taken
    cases taken
    exact meets.of_grows (Store.grows_bind ..)
      (meets.store.bind (meets.resolve?_of_meets (given _ List.mem_cons_self) resolved))
  | call function arguments =>
    obtain ⟨callee, passed⟩ := List.forall_mem_cons.mp given
    rcases of_step_call taken with ⟨f, values, resolved, resolvedAll, rfl⟩ | rfl
    · have functions : f.Meets std s.store := meets.resolve?_of_meets callee resolved f rfl
      obtain ⟨grows, store⟩ := (Function.meets_call upheld functions
        (meets.resolveAll_of_meets passed resolvedAll) meets.store).store
      rw [perform_eq]
      exact meets.of_grows grows store
    · exact meets
  | shareScope name shared =>
    simp only [Session.step, Option.bind_eq_bind, Option.bind_eq_some_iff] at taken
    obtain ⟨scope, named, taken⟩ := taken
    cases taken
    exact meets.nameScope (meets.scope? named)
  | shareInterpreter name shared | find scope name =>
    simp only [Session.step, Option.bind_eq_bind, Option.bind_eq_some_iff] at taken
    obtain ⟨_, -, taken⟩ := taken
    cases taken
    exact ⟨meets.store, meets.scopes⟩
  | dropScope name =>
    cases taken
    exact ⟨meets.store, fun name scope named =>
      meets.scopes name scope (List.mem_filter.mp named).1⟩
  | compare a b =>
    simp only [Session.step, Option.bind_eq_bind, Option.bind_eq_some_iff] at taken
    obtain ⟨_, -, _, -, taken⟩ := taken
    cases taken
    exact meets

theorem step (upheld : std.Upheld) (admitted : x.Admitted std) (plain : x.Plain)
    (taken : s.step x = some (answer, s')) : s'.Meets std :=
  meets.step_of_meets upheld admitted plain.meets taken

/-- What a step answers with meets the standard, like all that the session holds. -/
theorem shown_of_meets (upheld : std.Upheld) (admitted : x.Admitted std)
    (given : ∀ operand ∈ x.operands, operand.Meets std s.store)
    (taken : s.step x = some (answer, s')) {v : Value} (known : answer.value? = some v) :
    v.Meets std s'.store := by
  cases x with
  | evaluate scope interpreter source =>
    simp only [Session.step, Option.bind_eq_bind, Option.bind_eq_some_iff] at taken
    obtain ⟨meter, -, scope, named, taken⟩ := taken
    cases taken
    exact meets_perform (meets_evaluate upheld meter admitted meets.store (meets.scope? named))
      (of_reply known)
  | run scope interpreter tree =>
    simp only [Session.step, Option.bind_eq_bind, Option.bind_eq_some_iff] at taken
    obtain ⟨meter, -, scope, named, taken⟩ := taken
    cases taken
    have ends := Tree.meets_eval upheld meter admitted meets.store (meets.scope? named)
    have placed : std.Ends (fun _ => True) s.store
      (Action.mapError Failure.eval (tree.eval meter scope) s.store) :=
      ends.mapError Failure.eval fun _ _ => trivial
    exact meets_perform placed (of_reply known)
  | call function arguments =>
    simp only [Session.step, Option.bind_eq_bind, Option.bind_eq_some_iff] at taken
    obtain ⟨callee, resolved, values, resolvedAll, taken⟩ := taken
    obtain ⟨first, passed⟩ := List.forall_mem_cons.mp given
    cases callee with
    | function f =>
      have functions : f.Meets std s.store := meets.resolve?_of_meets first resolved f rfl
      have result := meets_perform (v := v) (Function.meets_call upheld functions
        (meets.resolveAll_of_meets passed resolvedAll) meets.store)
      dsimp only at taken
      generalize s.perform (f.call values) = performed at taken result
      obtain ⟨r, next⟩ := performed
      cases r with
      | ok w =>
        cases taken
        cases known
        exact result rfl
      | error e =>
        cases taken
        cases known
    | nil | bool | number | string =>
      cases taken
      cases known
  | find scope name =>
    simp only [Session.step, Option.bind_eq_bind, Option.bind_eq_some_iff] at taken
    obtain ⟨scope, -, taken⟩ := taken
    cases taken
    exact meets.store.lookup known
  | shareInterpreter name shared | shareScope name shared =>
    simp only [Session.step, Option.bind_eq_bind, Option.bind_eq_some_iff] at taken
    obtain ⟨_, -, taken⟩ := taken
    cases taken
    cases known
  | extendScope name outer bindings | assign scope name operand | compare a b =>
    simp only [Session.step, Option.bind_eq_bind, Option.bind_eq_some_iff] at taken
    obtain ⟨_, -, _, -, taken⟩ := taken
    cases taken
    cases known
  | makeInterpreter name limit | makeScope name | makePrelude name | dropScope name =>
    cases taken
    cases known

theorem shown (upheld : std.Upheld) (admitted : x.Admitted std) (plain : x.Plain)
    (taken : s.step x = some (answer, s')) {v : Value} (known : answer.value? = some v) :
    v.Meets std s'.store :=
  meets.shown_of_meets upheld admitted plain.meets taken known

end Meets

end Session

/-- Nothing is asked. -/
def Standard.any : Standard :=
  ⟨fun _ => True, fun _ => True, fun _ => True⟩

theorem Standard.any_upheld : any.Upheld := by
  constructor <;> intros <;> trivial

theorem Session.start_meets (std : Standard) (limit : Nat) : (start limit).Meets std := by
  obtain ⟨store, has⟩ := meets_start std limit
  rw [start_eq]
  refine ⟨store, fun name scope named => ?_⟩
  cases List.mem_singleton.mp named
  exact has

theorem Session.startBare_meets (std : Standard) (limit : Nat) : (startBare limit).Meets std := by
  have empty := Store.meets_empty std (Store.newMeter {} limit).2.meters
  refine ⟨empty.newFrame [] (by simp), fun name scope named => ?_⟩
  cases List.mem_singleton.mp named
  exact Store.hasScope_newFrame (by simp)

theorem Session.Reachable.meets_any {s : Session} (reachable : s.Reachable) :
    s.Meets Standard.any := by
  induction reachable with
  | start limit => exact start_meets _ limit
  | startBare limit => exact startBare_meets _ limit
  | @step s s' x answer before plain taken ih =>
    refine ih.step Standard.any_upheld ?_ plain taken
    cases x <;> simp [Step.Admitted, Standard.any]

end Lispette
