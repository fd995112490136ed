import Lispette.Proofs.Equations
import Lispette.Proofs.Provenance

/-!
The identity of functions. Two functions, wherever they are found, are equal only if they were made
at once, by one evaluation of a declaration or for one builtin of a new prelude, and then they are
one function. A value is handed on as it is.
-/

namespace Lispette

open Moment

theorem Value.same_function (f g : Function) :
    (Value.function f).same (.function g) = true ↔ f.id = g.id := by
  simp [same]

theorem Builtin.answer_equal (f g : Function) :
    (Builtin.comparison .equal).answer [.function f, .function g] =
      .ok (.bool ((Value.function f).same (.function g))) := by
  have answered : (comparison .equal).answer [.function f, .function g] =
    .ok (.bool (Comparison.equal.holds (if f.id = g.id then some .eq else none))) := rfl
  rw [answered]
  by_cases ids : f.id = g.id <;> simp [Value.same, Comparison.holds, ids]

namespace Stage

variable {allowed : Step → Prop} {made : List Function} {st : Stage}

/-- What functions are known by. Those that are found at a stage are known by the occasion on which
they were made, and what is made on an occasion is a function that there was not before. -/
structure Identifies (made : List Function) (st : Stage) : Prop where
  stems {f : Function} (held : st.Holds (.function f)) : ∃! n : Nat, made[n]? = some f
  same_iff {f g : Function} (first : st.Holds (.function f)) (second : st.Holds (.function g)) :
    (Value.function f).same (.function g) = true ↔
      ∃ n : Nat, made[n]? = some f ∧ made[n]? = some g
  compared (f g : Function) : (Builtin.comparison .equal).answer [.function f, .function g] =
    .ok (.bool ((Value.function f).same (.function g)))
  eq_of_same {f g : Function} (first : st.Holds (.function f)) (second : st.Holds (.function g))
    (same : (Value.function f).same (.function g) = true) : f = g
  declared {m : Moment} {f g : Function} (working : m ∈ st.moment?) (making : m.made? = some f)
    (before : g ∈ made) : (Value.function f).same (.function g) = false
  installed {f g : Function} (making : f ∈ st.session.store.preludeFunctions) (before : g ∈ made) :
    (Value.function f).same (.function g) = false

namespace Accounted

variable {f g : Function} (accounted : st.Accounted made)
include accounted

/-- The number of a function that was made is its place among them. -/
theorem id_eq {n : Nat} (there : made[n]? = some f) : f.id = n := by
  have id : (made.map Function.id)[n]? = some f.id := by rw [List.getElem?_map, there]; rfl
  rw [accounted.ids] at id
  obtain ⟨small, same⟩ := List.getElem?_eq_some_iff.mp id
  rw [← same, List.getElem_range]

theorem getElem?_id (member : f ∈ made) : made[f.id]? = some f := by
  obtain ⟨n, there⟩ := List.mem_iff_getElem?.mp member
  rwa [accounted.id_eq there]

theorem same_iff (first : f ∈ made) (second : g ∈ made) :
    (Value.function f).same (.function g) = true ↔
      ∃ n : Nat, made[n]? = some f ∧ made[n]? = some g := by
  rw [Value.same_function]
  constructor
  · intro ids
    have there := accounted.getElem?_id second
    rw [← ids] at there
    exact ⟨f.id, accounted.getElem?_id first, there⟩
  · intro both
    obtain ⟨n, one, other⟩ := both
    rw [accounted.id_eq one, accounted.id_eq other]

/-- A function with a number that was not given yet differs from all that were made. -/
theorem not_same (new : st.session.store.functionCount ≤ f.id) (before : g ∈ made) :
    (Value.function f).same (.function g) = false := by
  have member := List.mem_map_of_mem (f := Function.id) before
  rw [accounted.ids, List.mem_range] at member
  rw [Bool.eq_false_iff]
  intro same
  have ids := (Value.same_function f g).mp same
  omega

theorem identifies : st.Identifies made where
  stems held := ⟨_, accounted.getElem?_id (accounted.mem held),
    fun n there => (accounted.id_eq there).symm⟩
  same_iff first second := accounted.same_iff (accounted.mem first) (accounted.mem second)
  compared := Builtin.answer_equal
  eq_of_same first second same := by
    obtain ⟨n, one, other⟩ :=
      (accounted.same_iff (accounted.mem first) (accounted.mem second)).mp same
    exact Option.some.inj (one.symm.trans other)
  declared {m} _ _ working making before := by
    refine accounted.not_same (Nat.le_of_eq ?_) before
    rw [id_of_made? making]
    cases st with
    | resting s answered => cases working
    | within s answered m' =>
      cases working
      rfl
  installed {f} _ making before := by
    have member := List.mem_map_of_mem (f := Function.id) making
    rw [Store.ids_preludeFunctions, List.mem_range'_1] at member
    exact accounted.not_same member.1 before

end Accounted

/-- A value is handed on as it is: by a definition, by a look-up, to parameters and into bodies, by
both kinds of conditional, out of a body, and by a scope that is shared. -/
structure HandsOn (st : Stage) : Prop where
  named {name : String} {scope : Scope} (named : st.session.scope? name = some scope) :
    st.session.store.HasScope scope
  closed {f : Function} {c : Closure} (held : st.Holds (.function f)) (code : f.code = .closure c) :
    st.session.store.HasScope c.scope
  defined {scope : Scope} {meter : Nat} {name : String} {value : Tree} {v : Value} {t : Store}
    (has : st.session.store.HasScope scope)
    (run : value.eval meter scope st.session.store = .ok v t) (p : Position) :
    ∃ u, (Tree.define name value p).eval meter scope st.session.store = .ok .nil u ∧
      u.lookup scope name = some v
  read {scope : Scope} {name : String} {v : Value}
    (bound : st.session.store.lookup scope name = some v) (meter : Nat) (p : Position) :
    (Tree.identifier name p).eval meter scope st.session.store = .ok v st.session.store
  passed {c : Closure} (has : st.session.store.HasScope c.scope) (values : List Value)
    (name : String) : (st.session.store.enterBody c values).2.lookup
        (st.session.store.enterBody c values).1 name =
      ((c.parameters.zip values).reverse.lookup name).or (st.session.store.lookup c.scope name)
  chosen {scope : Scope} {meter : Nat} {condition yes no : Tree} {q : Bool} {t : Store}
    (run : condition.eval meter scope st.session.store = .ok (.bool q) t) (p : Position) :
    (Tree.call "if" [condition, yes, no] p).eval meter scope st.session.store =
      (bif q then yes else no).eval meter scope t
  preferred (q : Bool) (v w : Value) :
    Builtin.choose.answer [.bool q, v, w] = .ok (bif q then v else w)
  answered {f : Function} {c : Closure} (code : f.code = .closure c) {values : List Value}
    {v : Value} {t : Store} (run : c.body.eval c.meter (st.session.store.enterBody c values).1
      (st.session.store.enterBody c values).2 = .ok v t) : f.call values st.session.store = .ok v t
  returned {head : String} {arguments : List Tree} {scope : Scope} {meter : Nat} {f : Function}
    {values : List Value} {t : Store} (strict : ¬ (head = "if" ∧ arguments.length = 3))
    (run : Tree.evalEach meter scope arguments st.session.store = .ok values t)
    (bound : t.lookup scope head = some (.function f))
    (free : (t.meter meter).depth < (t.meter meter).limit) {v : Value} {u : Store}
    (called : f.call values ((t.enter meter).record (.calling head values.length)) = .ok v u)
    (p : Position) :
    (Tree.call head arguments p).eval meter scope st.session.store = .ok v (u.leave meter)
  shared {name old : String} {answer : Answer} {s : Session}
    (taken : st.session.step (.shareScope name old) = some (answer, s)) (x : String) :
    s.find? name x = st.session.find? old x

theorem Meets.held {std : Standard} (meets : st.Meets std) {v : Value} (held : st.Holds v) :
    v.Meets std st.session.store := by
  have stored (store : st.session.store.Holds v) : v.Meets std st.session.store := by
    rcases store with ⟨id, binding, member, rfl⟩ | printed
    · exact meets.session.store id binding member
    · exact meets.known v (List.mem_append_right _ printed)
  cases st with
  | resting s answered =>
    rcases held with seen | store
    · exact meets.known v (List.mem_append_left _ seen)
    · exact stored store
  | within s answered m =>
    rcases held with seen | worked | waits | store
    · exact meets.known v (List.mem_append_left _ seen)
    · exact (meets.moment m rfl).focus.values v worked
    · obtain ⟨q, pending, value⟩ := List.mem_flatMap.mp waits
      have waiting := (meets.moment m rfl).pending q pending
      cases q with
      | argument site values rest => exact waiting.2.1 v value
      | statements | binding | branches | callee => cases value
    · exact stored store

theorem Meets.handsOn (meets : st.Meets .any) : st.HandsOn where
  named := meets.session.scope?
  closed {f c} held code := ((meets.held held f rfl).closure c code).1
  defined {scope meter name value v t} has run p := by
    have grows := (value.leads_eval scope meter st.session.store).grows
    rw [run] at grows
    have kept : (t.record (.defining name v)).HasScope scope := has.mono (t := t) grows
    exact ⟨_, Tree.eval_define run, Store.lookup_bind_self kept name v⟩
  read bound _ _ := Tree.eval_identifier bound
  passed := Store.lookup_enterBody
  chosen run _ := Tree.eval_if run
  preferred q _ _ := by cases q <;> rfl
  answered code _ _ _ run := by
    rw [Function.call_of_closure code, Action.mapError_of_ok _ run]
  returned strict run bound free _ _ called _ := by
    rw [Tree.eval_call strict run bound free]
    exact Action.leaving_of_ok (Action.mapError_of_ok _ called)
  shared {name old answer s} taken x := by
    simp only [Session.step, Option.bind_eq_bind, Option.bind_eq_some_iff] at taken
    obtain ⟨scope, known, taken⟩ := taken
    cases taken
    have here : (st.session.nameScope name scope).scope? name = some scope :=
      List.lookup_cons_self ..
    simp only [Session.find?, known, here]
    rfl

/-- At every stage of every session two functions, wherever they are found, are equal only if they
were made on the same occasion, and then they are one function; what is made is unequal to all that
were made before; and whatever hands a function on hands on this very function. -/
theorem Reached.function_identity (reached : Reached allowed made st) :
    st.Identifies made ∧ st.HandsOn ∧ ∀ m ∈ st.moment?, ∀ m', Next m m' →
      ∀ f, m'.Holds (.function f) → m.Holds (.function f) ∨ m.made? = some f :=
  ⟨reached.accounted.identifies, reached.meets_any.handsOn, fun _ _ _ next _ => next.holds⟩

/-- One declaration, evaluated twice in one scope, makes two functions of one name. -/
theorem Reached.function_identity_declaredTwice : ∃ made f g s s',
    (Session.start 1).step (.evaluate Session.rootName Session.mainName "(fn f [] true)") =
      some (.value (.function f), s) ∧
    s.step (.evaluate Session.rootName Session.mainName "(fn f [] true)") =
      some (.value (.function g), s') ∧
    Reached (fun _ => True) made (.resting s' [.function f, .function g]) ∧
    (∃! n : Nat, made[n]? = some f) ∧ (∃! n : Nat, made[n]? = some g) ∧ f.name = g.name ∧
    ¬ ∃ n : Nat, made[n]? = some f ∧ made[n]? = some g := by
  let declare : Step := .evaluate Session.rootName Session.mainName "(fn f [] true)"
  have both : (((Session.start 1).step declare).bind fun first =>
      (first.2.step declare).bind fun second =>
        first.1.function?.bind fun f => second.1.function?.bind fun g =>
          if f.name = g.name ∧ (Value.function f).same (.function g) = false then some () else none
        ).isSome = true := by
    decide +kernel
  obtain ⟨⟨⟩, twice⟩ := Option.isSome_iff_exists.mp both
  obtain ⟨⟨first, s⟩, once, rest⟩ := Option.bind_eq_some_iff.mp twice
  obtain ⟨⟨second, s'⟩, again, checked⟩ := Option.bind_eq_some_iff.mp rest
  obtain ⟨f, known, checked⟩ := Option.bind_eq_some_iff.mp checked
  obtain ⟨g, knownLater, checked⟩ := Option.bind_eq_some_iff.mp checked
  obtain rfl := Answer.eq_of_function? known
  obtain rfl := Answer.eq_of_function? knownLater
  obtain ⟨⟨names, unequal⟩, -⟩ := Option.ite_none_right_eq_some.mp checked
  have start : Reached (fun _ => True) _ (.resting (.start 1) []) := .start 1
  have gives (known : List Value) : declare.GivesKnown known :=
    fun _ member => absurd member List.not_mem_nil
  obtain ⟨new, reached⟩ := start.step trivial (gives _) once
  obtain ⟨newer, reached⟩ := reached.step trivial (gives _) again
  obtain ⟨identifies, -, -⟩ := reached.function_identity
  have first : Stage.Holds (.resting s' [.function f, .function g]) (.function f) :=
    .inl List.mem_cons_self
  have second : Stage.Holds (.resting s' [.function f, .function g]) (.function g) :=
    .inl (List.mem_cons_of_mem _ List.mem_cons_self)
  refine ⟨_, f, g, s, s', once, again, reached, identifies.stems first, identifies.stems second,
    names, fun one => ?_⟩
  have same := (identifies.same_iff first second).mpr one
  rw [unequal] at same
  cases same

end Stage

end Lispette
