import Lispette.Proofs.Equations
import Lispette.Proofs.Limits
import Lispette.Proofs.SessionStandards

/-!
Parameters without a value. A call with too few arguments binds the parameters that it has values
for, and no other; until the body binds such a name itself, its scope says of the name what the
scope of the declaration says at that time. So reading it is a failure just if that scope does not
bind it either.
-/

namespace Lispette

open Moment

/-- The call leaves the parameter without a value, and its name is that of no other that has one. -/
structure Closure.Lacks (c : Closure) (values : List Value) (name : String) : Prop where
  missing : name ∈ c.parameters.drop values.length
  other : name ∉ c.parameters.take values.length

/-- The name and the frame that are bound at a moment. -/
def Moment.binds? (m : Moment) : Option (String × Nat) :=
  match m.focus, m.pending with
  | .tree (.function name _ _ _) scope _, _ => some (name, scope.inner)
  | .result (.ok _), .binding name scope :: _ => some (name, scope.inner)
  | _, _ => none

/-- A name that is looked up: what for, where, and in which scope. -/
structure Reading where
  name : String
  position : Position
  scope : Scope

/-- The name that is looked up next: for its value, or for a function that is called. -/
def Focus.reads? : Focus → Option Reading
  | .tree (.identifier name p) scope _ => some ⟨name, p, scope⟩
  | .arguments site _ [] => some ⟨site.head, site.position, site.scope⟩
  | _ => none

/-- A name is looked up where it is a tree, or where the arguments of a call are all there. -/
theorem Focus.of_reads? {focus : Focus} {name : String} {p : Position} {scope : Scope}
    (reading : focus.reads? = some ⟨name, p, scope⟩) :
    (∃ meter, focus = .tree (.identifier name p) scope meter) ∨
      ∃ meter values, focus = .arguments ⟨name, p, scope, meter⟩ values [] := by
  cases focus with
  | tree t scope' meter =>
    cases t with
    | identifier name' p' =>
      cases reading
      exact .inl ⟨meter, rfl⟩
    | program | number | string | define | function | call => cases reading
  | arguments site values rest =>
    cases rest with
    | nil =>
      cases reading
      exact .inr ⟨site.meter, values, rfl⟩
    | cons => cases reading
  | body | result => cases reading

/-- The moments lead on without the name being bound in the frame. -/
def Moment.LeadsUnbound (name : String) (id : Nat) : Moment → Moment → Prop :=
  Relation.ReflTransGen fun m m' => Next m m' ∧ m.binds? ≠ some (name, id)

namespace Store

variable {s : Store} {c : Closure} {values : List Value} {name : String} {id : Nat}

/-- A new body binds no parameter that the call has no value for. -/
theorem lookup_frame_enterBody (lacks : c.Lacks values name) :
    ((s.enterBody c values).2.frame s.frames.size).lookup name = none := by
  have frame : (s.enterBody c values).2.frame s.frames.size = (c.parameters.zip values).reverse :=
    (frame_newFrame ..).trans (if_pos rfl)
  rw [frame, List.lookup_eq_none_iff]
  intro binding member
  obtain ⟨i, there⟩ := List.mem_iff_getElem?.mp (List.mem_reverse.mp member)
  obtain ⟨parameter, value⟩ := List.getElem?_zip_eq_some.mp there
  have given : i < values.length := (List.getElem?_eq_some_iff.mp value).1
  have known : binding.1 ∈ c.parameters.take values.length :=
    List.mem_iff_getElem?.mpr ⟨i, by rw [List.getElem?_take, if_pos given, parameter]⟩
  have differ : name ≠ binding.1 := fun same => lacks.other (same ▸ known)
  simpa using differ

theorem lookup_frame_bind {scope : Scope} {bound : String} (v : Value)
    (other : (bound, scope.inner) ≠ (name, id)) :
    ((s.bind scope bound v).frame id).lookup name = (s.frame id).lookup name := by
  rw [frame_bind]
  split
  · next here =>
    have differ : name ≠ bound := fun same => other (by rw [same, here.1])
    rw [List.lookup_cons, beq_eq_false_iff_ne.mpr differ]
  · rfl

theorem lookup_append {scope outer : Scope} {nearer : List Nat}
    (within : scope.chain = nearer ++ outer.chain)
    (clear : ∀ id ∈ nearer, (s.frame id).lookup name = none) :
    s.lookup scope name = s.lookup outer name := by
  rw [lookup, within, List.findSome?_append, List.findSome?_eq_none_iff.mpr clear, Option.none_or]
  rfl

end Store

namespace Moment

variable {m m' : Moment} {name : String} {id : Nat}

/-- A rule that does not bind the name in a frame that there is leaves it unbound there. -/
theorem Next.unbound (next : Next m m') (other : m.binds? ≠ some (name, id))
    (old : id < m.store.frames.size) (unbound : (m.store.frame id).lookup name = none) :
    (m'.store.frame id).lookup name = none := by
  cases next with
  | function bound parameters body p scope meter k s =>
    have differ : (bound, scope.inner) ≠ (name, id) := fun same => other (congrArg some same)
    exact (Store.lookup_frame_bind _ differ).trans unbound
  | bound v bound scope k s =>
    have differ : (bound, scope.inner) ≠ (name, id) := fun same => other (congrArg some same)
    exact (Store.lookup_frame_bind v differ).trans unbound
  | closure f c values k s code =>
    dsimp only
    rw [s.frame_enterBody c values old]
    exact unbound
  | builtin f b values site k s code =>
    dsimp only
    rw [Store.frame, Store.frames_afterBuiltin]
    exact unbound
  | _ => exact unbound

theorem LeadsUnbound.leads (path : LeadsUnbound name id m m') : Leads m m' := by
  induction path with
  | refl => exact .refl
  | tail _ step ih => exact ih.next step.1

/-- A frame that there is stays one, so what has not bound the name in it leaves it unbound. -/
theorem LeadsUnbound.unbound (path : LeadsUnbound name id m m') (old : id < m.store.frames.size)
    (unbound : (m.store.frame id).lookup name = none) :
    (m'.store.frame id).lookup name = none := by
  have kept : id < m'.store.frames.size ∧ (m'.store.frame id).lookup name = none := by
    induction path with
    | refl => exact ⟨old, unbound⟩
    | tail _ step ih =>
      exact ⟨Nat.lt_of_lt_of_le ih.1 step.1.size_le, step.1.unbound step.2 ih.1 ih.2⟩
  exact kept.2

/-- A failure goes through all that waits. -/
theorem leads_failed (e : EvalError) (k : List Pending) (s : Store) :
    ∃ t, Leads ⟨.result (.error e), k, s⟩ (ended (.error e t)) := by
  induction k generalizing s with
  | nil => exact ⟨s, .refl⟩
  | cons q k ih =>
    cases q with
    | callee site =>
      obtain ⟨t, leads⟩ := ih (s.leave site.meter)
      exact ⟨t, (Next.returned ..).leads leads⟩
    | statements | binding | branches | argument =>
      obtain ⟨t, leads⟩ := ih s
      exact ⟨t, (Next.failed _ _ _ _ rfl).leads leads⟩

/-- A name that is looked up and not bound is a failure where it is looked up. -/
theorem next_of_reads {name : String} {p : Position} {scope : Scope}
    (reading : m.focus.reads? = some ⟨name, p, scope⟩)
    (unbound : m.store.lookup scope name = none) :
    Next m ⟨.result (.error ⟨.notDefined name, p⟩), m.pending, m.store⟩ := by
  obtain ⟨focus, k, s⟩ := m
  rcases Focus.of_reads? reading with ⟨meter, rfl⟩ | ⟨meter, values, rfl⟩
  · have next := Next.identifier name p scope meter k s
    have value : s.valueAt scope name p = .error ⟨.notDefined name, p⟩ := by
      rw [Store.valueAt, show s.lookup scope name = none from unbound]
    rwa [value] at next
  · exact .notDefined _ _ _ _ unbound

end Moment

/-- A parameter that a call has no value for, and that the body has not bound itself, is what the
scope of the declaration says when it is read. If nothing there binds the name, the read fails with
it and where it stands, and so does the evaluation that called the function, or the direct call. -/
theorem Closure.Lacks.read_enclosing {f : Function} {c : Closure} {values : List Value}
    {name : String} (lacks : c.Lacks values name) (code : f.code = .closure c) {k : List Pending}
    {s : Store} {m : Moment} (inside : LeadsUnbound name s.frames.size
      ⟨.tree c.body (s.enterBody c values).1 c.meter, k, (s.enterBody c values).2⟩ m)
    {p : Position} {scope : Scope} (reading : m.focus.reads? = some ⟨name, p, scope⟩)
    {nearer : List Nat} (within : scope.chain = nearer ++ (s.enterBody c values).1.chain)
    (clear : ∀ id ∈ nearer, (m.store.frame id).lookup name = none) :
    m.store.lookup scope name = m.store.lookup c.scope name ∧
    (m.store.lookup c.scope name = none →
      Next m ⟨.result (.error ⟨.notDefined name, p⟩), m.pending, m.store⟩ ∧
      (∀ tree outer meter first, Leads (start tree outer meter first) ⟨.body f values, k, s⟩ →
        ∃ t, tree.eval meter outer first = .error ⟨.notDefined name, p⟩ t) ∧
      (k = [] → ∃ t, f.call values s = .error (.inside ⟨.notDefined name, p⟩) t)) ∧
    ∀ v meter, m.store.lookup c.scope name = some v →
      m.focus = .tree (.identifier name p) scope meter →
      Next m ⟨.result (.ok v), m.pending, m.store⟩ := by
  have old : s.frames.size < (s.enterBody c values).2.frames.size := by
    rw [Store.size_enterBody]
    exact Nat.lt_succ_self _
  have unbound := inside.unbound old (Store.lookup_frame_enterBody lacks)
  have outside : m.store.lookup scope name = m.store.lookup c.scope name := by
    -- the frame of the call counts among those that do not bind the name
    have chain : scope.chain = (nearer ++ [s.frames.size]) ++ c.scope.chain := by
      rw [within, List.append_assoc]
      rfl
    refine Store.lookup_append chain fun id member => ?_
    rcases List.mem_append.mp member with near | own
    · exact clear id near
    · rwa [List.mem_singleton.mp own]
  refine ⟨outside, fun nowhere => ?_, fun v meter bound focus => ?_⟩
  · have next := next_of_reads reading (outside.trans nowhere)
    obtain ⟨t, out⟩ := leads_failed ⟨.notDefined name, p⟩ m.pending m.store
    have ends := inside.leads.trans (next.leads out)
    refine ⟨next, fun tree outer meter first called => ⟨t, ?_⟩, fun none => ⟨t, ?_⟩⟩
    · exact Tree.eval_eq_of_leads (called.trans ((Next.closure _ _ _ _ _ code).leads ends))
    · subst none
      rw [Function.call_of_closure code]
      exact Action.mapError_of_error _ (Tree.eval_eq_of_leads ends)
  · obtain ⟨_, k', s'⟩ := m
    cases focus
    exact .identifier_of_bound (outside.trans bound) p meter k'

/-- The name that a tree is, if it is one. -/
def Tree.name? : Tree → Option String
  | .identifier name _ => some name
  | _ => none

theorem Tree.exists_of_name? {t : Tree} {name : String} (known : t.name? = some name) :
    ∃ p, t = .identifier name p := by
  cases t with
  | identifier name p =>
    obtain rfl := Option.some.inj known
    exact ⟨p, rfl⟩
  | _ => cases known

/-- A direct call with one argument of a function that reads its second parameter. -/
theorem Closure.Lacks.read_enclosing_unbound : ∃ f s p t,
    (Session.start 1).step (.evaluate Session.rootName Session.mainName "(fn f [a b] b)") =
      some (.value (.function f), s) ∧
    f.call [.bool true] s.store = .error (.inside ⟨.notDefined "b", p⟩) t := by
  have checked : (((Session.start 1).step
      (.evaluate Session.rootName Session.mainName "(fn f [a b] b)")).bind fun r =>
        r.1.function?.bind fun f => f.code.closure?.bind fun c =>
          if c.parameters = ["a", "b"] ∧ c.body.name? = some "b" ∧
            ((r.2.store.enterBody c [.bool true]).2.lookup c.scope "b").isNone = true
          then some () else none).isSome = true := by
    decide +kernel
  obtain ⟨⟨⟩, checked⟩ := Option.isSome_iff_exists.mp checked
  obtain ⟨⟨answer, s⟩, taken, checked⟩ := Option.bind_eq_some_iff.mp checked
  obtain ⟨f, known, checked⟩ := Option.bind_eq_some_iff.mp checked
  obtain ⟨c, code, checked⟩ := Option.bind_eq_some_iff.mp checked
  obtain ⟨⟨parameters, body, unbound⟩, -⟩ := Option.ite_none_right_eq_some.mp checked
  obtain rfl := Answer.eq_of_function? known
  obtain ⟨p, body⟩ := Tree.exists_of_name? body
  have lacks : c.Lacks [.bool true] "b" := ⟨by simp [parameters], by simp [parameters]⟩
  have within : (s.store.enterBody c [.bool true]).1.chain =
    [] ++ (s.store.enterBody c [.bool true]).1.chain := rfl
  have inside : LeadsUnbound "b" s.store.frames.size
    (start c.body (s.store.enterBody c [.bool true]).1 c.meter
      (s.store.enterBody c [.bool true]).2) _ := .refl
  have reads : (start c.body (s.store.enterBody c [.bool true]).1 c.meter
      (s.store.enterBody c [.bool true]).2).focus.reads? =
        some ⟨"b", p, (s.store.enterBody c [.bool true]).1⟩ := by
    rw [start, body]
    rfl
  obtain ⟨-, failure, -⟩ := lacks.read_enclosing (Code.eq_of_closure? code) inside reads within
    fun _ member => absurd member List.not_mem_nil
  obtain ⟨-, -, called⟩ := failure (Option.isNone_iff_eq_none.mp unbound)
  obtain ⟨t, run⟩ := called rfl
  exact ⟨f, s, p, t, taken, run⟩

/-- A definition that the scope of the declaration holds is read in place of the argument that a
call does not give. -/
theorem Closure.Lacks.read_enclosing_bound : ∃ f c s,
    (Session.start 1).step (.evaluate Session.rootName Session.mainName
      "(def x true)\n(fn f [x] x)") = some (.value (.function f), s) ∧
    f.code = .closure c ∧ c.Lacks [] "x" ∧ (∃ t, f.call [] s.store = .ok (.bool true) t) ∧
    ∃ m p, LeadsUnbound "x" s.store.frames.size
        ⟨.tree c.body (s.store.enterBody c []).1 c.meter, [], (s.store.enterBody c []).2⟩ m ∧
      m.focus.reads? = some ⟨"x", p, (s.store.enterBody c []).1⟩ ∧
      ¬ Next m ⟨.result (.error ⟨.notDefined "x", p⟩), m.pending, m.store⟩ := by
  have checked : (((Session.start 1).step (.evaluate Session.rootName Session.mainName
      "(def x true)\n(fn f [x] x)")).bind fun r =>
        r.1.function?.bind fun f => f.code.closure?.bind fun c =>
          let entered := r.2.store.enterBody c []
          if c.parameters = ["x"] ∧ c.body.name? = some "x" ∧
            (entered.2.lookup entered.1 "x").bind Value.bool? = some true then some () else none
        ).isSome = true := by
    decide +kernel
  obtain ⟨⟨⟩, checked⟩ := Option.isSome_iff_exists.mp checked
  obtain ⟨⟨answer, s⟩, taken, checked⟩ := Option.bind_eq_some_iff.mp checked
  obtain ⟨f, known, checked⟩ := Option.bind_eq_some_iff.mp checked
  obtain ⟨c, code, checked⟩ := Option.bind_eq_some_iff.mp checked
  obtain ⟨⟨parameters, body, bound⟩, -⟩ := Option.ite_none_right_eq_some.mp checked
  obtain rfl := Answer.eq_of_function? known
  obtain ⟨p, body⟩ := Tree.exists_of_name? body
  obtain ⟨v, bound, truth⟩ := Option.bind_eq_some_iff.mp bound
  cases v <;> cases truth
  have code := Code.eq_of_closure? code
  have lacks : c.Lacks [] "x" := ⟨by simp [parameters], by simp [parameters]⟩
  have called : f.call [] s.store = .ok (.bool true) (s.store.enterBody c []).2 := by
    rw [Function.call_of_closure code, body]
    exact Action.mapError_of_ok _ (Tree.eval_identifier bound)
  refine ⟨f, c, s, taken, code, lacks, ⟨_, called⟩,
    start c.body (s.store.enterBody c []).1 c.meter (s.store.enterBody c []).2, p, .refl, ?_,
    fun failure => ?_⟩
  · rw [start, body]
    rfl
  · rw [start, body] at failure
    cases (Next.identifier_of_bound bound p c.meter []).unique failure

end Lispette
