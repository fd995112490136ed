import Lispette.Proofs.Reachable

/-!
Raising a limit. Two stores that differ in the limits of their meters alone go through the same
moments until a call is refused under the smaller limit. What was printed by then is printed under
the larger limit too, and a run that no limit stops is the same under both.
-/

namespace Lispette

open Moment

/-- A call was refused because its meter was full. -/
def EvalError.IsOverflow (e : EvalError) : Prop :=
  ∃ limit, e.cause = .tooDeep limit

namespace Store

/-- The second store differs in its meters alone: they stand where the first one's stand, and have
at least their limits. -/
structure Roomier (s t : Store) : Prop where
  frames : t.frames = s.frames
  functionCount : t.functionCount = s.functionCount
  printed : t.printed = s.printed
  depth (id : Nat) : (t.meter id).depth = (s.meter id).depth
  limit (id : Nat) : (s.meter id).limit ≤ (t.meter id).limit

variable {s t : Store} {id : Nat}

theorem Roomier.free (roomier : Roomier s t)
    (free : (s.meter id).depth < (s.meter id).limit) :
    (t.meter id).depth < (t.meter id).limit := by
  have depth := roomier.depth id
  have limit := roomier.limit id
  omega

theorem Roomier.enter (roomier : Roomier s t)
    (free : (s.meter id).depth < (s.meter id).limit) : Roomier (s.enter id) (t.enter id) where
  frames := roomier.frames
  functionCount := roomier.functionCount
  printed := roomier.printed
  depth j := by
    have bound : id < s.meters.size := lt_size_of_limit (by omega)
    have bound' : id < t.meters.size := lt_size_of_limit (Nat.zero_lt_of_lt (roomier.free free))
    rw [meter_enter bound, meter_enter bound']
    split
    · exact congrArg (· + 1) (roomier.depth j)
    · exact roomier.depth j
  limit j := by
    have bound : id < s.meters.size := lt_size_of_limit (by omega)
    have bound' : id < t.meters.size := lt_size_of_limit (Nat.zero_lt_of_lt (roomier.free free))
    rw [meter_enter bound, meter_enter bound']
    split <;> exact roomier.limit j

theorem Roomier.leave (roomier : Roomier s t) (id : Nat) : Roomier (s.leave id) (t.leave id) where
  frames := roomier.frames
  functionCount := roomier.functionCount
  printed := roomier.printed
  depth j := by
    rw [meter_leave, meter_leave]
    split
    · exact congrArg (· - 1) (roomier.depth j)
    · exact roomier.depth j
  limit j := by
    rw [meter_leave, meter_leave]
    split <;> exact roomier.limit j

theorem Roomier.afterBuiltin (roomier : Roomier s t) (b : Builtin) (values : List Value) :
    Roomier (s.afterBuiltin b values) (t.afterBuiltin b values) := by
  unfold Store.afterBuiltin
  split
  · exact ⟨roomier.frames, roomier.functionCount, congrArg (·.push values) roomier.printed,
      roomier.depth, roomier.limit⟩
  · exact roomier

end Store

namespace Moment

open Store

variable {m m' : Moment} {t : Store}

theorem Next.roomier (next : Next m m') (roomier : Roomier m.store t) :
    (∃ t', Next ⟨m.focus, m.pending, t⟩ ⟨m'.focus, m'.pending, t'⟩ ∧ Roomier m'.store t') ∨
      ∃ e, e.IsOverflow ∧ m'.focus = .result (.error e) ∧ m'.store = m.store := by
  obtain ⟨frames, meters, functionCount, printed, journal⟩ := t
  obtain ⟨rfl, rfl, rfl, depth, limit⟩ := id roomier
  cases next with
  | tooDeep site values k s f bound full => exact .inr ⟨_, ⟨_, rfl⟩, rfl, rfl⟩
  | entered site values k s f bound free =>
    refine .inl ⟨_, .entered site values k _ f bound (roomier.free free), ?_⟩
    obtain ⟨frames, functionCount, printed, depth, limit⟩ := roomier.enter free
    exact ⟨frames, functionCount, printed, depth, limit⟩
  | returned r site k s => exact .inl ⟨_, .returned .., roomier.leave site.meter⟩
  | program body p scope meter k s => exact .inl ⟨_, .program .., rfl, rfl, rfl, depth, limit⟩
  | number digits p scope meter k s => exact .inl ⟨_, .number .., rfl, rfl, rfl, depth, limit⟩
  | string text p scope meter k s => exact .inl ⟨_, .string .., rfl, rfl, rfl, depth, limit⟩
  | identifier name p scope meter k s => exact .inl ⟨_, .identifier .., rfl, rfl, rfl, depth, limit⟩
  | define name value p scope meter k s => exact .inl ⟨_, .define .., rfl, rfl, rfl, depth, limit⟩
  | function name parameters body p scope meter k s =>
    exact .inl ⟨_, .function .., rfl, rfl, rfl, depth, limit⟩
  | condition condition yes no p scope meter k s =>
    exact .inl ⟨_, .condition .., rfl, rfl, rfl, depth, limit⟩
  | call head arguments p scope meter k s strict =>
    exact .inl ⟨_, .call _ _ _ _ _ _ _ strict, rfl, rfl, rfl, depth, limit⟩
  | argument site values t rest k s => exact .inl ⟨_, .argument .., rfl, rfl, rfl, depth, limit⟩
  | notDefined site values k s unbound =>
    exact .inl ⟨_, .notDefined _ _ _ _ unbound, rfl, rfl, rfl, depth, limit⟩
  | notCallable site values k s v bound other =>
    exact .inl ⟨_, .notCallable _ _ _ _ v bound other, rfl, rfl, rfl, depth, limit⟩
  | builtin f b values site k s code =>
    exact .inl ⟨_, .builtin _ _ _ _ _ _ code, roomier.afterBuiltin b values⟩
  | closure f c values k s code =>
    exact .inl ⟨_, .closure _ _ _ _ _ code, rfl, rfl, rfl, depth, limit⟩
  | nextStatement v t rest scope meter k s =>
    exact .inl ⟨_, .nextStatement .., rfl, rfl, rfl, depth, limit⟩
  | lastStatement v scope meter k s =>
    exact .inl ⟨_, .lastStatement .., rfl, rfl, rfl, depth, limit⟩
  | bound v name scope k s => exact .inl ⟨_, .bound .., rfl, rfl, rfl, depth, limit⟩
  | chosen b yes no p scope meter k s => exact .inl ⟨_, .chosen .., rfl, rfl, rfl, depth, limit⟩
  | unchosen v yes no p scope meter k s other =>
    exact .inl ⟨_, .unchosen _ _ _ _ _ _ _ _ other, rfl, rfl, rfl, depth, limit⟩
  | argumentDone v site values rest k s =>
    exact .inl ⟨_, .argumentDone .., rfl, rfl, rfl, depth, limit⟩
  | failed e q k s ordinary => exact .inl ⟨_, .failed _ _ _ _ ordinary, rfl, rfl, rfl, depth, limit⟩

theorem Next.printed_prefix (next : Next m m') :
    m.store.printed.toList <+: m'.store.printed.toList := by
  cases next with
  | builtin f b values site k s code =>
    unfold Store.afterBuiltin
    split
    · exact ⟨[values], by simp [Store.print]⟩
    · exact List.prefix_rfl
  | _ => exact List.prefix_rfl

theorem Leads.printed_prefix (leads : Leads m m') :
    m.store.printed.toList <+: m'.store.printed.toList := by
  induction leads with
  | refl => exact List.prefix_rfl
  | tail _ next ih => exact ih.trans next.printed_prefix

/-- A failure prints nothing more on its way out. -/
theorem Leads.failed {e : EvalError} {r : EStateM.Result EvalError Store Value}
    (leads : Leads m (ended r)) (failing : m.focus = .result (.error e)) :
    ∃ s, r = .error e s ∧ s.printed = m.store.printed := by
  have kept : (ended r).focus = .result (.error e) ∧
      (ended r).store.printed = m.store.printed := by
    refine leads.preserves
      (P := fun m' => m'.focus = .result (.error e) ∧ m'.store.printed = m.store.printed)
      (fun m₁ m₂ next before => ?_) ⟨failing, rfl⟩
    obtain ⟨focus, printed⟩ := before
    cases next with
    | returned | failed => exact ⟨focus, printed⟩
    | _ => cases focus
  cases r with
  | ok v s => cases kept.1
  | error e' s =>
    obtain ⟨focus, printed⟩ := kept
    cases focus
    exact ⟨s, rfl, printed⟩

/-- The outcomes of two runs, the first under the smaller limits. -/
inductive Outlasts : EStateM.Result EvalError Store Value →
    EStateM.Result EvalError Store Value → Prop
  | ok {s t : Store} (v : Value) (roomier : Roomier s t) : Outlasts (.ok v s) (.ok v t)
  | error {s t : Store} (e : EvalError) (roomier : Roomier s t) :
    Outlasts (.error e s) (.error e t)
  | overflow {s : Store} {e : EvalError} {r : EStateM.Result EvalError Store Value}
    (overflow : e.IsOverflow)
    (printed : s.printed.toList <+: (ended r).store.printed.toList) : Outlasts (.error e s) r

theorem Leads.outlasts {r r' : EStateM.Result EvalError Store Value} (leads : Leads m (ended r))
    (roomier : Roomier m.store t) (leads' : Leads ⟨m.focus, m.pending, t⟩ (ended r')) :
    Outlasts r r' := by
  induction leads using Relation.ReflTransGen.head_induction_on generalizing t with
  | refl =>
    cases r with
    | ok v s =>
      obtain rfl := Leads.ended_unique (r := .ok v t) .refl leads'
      exact .ok v roomier
    | error e s =>
      obtain rfl := Leads.ended_unique (r := .error e t) .refl leads'
      exact .error e roomier
  | head next rest ih =>
    rcases next.roomier roomier with ⟨t', next', roomier'⟩ | ⟨e, overflow, failing, same⟩
    · exact ih roomier' (Leads.rest (.single next') leads')
    · obtain ⟨s, rfl, printed⟩ := Leads.failed rest failing
      refine .overflow overflow ?_
      rw [printed, same, ← roomier.printed]
      exact leads'.printed_prefix

end Moment

theorem Tree.outlasts_eval (t : Tree) (scope : Scope) (meter : Nat) {s s' : Store}
    (roomier : Store.Roomier s s') :
    Outlasts (t.eval meter scope s) (t.eval meter scope s') :=
  (t.leads_eval scope meter s).outlasts roomier (t.leads_eval scope meter s')

namespace Store

theorem together_roomier : Together Roomier where
  record _ _ _ h := ⟨h.frames, h.functionCount, h.printed, h.depth, h.limit⟩
  bind _ _ scope name v h :=
    ⟨congrArg (·.modify scope.inner ((name, v) :: ·)) h.frames, h.functionCount, h.printed, h.depth,
      h.limit⟩
  newFrame s t outer frame h := by
    refine ⟨?_, congrArg (·.push frame) h.frames, h.functionCount, h.printed, h.depth, h.limit⟩
    rw [newFrame, newFrame, h.frames]
  newFunction s t name code h := by
    refine ⟨?_, h.frames, congrArg (· + 1) h.functionCount, h.printed, h.depth, h.limit⟩
    rw [newFunction, newFunction, h.functionCount]

theorem roomier_newMeter {n m : Nat} (le : n ≤ m) :
    Roomier (newMeter {} n).2 (newMeter {} m).2 where
  frames := rfl
  functionCount := rfl
  printed := rfl
  depth id := by cases id <;> rfl
  limit id := by
    cases id with
    | zero => exact le
    | succ id => exact Nat.le_refl _

end Store

theorem outlasts_evaluate (source : String) (scope : Scope) (meter : Nat) {s t : Store}
    (roomier : Store.Roomier s t) :
    (∃ v s' t', evaluate meter scope source s = .ok v s' ∧
      evaluate meter scope source t = .ok v t' ∧ Store.Roomier s' t') ∨
    (∃ e s' t', evaluate meter scope source s = .error e s' ∧
      evaluate meter scope source t = .error e t' ∧ Store.Roomier s' t') ∨
    ∃ e s', e.IsOverflow ∧ evaluate meter scope source s = .error (.eval e) s' ∧
      s'.printed.toList <+: ((evaluate meter scope source).after t).printed.toList := by
  rcases Store.together_roomier.readSource source s t roomier with
    ⟨tree, s', t', runs, runt, roomier'⟩ | ⟨e, s', t', runs, runt, roomier'⟩
  · have evals : evaluate meter scope source s = Action.mapError .eval (tree.eval meter scope) s' :=
      Action.bind_of_ok runs
    have evalt : evaluate meter scope source t = Action.mapError .eval (tree.eval meter scope) t' :=
      Action.bind_of_ok runt
    have outlasts := tree.outlasts_eval scope meter roomier'
    rw [evals, evalt, Action.after_congr evalt, Action.after_mapError, ← store_ended]
    generalize first : tree.eval meter scope s' = r, second : tree.eval meter scope t' = r'
      at outlasts
    cases outlasts with
    | ok v roomier =>
      exact .inl ⟨v, _, _, Action.mapError_of_ok _ first, Action.mapError_of_ok _ second, roomier⟩
    | error e roomier =>
      exact .inr (.inl ⟨.eval e, _, _, Action.mapError_of_error _ first,
        Action.mapError_of_error _ second, roomier⟩)
    | overflow overflow printed =>
      exact .inr (.inr ⟨_, _, overflow, Action.mapError_of_error _ first, printed⟩)
  · exact .inr (.inl ⟨e, s', t', Action.bind_of_error runs, Action.bind_of_error runt, roomier'⟩)

def Answer.IsOverflow (a : Answer) : Prop :=
  ∃ e, e.IsOverflow ∧ a = .failure (.eval e)

namespace Session

/-- A session with one scope and one interpreter. -/
def single (s : Store) (scope : Scope) : Session :=
  ⟨s, [(rootName, scope)], [(mainName, 0)]⟩

theorem start_of_prelude {n : Nat} {scope : Scope} {s : Store}
    (run : (Scope.prelude : Action Empty Scope) (Store.newMeter {} n).2 = .ok scope s) :
    start n = single s scope := by
  unfold start startWith
  dsimp only
  rw [Action.sure_of_ok run]
  rfl

theorem exists_start {n m : Nat} (le : n ≤ m) : ∃ scope s t,
    start n = single s scope ∧
      start m = single t scope ∧ Store.Roomier s t := by
  rcases Store.together_roomier.prelude _ _ (Store.roomier_newMeter le) with
    ⟨scope, s, t, runs, runt, roomier⟩ | ⟨e, -⟩
  · exact ⟨scope, s, t, start_of_prelude runs, start_of_prelude runt, roomier⟩
  · exact e.elim

theorem find?_of_roomier {scope : Scope} {s t : Store} (roomier : Store.Roomier s t)
    (name : String) :
    (single t scope).find? rootName name = (single s scope).find? rootName name := by
  have same (id : Nat) : t.frame id = s.frame id := by
    rw [Store.frame, Store.frame, roomier.frames]
  exact Store.lookup_congr (fun id _ => same id) name

theorem step_single (s : Store) (scope : Scope) (source : String) :
    (single s scope).step (.evaluate rootName mainName source) =
      some (match evaluate 0 scope source s with
        | .ok v s' => (.value v, single s' scope)
        | .error e s' => (.failure e, single s' scope)) := by
  show some (reply ((single s scope).perform (evaluate 0 scope source)).1,
    ((single s scope).perform (evaluate 0 scope source)).2) = _
  unfold perform single
  cases evaluate 0 scope source s <;> rfl

/-- A program that no limit stops has one answer under every larger limit: the same value or the
same failure at the same place, the same calls of `print` in order, and the same bindings. Of a
program that is stopped, what was printed until then is printed first under every larger limit. -/
theorem evaluate_raised {n m : Nat} (le : n ≤ m) (source : String) :
    ∃ a b s t, (start n).step (.evaluate rootName mainName source) = some (a, s) ∧
      (start m).step (.evaluate rootName mainName source) = some (b, t) ∧
      (¬ a.IsOverflow → b = a ∧ t.store.printed = s.store.printed ∧
        ∀ name, t.find? rootName name = s.find? rootName name) ∧
      (a.IsOverflow → s.store.printed.toList <+: t.store.printed.toList) := by
  obtain ⟨scope, s, t, starts, startt, roomier⟩ := exists_start le
  rw [starts, startt, step_single, step_single]
  rcases outlasts_evaluate source scope 0 roomier with
    ⟨v, s', t', runs, runt, roomier'⟩ | ⟨e, s', t', runs, runt, roomier'⟩ |
    ⟨e, s', overflow, runs, printed⟩
  · rw [runs, runt]
    refine ⟨_, _, _, _, rfl, rfl, fun _ => ⟨rfl, roomier'.printed, ?_⟩, fun _ => ?_⟩
    · exact find?_of_roomier roomier'
    · exact roomier'.printed ▸ List.prefix_rfl
  · rw [runs, runt]
    refine ⟨_, _, _, _, rfl, rfl, fun _ => ⟨rfl, roomier'.printed, ?_⟩, fun _ => ?_⟩
    · exact find?_of_roomier roomier'
    · exact roomier'.printed ▸ List.prefix_rfl
  · rw [runs]
    cases runt : evaluate 0 scope source t with
    | ok v t' =>
      rw [Action.after_of_ok runt] at printed
      exact ⟨_, _, _, _, rfl, rfl, fun small => (small ⟨e, overflow, rfl⟩).elim, fun _ => printed⟩
    | error e' t' =>
      rw [Action.after_of_error runt] at printed
      exact ⟨_, _, _, _, rfl, rfl, fun small => (small ⟨e, overflow, rfl⟩).elim, fun _ => printed⟩

theorem evaluate_raised_zero_one : 0 ≤ 1 ∧
    ∃ a b s t, (start 0).step (.evaluate rootName mainName "(print nil)") = some (a, s) ∧
      (start 1).step (.evaluate rootName mainName "(print nil)") = some (b, t) ∧
      (¬ a.IsOverflow → b = a ∧ t.store.printed = s.store.printed ∧
        ∀ name, t.find? rootName name = s.find? rootName name) ∧
      (a.IsOverflow → s.store.printed.toList <+: t.store.printed.toList) :=
  ⟨Nat.zero_le 1, evaluate_raised (Nat.zero_le 1) "(print nil)"⟩

end Session

end Lispette
