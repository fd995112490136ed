import Lispette.Proofs.Course

/-!
Stores that bind alike. A frame that binds a name twice tells nothing from one that has the newer
binding alone; so an evaluation goes the same way in two stores that differ in hidden bindings.
-/

namespace Lispette

open Moment

namespace Store

/-- Each frame binds the same names to the same values in both stores, and the rest is the same but
for the journal. -/
structure Alike (s t : Store) : Prop where
  size : t.frames.size = s.frames.size
  bindings (id : Nat) (name : String) : (t.frame id).lookup name = (s.frame id).lookup name
  meters : t.meters = s.meters
  functionCount : t.functionCount = s.functionCount
  printed : t.printed = s.printed

namespace Alike

variable {s t : Store} (alike : s.Alike t)
include alike

theorem lookup (scope : Scope) (name : String) : t.lookup scope name = s.lookup scope name := by
  simp only [Store.lookup, alike.bindings]

theorem meter (id : Nat) : t.meter id = s.meter id := by
  rw [Store.meter, Store.meter, alike.meters]

theorem record (e : Entry) : (s.record e).Alike (t.record e) :=
  ⟨alike.size, alike.bindings, alike.meters, alike.functionCount, alike.printed⟩

theorem enter (id : Nat) : (s.enter id).Alike (t.enter id) :=
  ⟨alike.size, alike.bindings, congrArg (·.modify id Meter.enter) alike.meters,
    alike.functionCount, alike.printed⟩

theorem leave (id : Nat) : (s.leave id).Alike (t.leave id) :=
  ⟨alike.size, alike.bindings, congrArg (·.modify id Meter.leave) alike.meters,
    alike.functionCount, alike.printed⟩

theorem bind (scope : Scope) (name : String) (v : Value) :
    (s.bind scope name v).Alike (t.bind scope name v) where
  size := by rw [size_bind, size_bind, alike.size]
  bindings id x := by
    rw [frame_bind, frame_bind, alike.size]
    split
    · rw [List.lookup_cons, List.lookup_cons, alike.bindings]
    · exact alike.bindings id x
  meters := alike.meters
  functionCount := alike.functionCount
  printed := alike.printed

theorem newFrame (outer : List Nat) (frame : Frame) :
    (t.newFrame outer frame).1 = (s.newFrame outer frame).1 ∧
      (s.newFrame outer frame).2.Alike (t.newFrame outer frame).2 := by
  refine ⟨congrArg (Scope.mk · outer) alike.size, ?_, fun id x => ?_, alike.meters,
    alike.functionCount, alike.printed⟩
  · rw [size_newFrame, size_newFrame, alike.size]
  · rw [frame_newFrame, frame_newFrame, alike.size]
    split
    · rfl
    · exact alike.bindings id x

theorem newFunction (name : String) (code : Code) :
    (t.newFunction name code).1 = (s.newFunction name code).1 ∧
      (s.newFunction name code).2.Alike (t.newFunction name code).2 :=
  ⟨congrArg (Function.mk · name code) alike.functionCount, alike.size, alike.bindings,
    alike.meters, congrArg (· + 1) alike.functionCount, alike.printed⟩

theorem declare (name : String) (c : Closure) : (t.declare name c).1 = (s.declare name c).1 ∧
    (s.declare name c).2.Alike (t.declare name c).2 := by
  obtain ⟨same, made⟩ := (alike.record (.declaring name c.parameters)).newFunction name (.closure c)
  unfold Store.declare
  dsimp only
  rw [same]
  exact ⟨rfl, made.bind c.scope name _⟩

theorem afterBuiltin (b : Builtin) (values : List Value) :
    (s.afterBuiltin b values).Alike (t.afterBuiltin b values) := by
  unfold Store.afterBuiltin
  split
  · exact ⟨alike.size, alike.bindings, alike.meters, alike.functionCount,
      congrArg (·.push values) alike.printed⟩
  · exact alike

theorem valueAt (scope : Scope) (name : String) (p : Position) :
    t.valueAt scope name p = s.valueAt scope name p := by
  rw [Store.valueAt, Store.valueAt, alike.lookup]

end Alike

end Store

/-- Two moments at which the same is worked on and waits, in stores that bind alike. -/
structure Moment.Alike (m n : Moment) : Prop where
  focus : n.focus = m.focus
  pending : n.pending = m.pending
  store : m.store.Alike n.store

namespace Moment

variable {m m' n : Moment}

/-- Every rule reads bindings by their names alone. -/
theorem Next.alike (next : Next m m') (alike : m.Alike n) : ∃ n', Next n n' ∧ m'.Alike n' := by
  obtain ⟨focus, pending, t⟩ := n
  obtain ⟨rfl, rfl, store⟩ := alike
  cases next with
  | program body p scope meter k s => exact ⟨_, .program .., rfl, rfl, store.record _⟩
  | number digits p scope meter k s => exact ⟨_, .number .., rfl, rfl, store⟩
  | string text p scope meter k s => exact ⟨_, .string .., rfl, rfl, store⟩
  | identifier name p scope meter k s =>
    exact ⟨_, .identifier .., congrArg Focus.result (store.valueAt scope name p), rfl, store⟩
  | define name value p scope meter k s => exact ⟨_, .define .., rfl, rfl, store⟩
  | function name parameters body p scope meter k s =>
    obtain ⟨same, made⟩ := store.declare name ⟨parameters, body, scope, meter⟩
    exact ⟨_, .function .., congrArg (Focus.result <| .ok <| .function ·) same, rfl, made⟩
  | condition condition yes no p scope meter k s => exact ⟨_, .condition .., rfl, rfl, store⟩
  | call head arguments p scope meter k s strict =>
    exact ⟨_, .call _ _ _ _ _ _ _ strict, rfl, rfl, store⟩
  | argument site values t rest k s => exact ⟨_, .argument .., rfl, rfl, store⟩
  | notDefined site values k s unbound =>
    exact ⟨_, .notDefined _ _ _ _ ((store.lookup ..).trans unbound), rfl, rfl, store⟩
  | notCallable site values k s v bound other =>
    exact ⟨_, .notCallable _ _ _ _ _ ((store.lookup ..).trans bound) other, rfl, rfl, store⟩
  | tooDeep site values k s f bound full =>
    rw [← store.meter] at full ⊢
    exact ⟨_, .tooDeep _ _ _ _ _ ((store.lookup ..).trans bound) full, rfl, rfl, store⟩
  | entered site values k s f bound free =>
    rw [← store.meter] at free
    exact ⟨_, .entered _ _ _ _ _ ((store.lookup ..).trans bound) free, rfl, rfl,
      (store.enter site.meter).record _⟩
  | builtin f b values site k s code =>
    exact ⟨_, .builtin _ _ _ _ _ _ code, rfl, rfl, store.afterBuiltin b values⟩
  | closure f c values k s code =>
    obtain ⟨same, made⟩ := store.newFrame c.scope.chain (c.parameters.zip values).reverse
    exact ⟨_, .closure _ _ _ _ _ code, congrArg (Focus.tree c.body · c.meter) same, rfl, made⟩
  | nextStatement v t rest scope meter k s => exact ⟨_, .nextStatement .., rfl, rfl, store⟩
  | lastStatement v scope meter k s => exact ⟨_, .lastStatement .., rfl, rfl, store⟩
  | bound v name scope k s =>
    exact ⟨_, .bound .., rfl, rfl, (store.record (.defining name v)).bind scope name v⟩
  | chosen b yes no p scope meter k s => exact ⟨_, .chosen .., rfl, rfl, store⟩
  | unchosen v yes no p scope meter k s other =>
    exact ⟨_, .unchosen _ _ _ _ _ _ _ _ other, rfl, rfl, store⟩
  | argumentDone v site values rest k s => exact ⟨_, .argumentDone .., rfl, rfl, store⟩
  | returned r site k s => exact ⟨_, .returned .., rfl, rfl, store.leave site.meter⟩
  | failed e q k s ordinary => exact ⟨_, .failed _ _ _ _ ordinary, rfl, rfl, store⟩

theorem Leads.alike (leads : Leads m m') (alike : m.Alike n) : ∃ n', Leads n n' ∧ m'.Alike n' := by
  induction leads with
  | refl => exact ⟨n, .refl, alike⟩
  | tail _ next ih =>
    obtain ⟨n', reached, alike⟩ := ih
    obtain ⟨n'', next, alike⟩ := next.alike alike
    exact ⟨n'', reached.next next, alike⟩

end Moment

/-- In two stores that bind alike a tree has one value, and leaves stores that bind alike. -/
theorem Tree.alike_eval {tree : Tree} {scope : Scope} {meter : Nat} {s t s' : Store} {v : Value}
    (alike : s.Alike t) (run : tree.eval meter scope s = .ok v s') :
    ∃ t', tree.eval meter scope t = .ok v t' ∧ s'.Alike t' := by
  have leads := tree.leads_eval scope meter s
  rw [run] at leads
  have begins : (start tree scope meter s).Alike (start tree scope meter t) := ⟨rfl, rfl, alike⟩
  obtain ⟨⟨focus, pending, t'⟩, reached, ends⟩ := leads.alike begins
  obtain ⟨rfl, rfl, store⟩ := ends
  have whole : Leads (start tree scope meter t) (ended (.ok v t')) := reached
  exact ⟨t', (tree.leads_eval scope meter t).ended_unique whole, store⟩

end Lispette
