import Lispette.Proofs.Bindings
import Lispette.Proofs.Equations
import Lispette.Proofs.Repetition
import Lispette.Proofs.StageStandards

/-!
The two conditionals. The builtin evaluates both branches and then chooses one of the values, the
form evaluates only the branch that it chooses. If the other branch leaves what there was as it was,
the form comes to what the builtin comes to, up to the numbers of what is made on the way; and both
refuse the same conditions.
-/

namespace Lispette

open List (Forall₂)
open Moment

namespace Store

/-- Nothing was printed, and no frame that there was binds a name to another value. -/
structure Quiet (s t : Store) : Prop where
  printed : t.printed = s.printed
  bindings {id : Nat} (old : id < s.frames.size) (name : String) :
    (t.frame id).lookup name = (s.frame id).lookup name

/-- The second store with the frames of the first as they were, hidden bindings and all. -/
def restored (s t : Store) : Store :=
  { t with
    frames := t.frames.mapIdx fun id frame => if id < s.frames.size then s.frame id else frame }

/-- What two runs that went on from a store came to is the same, up to the numbers of the frames and
functions made since. -/
structure Agree (s : Store) (frames functions : Nat) (t u : Store) : Prop where
  printed : ∃ new new', t.printed.toList = s.printed.toList ++ new ∧
    u.printed.toList = s.printed.toList ++ new' ∧
    Forall₂ (Mirror.later s frames functions).values new new'
  bindings {id : Nat} (there : id < t.frames.size) (name : String) :
    Option.Rel (Value.Mirrors (.later s frames functions)) ((t.frame id).lookup name)
      ((u.frame ((Mirror.later s frames functions).frame id)).lookup name)

variable {s t : Store} {id : Nat}

theorem frame_restored (grown : s.frames.size ≤ t.frames.size) (id : Nat) :
    (s.restored t).frame id = if id < s.frames.size then s.frame id else t.frame id := by
  rw [frame_eq, frame_eq t, restored, Array.getElem?_mapIdx]
  by_cases there : id < t.frames.size
  · simp [there]
  · have new : ¬ id < s.frames.size := by omega
    simp [there, new]

theorem Quiet.alike (quiet : s.Quiet t) (grown : s.frames.size ≤ t.frames.size) :
    t.Alike (s.restored t) where
  size := Array.size_mapIdx
  bindings id name := by
    rw [frame_restored grown]
    split
    · next old => exact (quiet.bindings old name).symm
    · rfl
  meters := rfl
  functionCount := rfl
  printed := rfl

theorem later_restored (grows : s.Grows t) (meters : t.meters = s.meters) :
    s.Later (s.restored t) where
  grows := ⟨Nat.le_trans grows.frames (Nat.le_of_eq Array.size_mapIdx.symm), grows.functionCount⟩
  frame old := (frame_restored grows.frames _).trans (if_pos old)
  meters := meters

theorem Mirrors.lookup_frame {μ : Mirror} {before before' : List (List Value)}
    (mirrors : s.Mirrors μ before before' t) (id : Nat) (name : String) :
    Option.Rel (Value.Mirrors μ) ((s.frame id).lookup name)
      ((t.frame (μ.frame id)).lookup name) := by
  have alone (u : Store) (n : Nat) : u.lookup ⟨n, []⟩ name = (u.frame n).lookup name := by
    simp [Store.lookup, Scope.chain]
  have found := mirrors.lookup ⟨id, []⟩ name
  rwa [Mirror.scope, alone, List.map_nil, alone] at found

end Store

theorem Mirror.frame_later_zero (s : Store) (id : Nat) : (later s 0 0).frame id = id :=
  ite_self id

theorem Value.mirrors_later_zero (s : Store) (v : Value) : v.Mirrors (.later s 0 0) v :=
  v.mirrors_self (Mirror.frame_later_zero s) (fun id => ite_self id) (fun _ => rfl) fun _ => rfl

namespace Store

variable {s t u : Store}

/-- A store agrees with a later one that binds alike what it binds and has printed the same. -/
theorem Agree.of_quiet (quiet : t.Quiet u) (printed : s.printed.toList <+: t.printed.toList) :
    s.Agree 0 0 t u where
  printed := by
    obtain ⟨new, same⟩ := printed
    refine ⟨new, new, same.symm, by rw [quiet.printed, same], ?_⟩
    exact List.forall₂_same.mpr fun values _ =>
      List.forall₂_same.mpr fun v _ => v.mirrors_later_zero s
  bindings {id} there name := by
    rw [Mirror.frame_later_zero, quiet.bindings there]
    cases (t.frame id).lookup name with
    | none => exact .none
    | some v => exact .some (v.mirrors_later_zero s)

theorem Agree.of_mirrors {frames functions : Nat} {before' : List (List Value)} {t' : Store}
    (mirrors : t.Mirrors (.later s frames functions) s.printed.toList before' t')
    (same : before' = s.printed.toList) (printed : u.printed = t'.printed)
    (bindings : ∀ id name, (u.frame id).lookup name = (t'.frame id).lookup name) :
    s.Agree frames functions t u where
  printed := by
    obtain ⟨new, new', first, second, values⟩ := mirrors.printed
    exact ⟨new, new', first, by rw [printed, second, same], values⟩
  bindings {id} _ name := by
    rw [bindings]
    exact mirrors.lookup_frame id name

end Store

namespace Tree

/-- At a call with this head the three arguments come one after the other to a condition and two
values, and then the head names the eager conditional. -/
structure ChoosesEagerly (meter : Nat) (scope : Scope) (head : String) (condition yes no : Tree)
    (s : Store) (c v w : Value) (s₁ s₂ s₃ : Store) : Prop where
  other : head ≠ "if"
  condition : condition.eval meter scope s = .ok c s₁
  yes : yes.eval meter scope s₁ = .ok v s₂
  no : no.eval meter scope s₂ = .ok w s₃
  eager : ∃ f, s₃.lookup scope head = some (.function f) ∧ f.code = .builtin .choose

namespace ChoosesEagerly

variable {meter : Nat} {scope : Scope} {head : String} {condition yes no : Tree}
  {s s₁ s₂ s₃ t : Store} {c v w r : Value} {e : EvalError}
  (parts : ChoosesEagerly meter scope head condition yes no s c v w s₁ s₂ s₃)
include parts

/-- What the call comes to is the answer of the builtin, if the call is not too deep. -/
theorem eval_call (p : Position) (free : (s₃.meter meter).depth < (s₃.meter meter).limit) :
    (call head [condition, yes, no] p).eval meter scope s =
      Action.leaving meter (Action.mapError (CallError.at head p)
        (Action.ofExcept (Builtin.choose.answer [c, v, w])))
        ((s₃.enter meter).record (.calling head 3)) := by
  obtain ⟨f, bound, code⟩ := parts.eager
  have none : evalEach meter scope [] s₃ = .ok [] s₃ := rfl
  have run : evalEach meter scope [condition, yes, no] s = .ok [c, v, w] s₃ :=
    evalEach_cons parts.condition (evalEach_cons parts.yes (evalEach_cons parts.no none))
  have called : f.call [c, v, w] = Action.ofExcept (Builtin.choose.answer [c, v, w]) :=
    funext fun u => (Function.call_of_builtin code _ u).trans (Builtin.apply_eq ..)
  rw [Tree.eval_call (fun lazily => parts.other lazily.1) run bound free, called]
  rfl

theorem eval_call_of_full (p : Position)
    (full : ¬ (s₃.meter meter).depth < (s₃.meter meter).limit) :
    (call head [condition, yes, no] p).eval meter scope s =
      .error ⟨.tooDeep (s₃.meter meter).limit, p⟩ s₃ := by
  obtain ⟨f, bound, -⟩ := parts.eager
  have none : evalEach meter scope [] s₃ = .ok [] s₃ := rfl
  have run : evalEach meter scope [condition, yes, no] s = .ok [c, v, w] s₃ :=
    evalEach_cons parts.condition (evalEach_cons parts.yes (evalEach_cons parts.no none))
  exact Tree.eval_call_of_full (fun lazily => parts.other lazily.1) run bound full

/-- If the call comes to a value, the condition is a truth value and the value is the chosen one. -/
theorem of_eval_ok {p : Position}
    (run : (call head [condition, yes, no] p).eval meter scope s = .ok r t) :
    ∃ q, c = .bool q ∧ r = (bif q then v else w) ∧ t.frames = s₃.frames ∧
      t.printed = s₃.printed := by
  by_cases free : (s₃.meter meter).depth < (s₃.meter meter).limit
  · rw [parts.eval_call p free] at run
    cases c with
    | bool q =>
      cases q <;> cases run
      · exact ⟨false, rfl, rfl, rfl, rfl⟩
      · exact ⟨true, rfl, rfl, rfl, rfl⟩
    | nil | number | string | function => cases run
  · rw [parts.eval_call_of_full p free] at run
    cases run

/-- If the condition is no truth value, the call fails for that reason, or because it is too
deep. -/
theorem of_eval_error {p : Position} (refused : ∀ q, c ≠ .bool q)
    (run : (call head [condition, yes, no] p).eval meter scope s = .error e t) :
    e = ⟨.wrongKind .bool c.kind, p⟩ ∨ e = ⟨.tooDeep (s₃.meter meter).limit, p⟩ := by
  by_cases free : (s₃.meter meter).depth < (s₃.meter meter).limit
  · rw [parts.eval_call p free] at run
    left
    cases c with
    | bool q => exact absurd rfl (refused q)
    | nil | number | string | function =>
      cases run
      rfl
  · rw [parts.eval_call_of_full p free] at run
    cases run
    exact .inr rfl

/-- The stores in which the branches begin are ones of the session. -/
theorem meets (store : s.Meets .any) (has : s.HasScope scope) :
    s₁.Meets .any ∧ s₁.HasScope scope ∧ s₁.Grows s₂ ∧ s₂.meters = s₁.meters := by
  have admitted : Standard.any.admits condition := trivial
  have first := Tree.meets_eval Standard.any_upheld meter admitted store has
  rw [parts.condition] at first
  obtain ⟨grows, store₁, -⟩ := first
  have second := (yes.leads_eval scope meter s₁).grows
  have meters := yes.meters_eval scope meter s₁
  rw [parts.yes] at second
  rw [Action.after_of_ok parts.yes] at meters
  exact ⟨store₁, has.mono grows, second, meters⟩

/-- The form goes on from the condition as the builtin does, without the branch not chosen. -/
theorem eval_if (store : s.Meets .any) (has : s.HasScope scope) {p : Position}
    (run : (call head [condition, yes, no] p).eval meter scope s = .ok r t)
    (quiet : ∀ q, c = .bool q → if q then s₂.Quiet s₃ else s₁.Quiet s₂) :
    ∃ r' u frames functions, (call "if" [condition, yes, no] p).eval meter scope s = .ok r' u ∧
      r'.Mirrors (.later s₁ frames functions) r ∧ s₁.Agree frames functions u t := by
  obtain ⟨q, rfl, rfl, frames, printed⟩ := parts.of_eval_ok run
  rw [Tree.eval_if parts.condition]
  obtain ⟨store₁, has₁, grows, meters⟩ := parts.meets store has
  cases q with
  | true =>
    -- both runs go through the branch chosen alike, and the other one comes behind it
    obtain ⟨unprinted, bindings⟩ : s₂.Quiet s₃ := quiet true rfl
    have after : s₂.Quiet t :=
      ⟨printed.trans unprinted, fun old name => by
        rw [Store.frame, frames]
        exact bindings old name⟩
    have whole := Leads.printed_prefix (yes.leads_eval scope meter s₁)
    rw [parts.yes] at whole
    exact ⟨v, s₂, 0, 0, parts.yes, v.mirrors_later_zero s₁, .of_quiet after whole⟩
  | false =>
    -- the other branch comes first: it may have hidden bindings by equal ones, which no run sees,
    -- and what it made lies between what there was and what the branch chosen makes
    have quiet : s₁.Quiet s₂ := quiet false rfl
    obtain ⟨t', run', alike⟩ := Tree.alike_eval (quiet.alike grows.frames) parts.no
    have mirrors := (Store.later_restored grows meters).mirrors store₁
    have itself : (Store.Later.mirror s₁ (s₁.restored s₂)).trees no no := rfl
    have outcomes := Tree.mirrors_eval itself scope meter mirrors
    have metered : (Store.Later.mirror s₁ (s₁.restored s₂)).meter meter = meter := rfl
    rw [Store.Later.scope_mirror has₁, metered, run'] at outcomes
    generalize alone : no.eval meter scope s₁ = lazily at outcomes
    cases outcomes with
    | @ok r' _ u _ values stores =>
      refine ⟨r', u, _, _, alone, values, .of_mirrors stores (congrArg Array.toList quiet.printed)
        (printed.trans alike.printed.symm) fun id name => ?_⟩
      rw [alike.bindings, Store.frame, frames, Store.frame]

end ChoosesEagerly

end Tree

/-- At every stage and in every scope the two conditionals agree, whatever their parts do: the form
comes to the value that the builtin comes to, prints and binds the same, if the branch not chosen
leaves what there was as it was, and it refuses the conditions that the builtin refuses. -/
theorem Stage.Reached.conditionals_agree {allowed : Step → Prop} {made : List Function} {st : Stage}
    (reached : Reached allowed made st) {meter : Nat} {scope : Scope}
    (has : st.session.store.HasScope scope) {head : String} {condition yes no : Tree}
    {c v w : Value} {s₁ s₂ s₃ : Store}
    (parts : Tree.ChoosesEagerly meter scope head condition yes no st.session.store c v w s₁ s₂ s₃)
    (p : Position) :
    (∀ r t, (Tree.call head [condition, yes, no] p).eval meter scope st.session.store = .ok r t →
      (∀ q, c = .bool q → if q then s₂.Quiet s₃ else s₁.Quiet s₂) →
      ∃ r' u frames functions,
        (Tree.call "if" [condition, yes, no] p).eval meter scope st.session.store = .ok r' u ∧
        r'.Mirrors (.later s₁ frames functions) r ∧ s₁.Agree frames functions u t) ∧
    ∀ e t, (∀ q, c ≠ .bool q) →
      (Tree.call head [condition, yes, no] p).eval meter scope st.session.store = .error e t →
      (∀ limit, e.cause ≠ .tooDeep limit) →
      e = ⟨.wrongKind .bool c.kind, p⟩ ∧
        (Tree.call "if" [condition, yes, no] p).eval meter scope st.session.store =
          .error e s₁ := by
  refine ⟨fun r t run quiet => ?_, fun e t refused run shallow => ?_⟩
  · exact parts.eval_if reached.meets_any.session.store has run quiet
  · rcases parts.of_eval_error refused run with rfl | rfl
    · exact ⟨rfl, Tree.eval_if_of_ne_bool parts.condition refused⟩
    · exact absurd rfl (shallow _)

/-- The branch chosen declares a function, and the builtin goes by another name. -/
theorem Stage.Reached.conditionals_agree_declaring : ∃ answer s,
    (Session.start 1).step (.evaluate Session.rootName Session.mainName "(def when if)") =
      some (answer, s) ∧
    ∃ r t r' u frames functions,
      (Tree.call "when" [.identifier "false" {}, .string "a" {},
        .function "h" [] (.string "b" {}) {}] {}).eval 0 Session.startScope s.store = .ok r t ∧
      (Tree.call "if" [.identifier "false" {}, .string "a" {},
        .function "h" [] (.string "b" {}) {}] {}).eval 0 Session.startScope s.store = .ok r' u ∧
      r'.Mirrors (.later s.store frames functions) r ∧ s.store.Agree frames functions u t := by
  let c : Closure := ⟨[], .string "b" {}, Session.startScope, 0⟩
  let eager : Tree := .call "when"
    [.identifier "false" {}, .string "a" {}, .function "h" [] (.string "b" {}) {}] {}
  have checked : (((Session.start 1).step
      (.evaluate Session.rootName Session.mainName "(def when if)")).bind fun r =>
        if r.2.scope? Session.rootName = some Session.startScope ∧
          (r.2.store.lookup Session.startScope "false").bind Value.bool? = some false ∧
          (((r.2.store.declare "h" c).2.lookup Session.startScope "when").bind Value.function?).bind
            (·.code.builtin?) = some .choose ∧
          (r.2.perform (eager.eval 0 Session.startScope)).1.isOk = true
        then some () else none).isSome = true := by
    decide +kernel
  obtain ⟨⟨⟩, checked⟩ := Option.isSome_iff_exists.mp checked
  obtain ⟨⟨answer, s⟩, taken, checked⟩ := Option.bind_eq_some_iff.mp checked
  obtain ⟨⟨named, bound, found, ends⟩, -⟩ := Option.ite_none_right_eq_some.mp checked
  refine ⟨answer, s, taken, ?_⟩
  have start : Reached (fun _ => True) _ (.resting (.start 1) []) := .start 1
  obtain ⟨new, reached⟩ := start.step trivial (fun _ member => absurd member List.not_mem_nil) taken
  have has : s.store.HasScope Session.startScope := reached.meets_any.session.scope? named
  obtain ⟨b, bound, truth⟩ := Option.bind_eq_some_iff.mp bound
  obtain ⟨r, t, run⟩ : ∃ r t, eager.eval 0 Session.startScope s.store = .ok r t := by
    unfold Session.perform at ends
    cases run : eager.eval 0 Session.startScope s.store with
    | ok r t => exact ⟨r, t, rfl⟩
    | error e t =>
      rw [run] at ends
      cases ends
  have parts : Tree.ChoosesEagerly 0 Session.startScope "when" (.identifier "false" {})
      (.string "a" {}) (.function "h" [] (.string "b" {}) {}) s.store (.bool false) (.string "a")
      (.function (s.store.declare "h" c).1) s.store s.store (s.store.declare "h" c).2 := by
    constructor
    case other => decide
    case condition =>
      cases b <;> cases truth
      exact Tree.eval_identifier bound
    case yes => exact Tree.eval_eq_of_leads (.single (.string ..))
    case no => exact Tree.eval_function ..
    case eager =>
      obtain ⟨f, there, code⟩ := Option.bind_eq_some_iff.mp found
      obtain ⟨v, there, same⟩ := Option.bind_eq_some_iff.mp there
      cases v <;> cases same
      exact ⟨f, there, Code.eq_of_builtin? code⟩
  have quiet : s.store.Quiet s.store := ⟨rfl, fun _ _ => rfl⟩
  obtain ⟨agree, -⟩ := reached.conditionals_agree has parts {}
  obtain ⟨r', u, frames, functions, lazily, values, stores⟩ :=
    agree r t run fun q same => by cases same; exact quiet
  exact ⟨r, t, r', u, frames, functions, run, lazily, values, stores⟩

end Lispette
