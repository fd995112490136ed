import Lispette.Proofs.Answers
import Lispette.Proofs.Frames
import Lispette.Proofs.Reading

/-!
What is asked of trees, and what it comes to. If the parts of an admitted tree are admitted, the
body of a function it declares is approved, and an approved body is admitted, then all that is
evaluated is admitted, wherever it was declared and however it is called; so every failure is one
that an admitted tree may have. All that a value mentions has been made.
-/

namespace Lispette

open Moment

/-- What is asked of the trees at work, of the bodies of closures, and of failures. -/
structure Standard where
  admits : Tree → Prop
  approves : Tree → Prop
  accepts : EvalError → Prop

/-- The causes of a failure at a call with this head. -/
def EvalCause.AtCall (head : String) : EvalCause → Prop
  | .notDefined name | .wrongArity name _ _ => name = head
  | .notCallable _ | .wrongKind _ _ | .tooDeep _ => True
  | .notANumber _ => False

/-- The parts of what is admitted are admitted, and its failures are accepted. -/
structure Standard.Upheld (std : Standard) : Prop where
  approved {t : Tree} (h : std.approves t) : std.admits t
  statement {body : List Tree} {p : Position} {t : Tree} (h : std.admits (.program body p))
    (member : t ∈ body) : std.admits t
  value {name : String} {t : Tree} {p : Position} (h : std.admits (.define name t p)) :
    std.admits t
  declared {name : String} {parameters : List String} {body : Tree} {p : Position}
    (h : std.admits (.function name parameters body p)) : std.approves body
  argument {head : String} {arguments : List Tree} {p : Position} {t : Tree}
    (h : std.admits (.call head arguments p)) (member : t ∈ arguments) : std.admits t
  unread {digits : String} {p : Position} (h : std.admits (.number digits p))
    (none : readNumber? digits = none) : std.accepts ⟨.notANumber digits, p⟩
  unbound {name : String} {p : Position} (h : std.admits (.identifier name p)) :
    std.accepts ⟨.notDefined name, p⟩
  called {head : String} {arguments : List Tree} {p : Position} {cause : EvalCause}
    (h : std.admits (.call head arguments p)) (atCall : cause.AtCall head) :
    std.accepts ⟨cause, p⟩

namespace Store

/-- Every frame of the scope has been made. -/
def HasScope (s : Store) (scope : Scope) : Prop :=
  ∀ id ∈ scope.chain, id < s.frames.size

/-- Something may have been made since, and nothing was unmade. -/
structure Grows (s t : Store) : Prop where
  frames : s.frames.size ≤ t.frames.size
  functionCount : s.functionCount ≤ t.functionCount

variable {s t : Store} {scope : Scope}

theorem Grows.of_eq (frames : t.frames = s.frames)
    (functionCount : t.functionCount = s.functionCount) : Grows s t :=
  ⟨Nat.le_of_eq (by rw [frames]), Nat.le_of_eq functionCount.symm⟩

theorem Grows.trans {u : Store} (first : Grows s t) (second : Grows t u) : Grows s u :=
  ⟨Nat.le_trans first.frames second.frames, Nat.le_trans first.functionCount second.functionCount⟩

theorem Noted.grows (noted : s.Noted t) : Grows s t :=
  .of_eq noted.frames noted.functionCount

theorem HasScope.mono (has : s.HasScope scope) (grows : Grows s t) : t.HasScope scope :=
  fun id member => Nat.lt_of_lt_of_le (has id member) grows.frames

end Store

structure Function.Meets (std : Standard) (s : Store) (f : Function) : Prop where
  made : f.id < s.functionCount
  closure (c : Closure) (code : f.code = .closure c) : s.HasScope c.scope ∧ std.approves c.body

def Value.Meets (std : Standard) (s : Store) (v : Value) : Prop :=
  ∀ f, v = .function f → f.Meets std s

def Store.Meets (std : Standard) (s : Store) : Prop :=
  ∀ id, ∀ binding ∈ s.frame id, binding.2.Meets std s

structure Site.Meets (std : Standard) (s : Store) (site : Site) : Prop where
  scope : s.HasScope site.scope
  accepted (cause : EvalCause) (atCall : cause.AtCall site.head) :
    std.accepts ⟨cause, site.position⟩

def Focus.Meets (std : Standard) (s : Store) : Focus → Prop
  | .tree t scope _ => std.admits t ∧ s.HasScope scope
  | .arguments site values rest =>
    site.Meets std s ∧ (∀ v ∈ values, v.Meets std s) ∧ ∀ t ∈ rest, std.admits t
  | .body f values => f.Meets std s ∧ ∀ v ∈ values, v.Meets std s
  | .result (.ok v) => v.Meets std s
  | .result (.error e) => std.accepts e

def Pending.Meets (std : Standard) (s : Store) : Pending → Prop
  | .statements rest scope _ => s.HasScope scope ∧ ∀ t ∈ rest, std.admits t
  | .binding _ scope => s.HasScope scope
  | .branches yes no p scope _ => s.HasScope scope ∧ std.admits yes ∧ std.admits no ∧
      ∀ kind, std.accepts ⟨.wrongKind .bool kind, p⟩
  | .argument site values rest =>
    site.Meets std s ∧ (∀ v ∈ values, v.Meets std s) ∧ ∀ t ∈ rest, std.admits t
  | .callee site => site.Meets std s

structure Moment.Meets (std : Standard) (m : Moment) : Prop where
  focus : m.focus.Meets std m.store
  pending (q : Pending) (member : q ∈ m.pending) : q.Meets std m.store
  store : m.store.Meets std

variable {std : Standard} {s t : Store}

section mono

variable (grows : Store.Grows s t)
include grows

theorem Function.Meets.mono {f : Function} (meets : f.Meets std s) : f.Meets std t where
  made := Nat.lt_of_lt_of_le meets.made grows.functionCount
  closure c code := ⟨(meets.closure c code).1.mono grows, (meets.closure c code).2⟩

theorem Value.Meets.mono {v : Value} (meets : v.Meets std s) : v.Meets std t :=
  fun f same => (meets f same).mono grows

theorem Site.Meets.mono {site : Site} (meets : site.Meets std s) : site.Meets std t :=
  ⟨meets.scope.mono grows, meets.accepted⟩

theorem Pending.Meets.mono {q : Pending} (meets : q.Meets std s) : q.Meets std t := by
  cases q with
  | statements rest scope meter => exact ⟨meets.1.mono grows, meets.2⟩
  | binding name scope => exact Store.HasScope.mono meets grows
  | branches yes no p scope meter => exact ⟨meets.1.mono grows, meets.2⟩
  | argument site values rest =>
    exact ⟨meets.1.mono grows, fun v member => (meets.2.1 v member).mono grows, meets.2.2⟩
  | callee site => exact Site.Meets.mono grows meets

end mono

section imp

variable {std' : Standard} (easier : ∀ t, std.approves t → std'.approves t)
include easier

theorem Value.Meets.imp {v : Value} (meets : v.Meets std s) : v.Meets std' s := fun f same =>
  ⟨(meets f same).made, fun c code => ((meets f same).closure c code).imp_right (easier _)⟩

theorem Store.Meets.imp (meets : s.Meets std) : s.Meets std' :=
  fun id binding member => (meets id binding member).imp easier

end imp

theorem Value.meets_of_kind {v : Value} (plain : v.kind ≠ .function) : v.Meets std s := by
  intro f same
  subst same
  exact absurd rfl plain

theorem Value.meets_of_known {values : List Value} {v : Value}
    (given : ∀ v ∈ values, v.Meets std s) (known : v ∈ values ∨ v.kind ≠ .function) :
    v.Meets std s :=
  known.elim (given v) meets_of_kind

namespace Store

variable {scope : Scope} {name : String} {v : Value}

theorem Meets.of_eq (meets : s.Meets std) (frames : t.frames = s.frames)
    (functionCount : t.functionCount = s.functionCount) : t.Meets std := by
  intro id binding member
  rw [frame, frames] at member
  exact (meets id binding member).mono (.of_eq frames functionCount)

theorem Meets.of_noted (meets : s.Meets std) (noted : s.Noted t) : t.Meets std :=
  meets.of_eq noted.frames noted.functionCount

theorem Meets.lookup (meets : s.Meets std) (found : s.lookup scope name = some v) :
    v.Meets std s := by
  obtain ⟨id, -, bound⟩ := List.exists_of_findSome?_eq_some found
  obtain ⟨newer, older, split, -⟩ := List.lookup_eq_some_iff.mp bound
  exact meets id (name, v) (by simp [split])

theorem mem_frame_bind {id : Nat} {binding : String × Value}
    (member : binding ∈ (s.bind scope name v).frame id) :
    binding = (name, v) ∨ binding ∈ s.frame id := by
  rw [frame_bind] at member
  split at member
  · exact List.mem_cons.mp member
  · exact .inr member

theorem mem_frame_newFrame {outer : List Nat} {frame : Frame} {id : Nat}
    {binding : String × Value} (member : binding ∈ (s.newFrame outer frame).2.frame id) :
    binding ∈ frame ∨ binding ∈ s.frame id := by
  rw [frame_newFrame] at member
  split at member
  · exact .inl member
  · exact .inr member

theorem grows_bind (s : Store) (scope : Scope) (name : String) (v : Value) :
    Grows s (s.bind scope name v) :=
  ⟨Nat.le_of_eq (size_bind ..).symm, Nat.le_refl _⟩

theorem Meets.bind (meets : s.Meets std) (bound : v.Meets std s) :
    (s.bind scope name v).Meets std := by
  intro id binding member
  rcases mem_frame_bind member with rfl | old
  · exact bound.mono (grows_bind ..)
  · exact (meets id binding old).mono (grows_bind ..)

theorem grows_newFrame (s : Store) (outer : List Nat) (frame : Frame) :
    Grows s (s.newFrame outer frame).2 :=
  ⟨by rw [size_newFrame]; exact Nat.le_succ _, Nat.le_refl _⟩

theorem Meets.newFrame (meets : s.Meets std) {frame : Frame} (outer : List Nat)
    (bound : ∀ binding ∈ frame, binding.2.Meets std s) : (s.newFrame outer frame).2.Meets std := by
  intro id binding member
  rcases mem_frame_newFrame member with new | old
  · exact (bound binding new).mono (grows_newFrame ..)
  · exact (meets id binding old).mono (grows_newFrame ..)

theorem hasScope_newFrame {outer : List Nat} {frame : Frame}
    (has : ∀ id ∈ outer, id < s.frames.size) :
    (s.newFrame outer frame).2.HasScope (s.newFrame outer frame).1 := by
  intro id member
  rw [size_newFrame]
  rcases List.mem_cons.mp member with rfl | older
  · exact Nat.lt_succ_self _
  · exact Nat.lt_succ_of_lt (has id older)

theorem lookup_bind_self (has : s.HasScope scope) (name : String) (v : Value) :
    (s.bind scope name v).lookup scope name = some v := by
  have here : (s.bind scope name v).frame scope.inner = (name, v) :: s.frame scope.inner :=
    (frame_bind ..).trans (if_pos ⟨rfl, has _ List.mem_cons_self⟩)
  rw [lookup, Scope.chain, List.findSome?_cons, here, List.lookup_cons_self]

/-- A declaration binds the function that it makes. -/
theorem lookup_declare {c : Closure} (has : s.HasScope c.scope) (name : String) :
    (s.declare name c).2.lookup c.scope name = some (.function (s.declare name c).1) := by
  have recorded : ((s.record (.declaring name c.parameters)).newFunction name
      (.closure c)).2.HasScope c.scope := has
  exact lookup_bind_self recorded name _

/-- In a body the arguments come first, then what the scope of the declaration binds. -/
theorem lookup_enterBody {c : Closure} (has : s.HasScope c.scope) (values : List Value)
    (name : String) : (s.enterBody c values).2.lookup (s.enterBody c values).1 name =
      ((c.parameters.zip values).reverse.lookup name).or (s.lookup c.scope name) := by
  have here : (s.enterBody c values).2.frame s.frames.size = (c.parameters.zip values).reverse :=
    (frame_newFrame ..).trans (if_pos rfl)
  have outside : (s.enterBody c values).2.lookup c.scope name = s.lookup c.scope name :=
    lookup_congr (fun id member => s.frame_enterBody c values (has id member)) name
  unfold lookup at outside ⊢
  show List.findSome? _ (s.frames.size :: c.scope.chain) = _
  rw [List.findSome?_cons, here, outside]
  cases (c.parameters.zip values).reverse.lookup name <;> rfl

theorem grows_newFunction (s : Store) (name : String) (code : Code) :
    Grows s (s.newFunction name code).2 :=
  ⟨Nat.le_refl _, Nat.le_succ _⟩

theorem meets_newFunction {code : Code} (name : String)
    (closure : ∀ c, code = .closure c → s.HasScope c.scope ∧ std.approves c.body) :
    (s.newFunction name code).1.Meets std (s.newFunction name code).2 where
  made := Nat.lt_succ_self _
  closure c same := ⟨((closure c same).1).mono (grows_newFunction ..), (closure c same).2⟩

theorem Meets.newFunction (meets : s.Meets std) (name : String) (code : Code) :
    (s.newFunction name code).2.Meets std :=
  fun id binding member => (meets id binding member).mono (grows_newFunction ..)

theorem Meets.record (meets : s.Meets std) (e : Entry) : (s.record e).Meets std :=
  meets.of_eq rfl rfl

theorem Meets.declare (meets : s.Meets std) {c : Closure} (name : String)
    (has : s.HasScope c.scope) (approved : std.approves c.body) :
    (Value.function (s.declare name c).1).Meets std (s.declare name c).2 ∧
      (s.declare name c).2.Meets std := by
  have noted := meets.record (.declaring name c.parameters)
  have made : (Value.function (s.declare name c).1).Meets std
      ((s.record (.declaring name c.parameters)).newFunction name (.closure c)).2 := by
    intro f same
    cases same
    refine meets_newFunction name fun c' same => ?_
    cases same
    exact ⟨has, approved⟩
  exact ⟨made.mono (grows_bind ..), (noted.newFunction name (.closure c)).bind made⟩

theorem Meets.enterBody (meets : s.Meets std) {c : Closure} {values : List Value}
    (has : s.HasScope c.scope) (given : ∀ v ∈ values, v.Meets std s) :
    (s.enterBody c values).2.Meets std ∧
      (s.enterBody c values).2.HasScope (s.enterBody c values).1 := by
  refine ⟨meets.newFrame _ fun binding member => ?_, hasScope_newFrame has⟩
  exact given _ (List.of_mem_zip (List.mem_reverse.mp member)).2

theorem Meets.afterBuiltin (meets : s.Meets std) (b : Builtin) (values : List Value) :
    (s.afterBuiltin b values).Meets std := by
  unfold Store.afterBuiltin
  split
  · exact meets.of_eq rfl rfl
  · exact meets

theorem Meets.valueAt (meets : s.Meets std) (scope : Scope) {name : String} {p : Position}
    (accepted : std.accepts ⟨.notDefined name, p⟩) :
    (Focus.result (s.valueAt scope name p)).Meets std s := by
  unfold Store.valueAt
  cases found : s.lookup scope name with
  | some v => exact meets.lookup found
  | none => exact accepted

end Store

/-- Two values are the same one. -/
theorem Value.likeness_eq : Value.Likeness Eq where
  plain related _ := related.symm
  function related := ⟨_, related.symm⟩
  identity related related' := by
    cases related
    cases related'
    exact Iff.rfl

namespace Builtin

/-- A builtin answers one of its arguments, or no function; and it never fails inside a body. -/
theorem answer_cases (b : Builtin) (values : List Value) :
    (∃ v, b.answer values = .ok v ∧ (v ∈ values ∨ v.kind ≠ .function)) ∨
      ∃ e, b.answer values = .error e ∧ ∀ inner, e ≠ .inside inner := by
  have same : List.Forall₂ Eq values values := List.forall₂_same.mpr fun _ _ => rfl
  have agree := agree_answer Value.likeness_eq b same
  cases answer : b.answer values with
  | ok v =>
    rw [answer] at agree
    cases agree with
    | ok related => exact .inl ⟨v, rfl, related.imp And.left And.left⟩
  | error e =>
    rw [answer] at agree
    cases agree with
    | error outside => exact .inr ⟨e, rfl, outside⟩

end Builtin

/-- A failure without a place is placed at the call. -/
theorem Site.Meets.at {site : Site} (meets : site.Meets std s) {e : CallError}
    (outside : ∀ inner, e ≠ .inside inner) :
    std.accepts (CallError.at site.head site.position e) := by
  cases e with
  | wrongKind expected found => exact meets.accepted _ trivial
  | wrongArity expected found => exact meets.accepted (.wrongArity site.head expected found) rfl
  | inside e => exact absurd rfl (outside e)

namespace Moment

variable {m m' : Moment}

theorem Next.grows (next : Next m m') : Store.Grows m.store m'.store := by
  refine ⟨next.size_le, ?_⟩
  cases next with
  | function name parameters body p scope meter k s => exact Nat.le_succ _
  | builtin f b values site k s code =>
    dsimp only
    unfold Store.afterBuiltin
    split <;> exact Nat.le_refl _
  | _ => exact Nat.le_refl _

theorem Next.meets (upheld : std.Upheld) (next : Next m m') (meets : m.Meets std) :
    m'.Meets std := by
  obtain ⟨focus, pending, store⟩ := meets
  have grows := next.grows
  have kept : ∀ q ∈ m.pending, q.Meets std m'.store := fun q member =>
    (pending q member).mono grows
  cases next with
  | program body p scope meter k s =>
    exact ⟨Value.meets_of_kind (by simp [Value.kind]),
      List.forall_mem_cons.mpr ⟨⟨focus.2, fun t => upheld.statement focus.1⟩, kept⟩, store.record _⟩
  | number digits p scope meter k s =>
    refine ⟨?_, kept, store⟩
    dsimp only
    unfold numberAt
    cases read : readNumber? digits with
    | some x => exact Value.meets_of_kind (by simp [Value.kind])
    | none => exact upheld.unread focus.1 read
  | string text p scope meter k s =>
    exact ⟨Value.meets_of_kind (by simp [Value.kind]), kept, store⟩
  | identifier name p scope meter k s =>
    exact ⟨store.valueAt scope (upheld.unbound focus.1), kept, store⟩
  | define name value p scope meter k s =>
    exact ⟨⟨upheld.value focus.1, focus.2⟩, List.forall_mem_cons.mpr ⟨focus.2, kept⟩, store⟩
  | function name parameters body p scope meter k s =>
    obtain ⟨made, store⟩ := store.declare name (c := ⟨parameters, body, scope, meter⟩) focus.2
      (upheld.declared focus.1)
    exact ⟨made, kept, store⟩
  | condition condition yes no p scope meter k s =>
    obtain ⟨admitted, has⟩ := focus
    refine ⟨⟨upheld.argument admitted (by simp), has⟩, List.forall_mem_cons.mpr ⟨?_, kept⟩, store⟩
    exact ⟨has, upheld.argument admitted (by simp), upheld.argument admitted (by simp),
      fun kind => upheld.called admitted trivial⟩
  | call head arguments p scope meter k s strict =>
    obtain ⟨admitted, has⟩ := focus
    have site : Site.Meets std s ⟨head, p, scope, meter⟩ :=
      ⟨has, fun cause atCall => upheld.called admitted atCall⟩
    exact ⟨⟨site, by simp, fun t => upheld.argument admitted⟩, kept, store⟩
  | argument site values t rest k s =>
    obtain ⟨site, given, admitted⟩ := focus
    obtain ⟨first, rest⟩ := List.forall_mem_cons.mp admitted
    exact ⟨⟨first, site.scope⟩, List.forall_mem_cons.mpr ⟨⟨site, given, rest⟩, kept⟩, store⟩
  | notDefined site values k s unbound => exact ⟨focus.1.accepted _ rfl, kept, store⟩
  | notCallable site values k s v bound other => exact ⟨focus.1.accepted _ trivial, kept, store⟩
  | tooDeep site values k s f bound full => exact ⟨focus.1.accepted _ trivial, kept, store⟩
  | entered site values k s f bound free =>
    obtain ⟨site', given, -⟩ := focus
    exact ⟨⟨(store.lookup bound f rfl).mono grows, fun v member => (given v member).mono grows⟩,
      List.forall_mem_cons.mpr ⟨site'.mono grows, kept⟩, store.of_eq rfl rfl⟩
  | builtin f b values site k s code =>
    have site' : site.Meets std s := pending (.callee site) List.mem_cons_self
    refine ⟨?_, kept, store.afterBuiltin b values⟩
    dsimp only
    rcases b.answer_cases values with ⟨v, answer, known⟩ | ⟨e, answer, outside⟩
    · rw [answer]
      exact Value.Meets.mono grows (Value.meets_of_known focus.2 known)
    · rw [answer]
      exact site'.at outside
  | closure f c values k s code =>
    obtain ⟨has, approved⟩ := focus.1.closure c code
    obtain ⟨store, inside⟩ := store.enterBody has focus.2
    exact ⟨⟨upheld.approved approved, inside⟩, kept, store⟩
  | nextStatement v t rest scope meter k s =>
    obtain ⟨⟨has, admitted⟩, kept⟩ := List.forall_mem_cons.mp kept
    obtain ⟨first, rest⟩ := List.forall_mem_cons.mp admitted
    exact ⟨⟨first, has⟩, List.forall_mem_cons.mpr ⟨⟨has, rest⟩, kept⟩, store⟩
  | lastStatement v scope meter k s => exact ⟨focus, (List.forall_mem_cons.mp kept).2, store⟩
  | bound v name scope k s =>
    have noted : Store.Grows s (s.record (.defining name v)) := .of_eq rfl rfl
    exact ⟨Value.meets_of_kind (by simp [Value.kind]), (List.forall_mem_cons.mp kept).2,
      (store.record _).bind (Value.Meets.mono noted focus)⟩
  | chosen b yes no p scope meter k s =>
    obtain ⟨⟨has, affirmed, denied, -⟩, kept⟩ := List.forall_mem_cons.mp kept
    refine ⟨⟨?_, has⟩, kept, store⟩
    cases b with
    | true => exact affirmed
    | false => exact denied
  | unchosen v yes no p scope meter k s other =>
    obtain ⟨⟨-, -, -, accepted⟩, kept⟩ := List.forall_mem_cons.mp kept
    exact ⟨accepted v.kind, kept, store⟩
  | argumentDone v site values rest k s =>
    obtain ⟨⟨site, given, admitted⟩, kept⟩ := List.forall_mem_cons.mp kept
    refine ⟨⟨site, ?_, admitted⟩, kept, store⟩
    exact List.forall_mem_append.mpr ⟨given, List.forall_mem_singleton.mpr focus⟩
  | returned r site k s =>
    refine ⟨?_, (List.forall_mem_cons.mp kept).2, store.of_eq rfl rfl⟩
    cases r with
    | ok v => exact focus.mono grows
    | error e => exact focus
  | failed e q k s ordinary => exact ⟨focus, (List.forall_mem_cons.mp kept).2, store⟩

theorem Leads.meets (upheld : std.Upheld) (leads : Leads m m') (meets : m.Meets std) :
    m'.Meets std :=
  leads.preserves (fun _ _ next before => next.meets upheld before) meets

theorem Leads.grows (leads : Leads m m') : Store.Grows m.store m'.store :=
  leads.preserves (P := fun m' => Store.Grows m.store m'.store)
    (fun _ _ next before => before.trans next.grows) (.of_eq rfl rfl)

end Moment

namespace Standard

variable {ε δ : Type}

/-- An outcome from the given store: all in it meets the standard, and a failure is accepted. -/
def Ends (std : Standard) (accepts : ε → Prop) (s : Store) : EStateM.Result ε Store Value → Prop
  | .ok v t => Store.Grows s t ∧ t.Meets std ∧ v.Meets std t
  | .error e t => Store.Grows s t ∧ t.Meets std ∧ accepts e

variable {accepts : ε → Prop} {accepts' : δ → Prop} {x : Action ε Value}

theorem Ends.mapError (ends : std.Ends accepts s (x t)) (f : ε → δ)
    (accepted : ∀ e, accepts e → accepts' (f e)) :
    std.Ends accepts' s (Action.mapError f x t) := by
  cases run : x t with
  | ok v t' =>
    rw [run] at ends
    rw [Action.mapError_of_ok f run]
    exact ends
  | error e t' =>
    rw [run] at ends
    rw [Action.mapError_of_error f run]
    exact ⟨ends.1, ends.2.1, accepted e ends.2.2⟩

theorem Ends.of_grows (ends : std.Ends accepts t (x t)) (grows : Store.Grows s t) :
    std.Ends accepts s (x t) := by
  cases run : x t with
  | ok v t' =>
    rw [run] at ends
    exact ⟨grows.trans ends.1, ends.2⟩
  | error e t' =>
    rw [run] at ends
    exact ⟨grows.trans ends.1, ends.2⟩

theorem Ends.store (ends : std.Ends accepts s (x t)) :
    Store.Grows s (x.after t) ∧ (x.after t).Meets std := by
  cases run : x t with
  | ok v t' =>
    rw [run] at ends
    rw [Action.after_of_ok run]
    exact ⟨ends.1, ends.2.1⟩
  | error e t' =>
    rw [run] at ends
    rw [Action.after_of_error run]
    exact ⟨ends.1, ends.2.1⟩

end Standard

/-- An admitted tree, evaluated where all meets the standard, comes to a value that meets it or to
an accepted failure. -/
theorem Tree.meets_eval (upheld : std.Upheld) {tree : Tree} {scope : Scope} (meter : Nat)
    (admitted : std.admits tree) (store : s.Meets std) (has : s.HasScope scope) :
    std.Ends std.accepts s (tree.eval meter scope s) := by
  have leads := tree.leads_eval scope meter s
  have begins : (start tree scope meter s).Meets std := ⟨⟨admitted, has⟩, by simp [start], store⟩
  have ends := leads.meets upheld begins
  have grows := leads.grows
  cases run : tree.eval meter scope s with
  | ok v t =>
    rw [run] at ends grows
    exact ⟨grows, ends.store, ends.focus⟩
  | error e t =>
    rw [run] at ends grows
    exact ⟨grows, ends.store, ends.focus⟩

/-- The failures inside a body are accepted; the others have no place yet. -/
def Standard.acceptsCall (std : Standard) (e : CallError) : Prop :=
  ∀ inner, e = .inside inner → std.accepts inner

/-- The failures of evaluating are accepted; the others are found before. -/
def Standard.acceptsFailure (std : Standard) (e : Failure) : Prop :=
  ∀ inner, e = .eval inner → std.accepts inner

theorem Function.meets_call (upheld : std.Upheld) {f : Function} {values : List Value}
    (meets : f.Meets std s) (given : ∀ v ∈ values, v.Meets std s) (store : s.Meets std) :
    std.Ends std.acceptsCall s (f.call values s) := by
  cases code : f.code with
  | builtin b =>
    have same : Store.Grows s (s.afterBuiltin b values) := by
      refine .of_eq (s.frames_afterBuiltin values b) ?_
      unfold Store.afterBuiltin
      split <;> rfl
    have kept := store.afterBuiltin b values
    rw [call_of_builtin code, Builtin.apply_eq]
    rcases b.answer_cases values with ⟨v, answer, known⟩ | ⟨e, answer, outside⟩
    · rw [answer]
      exact ⟨same, kept, Value.Meets.mono same (Value.meets_of_known given known)⟩
    · rw [answer]
      exact ⟨same, kept, fun inner inside => absurd inside (outside inner)⟩
  | closure c =>
    obtain ⟨has, approved⟩ := meets.closure c code
    obtain ⟨inside, within⟩ := store.enterBody has given
    have grows : Store.Grows s (s.enterBody c values).2 := s.grows_newFrame c.scope.chain _
    rw [call_of_closure code]
    refine (Tree.meets_eval upheld c.meter (upheld.approved approved) inside within).mapError _
      (fun e accepted inner same => ?_) |>.of_grows grows
    cases same
    exact accepted

theorem meets_evaluate (upheld : std.Upheld) {source : String} {scope : Scope} (meter : Nat)
    (admitted : ∀ t, Tree.ofSource source = .ok t → std.admits t) (store : s.Meets std)
    (has : s.HasScope scope) :
    std.Ends std.acceptsFailure s (evaluate meter scope source s) := by
  cases said : Tree.ofSource source with
  | ok tree =>
    obtain ⟨s', noted, run⟩ := evaluate_of_tree said meter scope s
    rw [run]
    refine (Tree.meets_eval upheld meter (admitted tree said)
      (store.of_noted noted) (has.mono noted.grows)).mapError _
      (fun e accepted inner same => ?_) |>.of_grows noted.grows
    cases same
    exact accepted
  | error e =>
    obtain ⟨s', noted, run⟩ := evaluate_of_failure said meter scope s
    rw [run]
    refine ⟨noted.grows, store.of_noted noted, fun inner same => ?_⟩
    rcases Tree.ofSource_eq_error said with ⟨e', rfl, -⟩ | ⟨tokens, e', rfl, -⟩ <;> cases same

end Lispette
