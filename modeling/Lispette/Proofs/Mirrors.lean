import Lispette.Proofs.Answers
import Lispette.Proofs.Moment

/-!
Two runs that go the same way. What is in the first is found again in the second: frames, functions
and meters under other numbers, trees and failures as related ones. What is made in the one is made
in the other, so the numbers go on in step; nothing tells a number from the one it is found under.
-/

namespace Lispette

open List (Forall₂)

/-- How one run is found again in another. Related trees are of one form and say the same, their
parts are related, and so are the failures of one cause that they can have. -/
structure Mirror where
  frame : Nat → Nat
  function : Nat → Nat
  meter : Nat → Nat
  trees : Tree → Tree → Prop
  failures : EvalError → EvalError → Prop
  frame_injective : Function.Injective frame
  function_injective : Function.Injective function
  meter_injective : Function.Injective meter
  program {body : List Tree} {p : Position} {t : Tree} (h : trees (.program body p) t) :
    ∃ body' p', t = .program body' p' ∧ Forall₂ trees body body'
  number {digits : String} {p : Position} {t : Tree} (h : trees (.number digits p) t) :
    ∃ p', t = .number digits p' ∧ failures ⟨.notANumber digits, p⟩ ⟨.notANumber digits, p'⟩
  string {text : String} {p : Position} {t : Tree} (h : trees (.string text p) t) :
    ∃ p', t = .string text p'
  identifier {name : String} {p : Position} {t : Tree} (h : trees (.identifier name p) t) :
    ∃ p', t = .identifier name p' ∧ failures ⟨.notDefined name, p⟩ ⟨.notDefined name, p'⟩
  define {name : String} {value : Tree} {p : Position} {t : Tree}
    (h : trees (.define name value p) t) :
    ∃ value' p', t = .define name value' p' ∧ trees value value'
  declare {name : String} {parameters : List String} {body : Tree} {p : Position} {t : Tree}
    (h : trees (.function name parameters body p) t) :
    ∃ body' p', t = .function name parameters body' p' ∧ trees body body'
  call {head : String} {arguments : List Tree} {p : Position} {t : Tree}
    (h : trees (.call head arguments p) t) :
    ∃ arguments' p', t = .call head arguments' p' ∧ Forall₂ trees arguments arguments' ∧
      ∀ cause, failures ⟨cause, p⟩ ⟨cause, p'⟩

namespace Mirror

variable (μ : Mirror)

def scope (scope : Scope) : Scope :=
  ⟨μ.frame scope.inner, scope.outer.map μ.frame⟩

theorem chain_scope (scope : Scope) : (μ.scope scope).chain = scope.chain.map μ.frame := rfl

end Mirror

inductive Code.Mirrors (μ : Mirror) : Code → Code → Prop
  | builtin (b : Builtin) : Mirrors μ (.builtin b) (.builtin b)
  | closure {parameters : List String} {body body' : Tree} {scope : Scope} {meter : Nat}
    (bodies : μ.trees body body') :
    Mirrors μ (.closure ⟨parameters, body, scope, meter⟩)
      (.closure ⟨parameters, body', μ.scope scope, μ.meter meter⟩)

inductive Function.Mirrors (μ : Mirror) : Function → Function → Prop
  | mk {id : Nat} {name : String} {code code' : Code} (codes : code.Mirrors μ code') :
    Mirrors μ ⟨id, name, code⟩ ⟨μ.function id, name, code'⟩

inductive Value.Mirrors (μ : Mirror) : Value → Value → Prop
  | plain {v : Value} (plain : v.kind ≠ .function) : Mirrors μ v v
  | function {f g : Function} (functions : f.Mirrors μ g) : Mirrors μ (.function f) (.function g)

namespace Mirror

def bindings (μ : Mirror) (b b' : String × Value) : Prop :=
  b'.1 = b.1 ∧ b.2.Mirrors μ b'.2

abbrev values (μ : Mirror) : List Value → List Value → Prop :=
  Forall₂ (Value.Mirrors μ)

end Mirror

/-- The second store holds the first one, and numbers what it makes in step with it. What was
printed since the two came together is the same. -/
structure Store.Mirrors (μ : Mirror) (before before' : List (List Value)) (s t : Store) : Prop where
  frame (id : Nat) : Forall₂ μ.bindings (s.frame id) (t.frame (μ.frame id))
  nextFrame (n : Nat) : μ.frame (s.frames.size + n) = t.frames.size + n
  nextFunction (n : Nat) : μ.function (s.functionCount + n) = t.functionCount + n
  meter (id : Nat) : t.meter (μ.meter id) = s.meter id
  printed : ∃ new new', s.printed.toList = before ++ new ∧ t.printed.toList = before' ++ new' ∧
    Forall₂ μ.values new new'

structure Site.Mirrors (μ : Mirror) (site site' : Site) : Prop where
  head : site'.head = site.head
  scope : site'.scope = μ.scope site.scope
  meter : site'.meter = μ.meter site.meter
  failures (cause : EvalCause) : μ.failures ⟨cause, site.position⟩ ⟨cause, site'.position⟩

inductive Focus.Mirrors (μ : Mirror) : Focus → Focus → Prop
  | tree {t t' : Tree} {scope : Scope} {meter : Nat} (trees : μ.trees t t') :
    Mirrors μ (.tree t scope meter) (.tree t' (μ.scope scope) (μ.meter meter))
  | arguments {site site' : Site} {vs ws : List Value} {ts us : List Tree}
    (sites : site.Mirrors μ site') (values : μ.values vs ws) (trees : Forall₂ μ.trees ts us) :
    Mirrors μ (.arguments site vs ts) (.arguments site' ws us)
  | body {f g : Function} {vs ws : List Value} (functions : f.Mirrors μ g)
    (values : μ.values vs ws) : Mirrors μ (.body f vs) (.body g ws)
  | value {v w : Value} (values : v.Mirrors μ w) : Mirrors μ (.result (.ok v)) (.result (.ok w))
  | failure {e e' : EvalError} (failures : μ.failures e e') :
    Mirrors μ (.result (.error e)) (.result (.error e'))

inductive Pending.Mirrors (μ : Mirror) : Pending → Pending → Prop
  | statements {ts us : List Tree} {scope : Scope} {meter : Nat} (trees : Forall₂ μ.trees ts us) :
    Mirrors μ (.statements ts scope meter) (.statements us (μ.scope scope) (μ.meter meter))
  | binding {name : String} {scope : Scope} :
    Mirrors μ (.binding name scope) (.binding name (μ.scope scope))
  | branches {yes yes' no no' : Tree} {p p' : Position} {scope : Scope} {meter : Nat}
    (affirmed : μ.trees yes yes') (denied : μ.trees no no')
    (failures : ∀ cause, μ.failures ⟨cause, p⟩ ⟨cause, p'⟩) :
    Mirrors μ (.branches yes no p scope meter)
      (.branches yes' no' p' (μ.scope scope) (μ.meter meter))
  | argument {site site' : Site} {vs ws : List Value} {ts us : List Tree}
    (sites : site.Mirrors μ site') (values : μ.values vs ws) (trees : Forall₂ μ.trees ts us) :
    Mirrors μ (.argument site vs ts) (.argument site' ws us)
  | callee {site site' : Site} (sites : site.Mirrors μ site') :
    Mirrors μ (.callee site) (.callee site')

structure Moment.Mirrors (μ : Mirror) (before before' : List (List Value)) (m m' : Moment) :
    Prop where
  focus : m.focus.Mirrors μ m'.focus
  pending : Forall₂ (Pending.Mirrors μ) m.pending m'.pending
  store : m.store.Mirrors μ before before' m'.store

variable {μ : Mirror} {before before' : List (List Value)}

theorem Value.likeness_mirrors : Value.Likeness (Value.Mirrors μ) where
  plain related plain := by
    cases related with
    | plain => rfl
    | function => exact absurd rfl plain
  function related := by
    cases related with
    | plain plain => exact absurd rfl plain
    | function => exact ⟨_, rfl⟩
  identity related related' := by
    cases related with
    | plain plain => exact absurd rfl plain
    | function functions =>
      cases related' with
      | plain plain => exact absurd rfl plain
      | function functions' =>
        cases functions
        cases functions'
        exact μ.function_injective.eq_iff

/-- Where all keeps its number, every value is found under itself. -/
theorem Value.mirrors_self (frames : ∀ id, μ.frame id = id) (functions : ∀ id, μ.function id = id)
    (meters : ∀ id, μ.meter id = id) (trees : ∀ t, μ.trees t t) (v : Value) : v.Mirrors μ v := by
  cases v with
  | function f =>
    obtain ⟨id, name, code⟩ := f
    have codes : code.Mirrors μ code := by
      cases code with
      | builtin b => exact .builtin b
      | closure c =>
        obtain ⟨parameters, body, ⟨inner, outer⟩, meter⟩ := c
        have chain : outer.map μ.frame = outer :=
          (List.map_congr_left fun id _ => frames id).trans (List.map_id outer)
        have closures : Code.Mirrors μ (.closure ⟨parameters, body, ⟨inner, outer⟩, meter⟩)
          (.closure ⟨parameters, body, μ.scope ⟨inner, outer⟩, μ.meter meter⟩) :=
          .closure (trees body)
        rwa [Mirror.scope, frames, chain, meters] at closures
    have itself : Function.Mirrors μ ⟨id, name, code⟩ ⟨μ.function id, name, code⟩ := .mk codes
    rw [functions] at itself
    exact .function itself
  | nil | bool | number | string => exact .plain (by simp [Value.kind])

theorem Value.Mirrors.exists_function {f : Function} {w : Value}
    (mirrors : (Value.function f).Mirrors μ w) : ∃ g, w = .function g ∧ f.Mirrors μ g := by
  cases mirrors with
  | plain plain => exact absurd rfl plain
  | function functions => exact ⟨_, rfl, functions⟩

/-- What can be seen of a value: its kind and its two texts. -/
def Value.seen (v : Value) : Kind × String × String :=
  (v.kind, v.text, v.shown)

theorem Value.Mirrors.seen {v w : Value} (mirrors : v.Mirrors μ w) : w.seen = v.seen := by
  cases mirrors with
  | plain => rfl
  | function functions =>
    cases functions
    rfl

theorem map_eq_of_forall₂ {α β γ : Type} {R : α → β → Prop} {f : α → γ} {g : β → γ} {as : List α}
    {bs : List β} (related : Forall₂ R as bs) (same : ∀ a b, R a b → g b = f a) :
    bs.map g = as.map f := by
  induction related with
  | nil => rfl
  | cons first _ ih => rw [List.map_cons, List.map_cons, same _ _ first, ih]

theorem Mirror.values_seen {printed printed' : List (List Value)}
    (same : Forall₂ μ.values printed printed') :
    printed'.map (·.map Value.seen) = printed.map (·.map Value.seen) :=
  map_eq_of_forall₂ same fun _ _ values => map_eq_of_forall₂ values fun _ _ => Value.Mirrors.seen

namespace Store

variable {s t : Store} {scope : Scope} {id : Nat} {name : String} {v w : Value}

namespace Mirrors

variable (mirrors : s.Mirrors μ before before' t)
include mirrors

theorem lt_iff : μ.frame id < t.frames.size ↔ id < s.frames.size := by
  constructor
  · intro old
    by_contra new
    have number := mirrors.nextFrame (id - s.frames.size)
    have same : s.frames.size + (id - s.frames.size) = id := by omega
    rw [same] at number
    omega
  · intro old
    by_contra new
    have number := mirrors.nextFrame (μ.frame id - t.frames.size)
    have same : t.frames.size + (μ.frame id - t.frames.size) = μ.frame id := by omega
    rw [same] at number
    have := μ.frame_injective number
    omega

theorem lookup (scope : Scope) (name : String) :
    Option.Rel (Value.Mirrors μ) (s.lookup scope name) (t.lookup (μ.scope scope) name) := by
  have one (frame frame' : Frame) (same : Forall₂ μ.bindings frame frame') :
      Option.Rel (Value.Mirrors μ) (frame.lookup name) (frame'.lookup name) := by
    induction same with
    | nil => exact .none
    | @cons b b' frame frame' first rest ih =>
      obtain ⟨key, v⟩ := b
      obtain ⟨key', w⟩ := b'
      obtain ⟨rfl, bound⟩ : key' = key ∧ v.Mirrors μ w := first
      rw [List.lookup_cons, List.lookup_cons]
      cases name == key' with
      | true => exact .some bound
      | false => exact ih
  unfold Store.lookup
  rw [μ.chain_scope]
  generalize scope.chain = chain
  induction chain with
  | nil => exact .none
  | cons id ids ih =>
    rw [List.map_cons, List.findSome?_cons, List.findSome?_cons]
    have first := one _ _ (mirrors.frame id)
    generalize (s.frame id).lookup name = r, (t.frame (μ.frame id)).lookup name = r' at first
    cases first with
    | none => exact ih
    | some related => exact .some related

theorem lookup_seen (scope : Scope) (name : String) :
    (t.lookup (μ.scope scope) name).map Value.seen = (s.lookup scope name).map Value.seen := by
  have found := mirrors.lookup scope name
  generalize s.lookup scope name = r, t.lookup (μ.scope scope) name = r' at found
  cases found with
  | none => rfl
  | some values => exact congrArg some values.seen

section site

variable {site site' : Site} (sites : site.Mirrors μ site')
include sites

/-- What the head of a call names in the second run. -/
theorem callee : Option.Rel (Value.Mirrors μ) (s.lookup site.scope site.head)
    (t.lookup site'.scope site'.head) := by
  rw [sites.scope, sites.head]
  exact mirrors.lookup site.scope site.head

theorem callee_none (unbound : s.lookup site.scope site.head = none) :
    t.lookup site'.scope site'.head = none := by
  have found := mirrors.callee sites
  rw [unbound] at found
  generalize t.lookup site'.scope site'.head = r at found ⊢
  cases found
  rfl

theorem callee_some (bound : s.lookup site.scope site.head = some v) :
    ∃ w, t.lookup site'.scope site'.head = some w ∧ v.Mirrors μ w := by
  have found := mirrors.callee sites
  rw [bound] at found
  generalize t.lookup site'.scope site'.head = r at found ⊢
  cases found with
  | some values => exact ⟨_, rfl, values⟩

theorem callee_function {f : Function}
    (bound : s.lookup site.scope site.head = some (.function f)) :
    ∃ g, t.lookup site'.scope site'.head = some (.function g) ∧ f.Mirrors μ g := by
  obtain ⟨w, bound', related⟩ := mirrors.callee_some sites bound
  obtain ⟨g, rfl, functions⟩ := related.exists_function
  exact ⟨g, bound', functions⟩

theorem meter_site : t.meter site'.meter = s.meter site.meter := by
  rw [sites.meter]
  exact mirrors.meter site.meter

end site

theorem record (e e' : Entry) : (s.record e).Mirrors μ before before' (t.record e') :=
  ⟨mirrors.frame, mirrors.nextFrame, mirrors.nextFunction, mirrors.meter, mirrors.printed⟩

theorem bind (scope : Scope) (name : String) (bound : v.Mirrors μ w) :
    (s.bind scope name v).Mirrors μ before before' (t.bind (μ.scope scope) name w) where
  frame id := by
    have here : μ.frame scope.inner = μ.frame id ↔ scope.inner = id := μ.frame_injective.eq_iff
    rw [frame_bind, frame_bind]
    simp only [Mirror.scope, here, mirrors.lt_iff]
    split
    · exact .cons ⟨rfl, bound⟩ (mirrors.frame id)
    · exact mirrors.frame id
  nextFrame n := by
    rw [size_bind, size_bind]
    exact mirrors.nextFrame n
  nextFunction := mirrors.nextFunction
  meter := mirrors.meter
  printed := mirrors.printed

theorem newFrame (outer : List Nat) {frame frame' : Frame}
    (bound : Forall₂ μ.bindings frame frame') :
    (t.newFrame (outer.map μ.frame) frame').1 = μ.scope (s.newFrame outer frame).1 ∧
      (s.newFrame outer frame).2.Mirrors μ before before'
        (t.newFrame (outer.map μ.frame) frame').2 := by
  have new : μ.frame s.frames.size = t.frames.size := mirrors.nextFrame 0
  refine ⟨?_, ?_, fun n => ?_, mirrors.nextFunction, mirrors.meter, mirrors.printed⟩
  · exact congrArg (Scope.mk · (outer.map μ.frame)) new.symm
  · intro id
    have here : μ.frame id = t.frames.size ↔ id = s.frames.size := by
      rw [← new]
      exact μ.frame_injective.eq_iff
    rw [frame_newFrame, frame_newFrame]
    simp only [here]
    split
    · exact bound
    · exact mirrors.frame id
  · rw [size_newFrame, size_newFrame, Nat.add_assoc, Nat.add_assoc]
    exact mirrors.nextFrame (1 + n)

theorem newFunction {code code' : Code} (name : String) (codes : code.Mirrors μ code') :
    (s.newFunction name code).1.Mirrors μ (t.newFunction name code').1 ∧
      (s.newFunction name code).2.Mirrors μ before before' (t.newFunction name code').2 := by
  have number : μ.function s.functionCount = t.functionCount := mirrors.nextFunction 0
  refine ⟨?_, mirrors.frame, mirrors.nextFrame, fun n => ?_, mirrors.meter, mirrors.printed⟩
  · show Function.Mirrors μ ⟨s.functionCount, name, code⟩ ⟨t.functionCount, name, code'⟩
    rw [← number]
    exact .mk codes
  · show μ.function (s.functionCount + 1 + n) = t.functionCount + 1 + n
    rw [Nat.add_assoc, Nat.add_assoc]
    exact mirrors.nextFunction (1 + n)

theorem enter {id : Nat} (free : (s.meter id).depth < (s.meter id).limit) :
    (s.enter id).Mirrors μ before before' (t.enter (μ.meter id)) where
  frame := mirrors.frame
  nextFrame := mirrors.nextFrame
  nextFunction := mirrors.nextFunction
  meter j := by
    have here : μ.meter j = μ.meter id ↔ j = id := μ.meter_injective.eq_iff
    have bound : id < s.meters.size := lt_size_of_limit (by omega)
    have bound' : μ.meter id < t.meters.size := lt_size_of_limit (by rw [mirrors.meter]; omega)
    rw [meter_enter bound, meter_enter bound', mirrors.meter]
    simp only [here]
  printed := mirrors.printed

theorem leave (id : Nat) : (s.leave id).Mirrors μ before before' (t.leave (μ.meter id)) where
  frame := mirrors.frame
  nextFrame := mirrors.nextFrame
  nextFunction := mirrors.nextFunction
  meter j := by
    have here : μ.meter j = μ.meter id ↔ j = id := μ.meter_injective.eq_iff
    rw [meter_leave, meter_leave, mirrors.meter]
    simp only [here]
  printed := mirrors.printed

theorem print {vs ws : List Value} (values : μ.values vs ws) :
    (s.print vs).Mirrors μ before before' (t.print ws) where
  frame := mirrors.frame
  nextFrame := mirrors.nextFrame
  nextFunction := mirrors.nextFunction
  meter := mirrors.meter
  printed := by
    obtain ⟨new, new', first, second, same⟩ := mirrors.printed
    refine ⟨new ++ [vs], new' ++ [ws], ?_, ?_, List.rel_append same (.cons values .nil)⟩
    · rw [Store.print, Array.toList_push, first, List.append_assoc]
    · rw [Store.print, Array.toList_push, second, List.append_assoc]

theorem afterBuiltin (b : Builtin) {vs ws : List Value} (values : μ.values vs ws) :
    (s.afterBuiltin b vs).Mirrors μ before before' (t.afterBuiltin b ws) := by
  unfold Store.afterBuiltin
  split
  · exact mirrors.print values
  · exact mirrors

theorem declare (name : String) (parameters : List String) {body body' : Tree} (scope : Scope)
    (meter : Nat) (bodies : μ.trees body body') :
    (s.declare name ⟨parameters, body, scope, meter⟩).1.Mirrors μ
        (t.declare name ⟨parameters, body', μ.scope scope, μ.meter meter⟩).1 ∧
      (s.declare name ⟨parameters, body, scope, meter⟩).2.Mirrors μ before before'
        (t.declare name ⟨parameters, body', μ.scope scope, μ.meter meter⟩).2 := by
  have noted := mirrors.record (.declaring name parameters) (.declaring name parameters)
  have codes : Code.Mirrors μ (.closure ⟨parameters, body, scope, meter⟩)
    (.closure ⟨parameters, body', μ.scope scope, μ.meter meter⟩) := .closure bodies
  obtain ⟨functions, made⟩ := noted.newFunction name codes
  exact ⟨functions, made.bind scope name (.function functions)⟩

theorem enterBody {parameters : List String} {body body' : Tree} {scope : Scope} {meter : Nat}
    {vs ws : List Value} (values : μ.values vs ws) :
    (t.enterBody ⟨parameters, body', μ.scope scope, μ.meter meter⟩ ws).1 =
        μ.scope (s.enterBody ⟨parameters, body, scope, meter⟩ vs).1 ∧
      (s.enterBody ⟨parameters, body, scope, meter⟩ vs).2.Mirrors μ before before'
        (t.enterBody ⟨parameters, body', μ.scope scope, μ.meter meter⟩ ws).2 := by
  have given : Forall₂ μ.bindings (parameters.zip vs) (parameters.zip ws) := by
    induction values generalizing parameters with
    | nil => simp
    | cons first rest ih =>
      cases parameters with
      | nil => exact .nil
      | cons parameter parameters => exact .cons ⟨rfl, first⟩ ih
  exact mirrors.newFrame scope.chain (List.rel_reverse given)

theorem valueAt (scope : Scope) {name : String} {p p' : Position}
    (failures : μ.failures ⟨.notDefined name, p⟩ ⟨.notDefined name, p'⟩) :
    Focus.Mirrors μ (.result (s.valueAt scope name p))
      (.result (t.valueAt (μ.scope scope) name p')) := by
  have found := mirrors.lookup scope name
  unfold Store.valueAt
  generalize s.lookup scope name = r, t.lookup (μ.scope scope) name = r' at found
  cases found with
  | none => exact .failure failures
  | some values => exact .value values

end Mirrors

end Store

end Lispette
