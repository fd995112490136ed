import Lispette.Eval

/-!
Actions from related stores. An action that comes to one result and to related stores from any two
related stores is parallel; the actions that are made of parallel ones are. What an action keeps is
the case in which the two stores are the same.
-/

namespace Lispette

namespace Action

variable {ε δ α β : Type} {R : Store → Store → Prop} {I : Store → Prop}

/-- From related stores the action comes to one result, and to related stores. -/
def Parallel (R : Store → Store → Prop) (x : Action ε α) : Prop :=
  ∀ s t, R s t →
    (∃ a s' t', x s = .ok a s' ∧ x t = .ok a t' ∧ R s' t') ∨
      ∃ e s' t', x s = .error e s' ∧ x t = .error e t' ∧ R s' t'

theorem Parallel.bind {x : Action ε α} {f : α → Action ε β} (first : Parallel R x)
    (second : ∀ a, Parallel R (f a)) : Parallel R (x >>= f) := by
  intro s t related
  rcases first s t related with ⟨a, s', t', runs, runt, related'⟩ |
    ⟨e, s', t', runs, runt, related'⟩
  · rw [bind_of_ok runs, bind_of_ok runt]
    exact second a s' t' related'
  · rw [bind_of_error runs, bind_of_error runt]
    exact .inr ⟨e, s', t', rfl, rfl, related'⟩

theorem Parallel.mapError {x : Action ε α} (parallel : Parallel R x) (f : ε → δ) :
    Parallel R (mapError f x) := by
  intro s t related
  rcases parallel s t related with ⟨a, s', t', runs, runt, related'⟩ |
    ⟨e, s', t', runs, runt, related'⟩
  · exact .inl ⟨a, s', t', mapError_of_ok f runs, mapError_of_ok f runt, related'⟩
  · exact .inr ⟨f e, s', t', mapError_of_error f runs, mapError_of_error f runt, related'⟩

theorem parallel_pure (a : α) : Parallel R (pure a : Action ε α) :=
  fun s t related => .inl ⟨a, s, t, rfl, rfl, related⟩

theorem parallel_ofExcept (r : Except ε α) : Parallel R (ofExcept r) := by
  intro s t related
  cases r with
  | ok a => exact .inl ⟨a, s, t, rfl, rfl, related⟩
  | error e => exact .inr ⟨e, s, t, rfl, rfl, related⟩

theorem parallel_forM {f : α → Action ε Unit} (each : ∀ a, Parallel R (f a)) (as : List α) :
    Parallel R (as.forM f) := by
  induction as with
  | nil => exact parallel_pure ()
  | cons a as ih => exact (each a).bind fun _ => ih

theorem parallel_modifyGet {f : Store → α × Store}
    (related : ∀ s t, R s t → (f t).1 = (f s).1 ∧ R (f s).2 (f t).2) :
    Parallel R (modifyGet f : Action ε α) := by
  intro s t h
  obtain ⟨same, next⟩ := related s t h
  exact .inl ⟨(f s).1, (f s).2, (f t).2, rfl, by rw [← same]; rfl, next⟩

def Keeps (I : Store → Prop) (x : Action ε α) : Prop :=
  ∀ s, I s → I (x.after s)

theorem Parallel.keeps {x : Action ε α} (parallel : Parallel (fun s t => t = s ∧ I s) x) :
    Keeps I x := by
  intro s h
  rcases parallel s s ⟨rfl, h⟩ with ⟨a, s', t', run, -, -, kept⟩ | ⟨e, s', t', run, -, -, kept⟩
  · rwa [after_of_ok run]
  · rwa [after_of_error run]

theorem Keeps.parallel {x : Action ε α} (keeps : Keeps I x) :
    Parallel (fun s t => t = s ∧ I s) x := by
  intro s t related
  obtain ⟨rfl, h⟩ := related
  have kept := keeps t h
  cases run : x t with
  | ok a t' =>
    rw [after_of_ok run] at kept
    exact .inl ⟨a, t', t', rfl, rfl, rfl, kept⟩
  | error e t' =>
    rw [after_of_error run] at kept
    exact .inr ⟨e, t', t', rfl, rfl, rfl, kept⟩

end Action

namespace Store

/-- Two stores stay related when the same is done to both. -/
structure Together (R : Store → Store → Prop) : Prop where
  record (s t : Store) (e : Entry) (h : R s t) : R (s.record e) (t.record e)
  bind (s t : Store) (scope : Scope) (name : String) (v : Value) (h : R s t) :
    R (s.bind scope name v) (t.bind scope name v)
  newFrame (s t : Store) (outer : List Nat) (frame : Frame) (h : R s t) :
    (t.newFrame outer frame).1 = (s.newFrame outer frame).1 ∧
      R (s.newFrame outer frame).2 (t.newFrame outer frame).2
  newFunction (s t : Store) (name : String) (code : Code) (h : R s t) :
    (t.newFunction name code).1 = (s.newFunction name code).1 ∧
      R (s.newFunction name code).2 (t.newFunction name code).2

namespace Together

open Lispette.Action

variable {ε : Type} {R : Store → Store → Prop} (together : Together R)
include together

theorem recording (e : Entry) : Parallel R (Action.record e : Action ε Unit) :=
  parallel_modifyGet fun s t h => ⟨rfl, together.record s t e h⟩

theorem binding (scope : Scope) (name : String) (v : Value) :
    Parallel R (Action.bind scope name v : Action ε Unit) :=
  parallel_modifyGet fun s t h => ⟨rfl, together.bind s t scope name v h⟩

theorem framing (outer : List Nat) (frame : Frame) :
    Parallel R (Action.newFrame outer frame : Action ε Scope) :=
  parallel_modifyGet fun s t h => together.newFrame s t outer frame h

theorem bindBuiltin (scope : Scope) (name : String) (b : Builtin) :
    Parallel R (scope.bindBuiltin name b : Action ε Unit) :=
  (parallel_modifyGet fun s t h => together.newFunction s t name (.builtin b) h).bind fun f =>
    together.binding scope name (.function f)

theorem prelude : Parallel R (Scope.prelude : Action ε Scope) := by
  refine (together.framing [] []).bind fun scope => ?_
  refine (together.recording .installing).bind fun _ => ?_
  refine (parallel_forM (fun _ => together.binding scope _ _) preludeConstants).bind fun _ => ?_
  refine (parallel_forM (fun _ => together.bindBuiltin scope _ _) preludeBuiltins).bind fun _ => ?_
  exact parallel_pure scope

theorem readSource (source : String) : Parallel R (readSource source) := by
  have tokens : Parallel R (readTokens source) :=
    (together.recording _).bind fun _ => (parallel_ofExcept _).bind fun _ =>
      (together.recording _).bind fun _ => parallel_pure _
  have tree (tokens : List Token) : Parallel R (readTree tokens) :=
    (together.recording _).bind fun _ => parallel_ofExcept _
  exact (tokens.mapError _).bind fun _ => (tree _).mapError _

end Together

end Store

end Lispette
