import Lispette.Proofs.Mirroring

/-!
Runs of one tree that stands in different places. They go the same way; a failure in the tree moves
with it, and one in a function that was there before stays where it is.
-/

namespace Lispette

open List (Forall₂)
open Moment

variable {moves : (Position → Position) → (Position → Position) → Prop}

/-- One tree, moved in two ways. -/
def Tree.Moved (moves : (Position → Position) → (Position → Position) → Prop) (t u : Tree) : Prop :=
  ∃ f g r, moves f g ∧ t = relocate f r ∧ u = relocate g r

theorem Tree.forall₂_moved {f g : Position → Position} (moved : moves f g) (ts : List Tree) :
    Forall₂ (Moved moves) (relocateAll f ts) (relocateAll g ts) := by
  induction ts with
  | nil => exact .nil
  | cons t ts ih => exact .cons ⟨f, g, t, moved, rfl, rfl⟩ ih

/-- Nothing has another number, but trees and failures are moved in two ways. -/
def Mirror.moved (moves : (Position → Position) → (Position → Position) → Prop) : Mirror where
  frame := id
  function := id
  meter := id
  trees := Tree.Moved moves
  failures e e' := ∃ f g cause p, moves f g ∧ e = ⟨cause, f p⟩ ∧ e' = ⟨cause, g p⟩
  frame_injective := Function.injective_id
  function_injective := Function.injective_id
  meter_injective := Function.injective_id
  program h := by
    obtain ⟨f, g, r, moved, same, rfl⟩ := h
    cases r <;> cases same
    exact ⟨_, _, rfl, Tree.forall₂_moved moved _⟩
  number h := by
    obtain ⟨f, g, r, moved, same, rfl⟩ := h
    cases r <;> cases same
    exact ⟨_, rfl, f, g, _, _, moved, rfl, rfl⟩
  string h := by
    obtain ⟨f, g, r, moved, same, rfl⟩ := h
    cases r <;> cases same
    exact ⟨_, rfl⟩
  identifier h := by
    obtain ⟨f, g, r, moved, same, rfl⟩ := h
    cases r <;> cases same
    exact ⟨_, rfl, f, g, _, _, moved, rfl, rfl⟩
  define h := by
    obtain ⟨f, g, r, moved, same, rfl⟩ := h
    cases r <;> cases same
    exact ⟨_, _, rfl, f, g, _, moved, rfl, rfl⟩
  declare h := by
    obtain ⟨f, g, r, moved, same, rfl⟩ := h
    cases r <;> cases same
    exact ⟨_, _, rfl, f, g, _, moved, rfl, rfl⟩
  call h := by
    obtain ⟨f, g, r, moved, same, rfl⟩ := h
    cases r <;> cases same
    exact ⟨_, _, rfl, Tree.forall₂_moved moved _, fun cause => ⟨f, g, cause, _, moved, rfl, rfl⟩⟩

theorem Mirror.scope_moved (scope : Scope) : (moved moves).scope scope = scope :=
  congrArg (Scope.mk scope.inner) (List.map_id scope.outer)

section still

variable (still : moves id id)
include still

theorem Tree.moved_self (t : Tree) : t.Moved moves t :=
  ⟨id, id, t, still, t.relocate_id.symm, t.relocate_id.symm⟩

theorem Value.moved_self (v : Value) : v.Mirrors (.moved moves) v :=
  v.mirrors_self (fun _ => rfl) (fun _ => rfl) (fun _ => rfl) fun t => t.moved_self still

theorem Store.moved_self (s : Store) : s.Mirrors (.moved moves) [] [] s where
  frame _ := List.forall₂_same.mpr fun binding _ => ⟨rfl, binding.2.moved_self still⟩
  nextFrame _ := rfl
  nextFunction _ := rfl
  meter _ := rfl
  printed := ⟨_, _, rfl, rfl,
    List.forall₂_same.mpr fun _ _ => List.forall₂_same.mpr fun v _ => v.moved_self still⟩

/-- A store is found again in one that differs in its journal alone. -/
theorem Store.Noted.moved {s t : Store} (noted : s.Noted t) :
    s.Mirrors (.moved moves) [] [] t :=
  (s.moved_self still).of_noted (.refl s) noted

end still

namespace Store.Mirrors

variable {s t : Store} {before before' : List (List Value)} {α : Type}

section

variable (mirrors : s.Mirrors (.moved moves) before before' t)
include mirrors

theorem size_moved : t.frames.size = s.frames.size :=
  (mirrors.nextFrame 0).symm

/-- What looks the same in each frame looks the same in all. -/
theorem frames_moved (look : Frame → α) (same : ∀ frame frame',
      Forall₂ (Mirror.moved moves).bindings frame frame' → look frame' = look frame) :
    t.frames.map look = s.frames.map look := by
  refine Array.ext_getElem? fun id => ?_
  have here := same _ _ (mirrors.frame id)
  have number : (Mirror.moved moves).frame id = id := rfl
  rw [number, frame_eq, frame_eq] at here
  rw [Array.getElem?_map, Array.getElem?_map]
  by_cases old : id < s.frames.size
  · have old' : id < t.frames.size := by rwa [mirrors.size_moved]
    rw [Array.getElem?_eq_getElem old, Array.getElem?_eq_getElem old'] at here ⊢
    exact congrArg some here
  · have new : ¬ id < t.frames.size := by rwa [mirrors.size_moved]
    rw [Array.getElem?_eq_none (Nat.le_of_not_lt old),
      Array.getElem?_eq_none (Nat.le_of_not_lt new)]

end

theorem printed_moved (mirrors : s.Mirrors (.moved moves) [] [] t) (look : List Value → α)
    (same : ∀ vs ws, (Mirror.moved moves).values vs ws → look ws = look vs) :
    t.printed.map look = s.printed.map look := by
  obtain ⟨new, new', first, second, related⟩ := mirrors.printed
  rw [← Array.toList_inj, Array.toList_map, Array.toList_map, first, second]
  exact map_eq_of_forall₂ related same

end Store.Mirrors

/-- Nothing is moved. -/
abbrev Mirror.unmoved : Mirror :=
  .moved fun f g => f = id ∧ g = id

theorem Value.Mirrors.eq {v w : Value} (mirrors : v.Mirrors .unmoved w) : w = v := by
  cases mirrors with
  | plain plain => rfl
  | function functions =>
    obtain ⟨codes⟩ := functions
    cases codes with
    | builtin b => rfl
    | closure bodies =>
      obtain ⟨f, g, r, ⟨rfl, rfl⟩, rfl, rfl⟩ := bodies
      rw [Mirror.scope_moved]
      rfl

theorem Mirror.eq_of_failures {e e' : EvalError} (failures : unmoved.failures e e') : e' = e := by
  obtain ⟨f, g, cause, p, ⟨rfl, rfl⟩, rfl, rfl⟩ := failures
  rfl

theorem Mirror.eq_of_values {vs ws : List Value} (values : unmoved.values vs ws) : ws = vs := by
  simpa using map_eq_of_forall₂ (f := id) (g := id) values fun _ _ => Value.Mirrors.eq

theorem Store.Mirrors.frames_unmoved {s t : Store} {before before' : List (List Value)}
    (mirrors : s.Mirrors .unmoved before before' t) : t.frames = s.frames := by
  have same := mirrors.frames_moved id fun frame frame' related => by
    refine (List.forall₂_eq_eq_eq ▸ related.imp ?_ : frame = frame').symm
    intro b b' same
    exact Prod.ext same.1.symm same.2.eq.symm
  simpa using same

theorem Store.Mirrors.noted {s t : Store} (mirrors : s.Mirrors .unmoved [] [] t)
    (meters : t.meters = s.meters) : s.Noted t where
  frames := mirrors.frames_unmoved
  meters := meters
  functionCount := (mirrors.nextFunction 0).symm
  printed := by
    have same := mirrors.printed_moved id fun vs ws => Mirror.eq_of_values
    simpa using same

/-- A value up to the places in its body, if it is a function. -/
def Value.bare : Value → Value
  | .function ⟨id, name, .closure c⟩ =>
    .function ⟨id, name, .closure { c with body := c.body.bare }⟩
  | v => v

/-- What a store holds, up to the places in the bodies of functions. -/
def Store.bare (s : Store) : Store :=
  { s with
    frames := s.frames.map (·.map fun binding => (binding.1, binding.2.bare))
    printed := s.printed.map (·.map Value.bare)
    journal := #[] }

theorem Value.Mirrors.bare {v w : Value} (mirrors : v.Mirrors (.moved moves) w) :
    w.bare = v.bare := by
  cases mirrors with
  | plain plain => rfl
  | function functions =>
    obtain ⟨codes⟩ := functions
    cases codes with
    | builtin b => rfl
    | closure bodies =>
      obtain ⟨f, g, r, -, rfl, rfl⟩ := bodies
      rw [Mirror.scope_moved, Value.bare, Value.bare, Tree.bare_relocate, Tree.bare_relocate]
      rfl

theorem Store.Mirrors.bare {s t : Store} (mirrors : s.Mirrors (.moved moves) [] [] t)
    (meters : t.meters = s.meters) : t.bare = s.bare := by
  have frames := mirrors.frames_moved (·.map fun binding => (binding.1, binding.2.bare))
    fun frame frame' related => map_eq_of_forall₂ related fun b b' same =>
      Prod.ext same.1 same.2.bare
  have printed := mirrors.printed_moved (·.map Value.bare)
    fun vs ws related => map_eq_of_forall₂ related fun _ _ => Value.Mirrors.bare
  have functionCount : t.functionCount = s.functionCount := (mirrors.nextFunction 0).symm
  rw [Store.bare, Store.bare, frames, printed, meters, functionCount]

/-! A failure in a tree moves with it wherever the tree is moved, or does so nowhere. -/

namespace EvalError

/-- The failure lies in the tree that is evaluated: it stands where the tree is moved to. -/
def LiesIn (e : EvalError) (t : Tree) (scope : Scope) (meter : Nat) (s : Store) : Prop :=
  ∀ f, ∃ s', (t.relocate f).eval meter scope s = .error ⟨e.cause, f e.position⟩ s'

/-- The failure lies in a function that was there before: it stays where it is when the tree is
moved. -/
def LiesBefore (e : EvalError) (t : Tree) (scope : Scope) (meter : Nat) (s : Store) : Prop :=
  ∀ f, ∃ s', (t.relocate f).eval meter scope s = .error e s'

end EvalError

/-- The tree that is evaluated is moved in two ways, the functions there were are not. -/
def Mirror.movedTree (f g : Position → Position) : Mirror :=
  .moved fun f' g' => (f' = f ∧ g' = g) ∨ (f' = id ∧ g' = id)

namespace Tree

variable {s s' u : Store} {t : Tree} {scope : Scope} {meter : Nat} {e : EvalError}

theorem outcomes_movedTree (f g : Position → Position) (t : Tree) (scope : Scope) (meter : Nat)
    (mirrors : s.Mirrors (.movedTree f g) [] [] u) :
    (Mirror.movedTree f g).Outcomes [] [] (Mirror.movedTree f g).failures
      ((t.relocate f).eval meter scope s) ((t.relocate g).eval meter scope u) := by
  have outcomes := mirrors_eval (μ := .movedTree f g) ⟨f, g, t, .inl ⟨rfl, rfl⟩, rfl, rfl⟩ scope
    meter mirrors
  rwa [Mirror.movedTree, Mirror.scope_moved] at outcomes

/-- The failure of a moved tree is where the tree was moved to, or where it was before. -/
theorem failed_movedTree {f g : Position → Position} (noted : s.Noted u)
    (failed : (t.relocate f).eval meter scope s = .error e s') :
    ∃ e' u', (t.relocate g).eval meter scope u = .error e' u' ∧
      ((∃ p, e.position = f p ∧ e' = ⟨e.cause, g p⟩) ∨ e' = e) := by
  have outcomes := outcomes_movedTree f g t scope meter (noted.moved (.inr ⟨rfl, rfl⟩))
  rw [failed] at outcomes
  generalize (t.relocate g).eval meter scope u = r at outcomes
  cases outcomes with
  | error failures stores =>
    refine ⟨_, _, rfl, ?_⟩
    obtain ⟨f', g', cause, p, ⟨rfl, rfl⟩ | ⟨rfl, rfl⟩, rfl, rfl⟩ := failures
    · exact .inl ⟨p, rfl, rfl⟩
    · exact .inr rfl

/-- Every failure of a tree lies in it, or in a function that was there before. -/
theorem liesIn_or (noted : s.Noted u) (failed : t.eval meter scope u = .error e s') :
    e.LiesIn t scope meter s ∨ e.LiesBefore t scope meter s := by
  -- The tree is marked: it is moved behind the failure, and no two places become one.
  let mark (p : Position) : Position := ⟨p.offset + e.position.offset + 1, p.column, p.line⟩
  have apart (p : Position) : e.position ≠ mark p := by
    intro same
    have offset : e.position.offset = p.offset + e.position.offset + 1 :=
      congrArg Position.offset same
    omega
  have injective {p q : Position} (same : mark p = mark q) : p = q := by
    obtain ⟨offset, column, line⟩ := p
    obtain ⟨offset', column', line'⟩ := q
    simp only [mark, Position.mk.injEq] at same ⊢
    omega
  have unmoved : (t.relocate id).eval meter scope u = .error e s' := by rwa [relocate_id]
  obtain ⟨e₁, s₁, marked, place⟩ := failed_movedTree (g := mark) noted.symm unmoved
  rcases place with ⟨p, rfl, rfl⟩ | rfl
  · refine .inl fun f => ?_
    obtain ⟨e₂, s₂, failed₂, place₂⟩ := failed_movedTree (g := f) (.refl s) marked
    obtain ⟨e₃, s₃, failed₃, place₃⟩ := failed_movedTree (g := f) noted.symm unmoved
    rw [failed₂] at failed₃
    cases failed₃
    rcases place₂ with ⟨q, same, rfl⟩ | rfl
    · rw [injective same]
      exact ⟨s₂, failed₂⟩
    · rcases place₃ with ⟨q, same, moved⟩ | stays
      · exact ⟨s₂, same ▸ moved ▸ failed₂⟩
      · exact absurd (congrArg EvalError.position stays).symm (apart _)
  · refine .inr fun f => ?_
    obtain ⟨e₂, s₂, failed₂, place₂⟩ := failed_movedTree (g := f) (.refl s) marked
    rcases place₂ with ⟨q, same, -⟩ | rfl
    · exact absurd same (apart q)
    · exact ⟨s₂, failed₂⟩

end Tree

end Lispette
