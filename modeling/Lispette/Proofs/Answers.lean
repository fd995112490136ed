import Mathlib.Data.List.Forall2
import Lispette.Builtin

/-!
What builtins can tell apart. From arguments that differ in their functions alone, and in these only
so far that equal ones stay equal and different ones different, a builtin comes to answers that
differ in the same way, or to the same failure. No builtin fails inside a body.
-/

namespace Lispette

/-- Related values are the same, or functions that are the same exactly if those they are related to
are. -/
structure Value.Likeness (R : Value → Value → Prop) : Prop where
  plain {v w : Value} (related : R v w) (plain : v.kind ≠ .function) : w = v
  function {f : Function} {w : Value} (related : R (.function f) w) : ∃ g, w = .function g
  identity {f f' g g' : Function} (related : R (.function f) (.function g))
    (related' : R (.function f') (.function g')) : g.id = g'.id ↔ f.id = f'.id

namespace Value.Likeness

variable {R : Value → Value → Prop} (likeness : Value.Likeness R) {v w v' w' : Value}
include likeness

theorem kind (related : R v w) : w.kind = v.kind := by
  cases v with
  | function f =>
    obtain ⟨g, rfl⟩ := likeness.function related
    rfl
  | nil | bool | number | string => rw [likeness.plain related (by simp [Value.kind])]

theorem compare (related : R v w) (related' : R v' w') : w.compare w' = v.compare v' := by
  cases v with
  | function f =>
    obtain ⟨g, rfl⟩ := likeness.function related
    cases v' with
    | function f' =>
      obtain ⟨g', rfl⟩ := likeness.function related'
      simp only [Value.compare, likeness.identity related related']
    | nil | bool | number | string =>
      rw [likeness.plain related' (by simp [Value.kind])]
      rfl
  | nil | bool | number | string =>
    rw [likeness.plain related (by simp [Value.kind])]
    cases v' with
    | function f' =>
      obtain ⟨g', rfl⟩ := likeness.function related'
      rfl
    | nil | bool | number | string => rw [likeness.plain related' (by simp [Value.kind])]

end Value.Likeness

namespace Builtin

/-- Both answers are there and related, or both are one failure, which is not one inside a body. -/
inductive Agree {α β : Type} (P : α → β → Prop) : Except CallError α → Except CallError β → Prop
  | ok {a : α} {b : β} (related : P a b) : Agree P (.ok a) (.ok b)
  | error {e : CallError} (outside : ∀ inner, e ≠ .inside inner) : Agree P (.error e) (.error e)

theorem Agree.bind {α β γ δ : Type} {P : α → β → Prop} {Q : γ → δ → Prop}
    {x : Except CallError α} {y : Except CallError β} {f : α → Except CallError γ}
    {g : β → Except CallError δ} (first : Agree P x y)
    (second : ∀ a b, P a b → Agree Q (f a) (g b)) : Agree Q (x >>= f) (y >>= g) := by
  cases first with
  | ok related => exact second _ _ related
  | error outside => exact .error outside

variable {R : Value → Value → Prop} {vs ws : List Value} {v w v' w' : Value}

theorem agree_one (related : List.Forall₂ R vs ws) : Agree R (one vs) (one ws) := by
  have length := related.length_eq
  cases related with
  | nil => exact .error (by simp)
  | cons first rest =>
    cases rest with
    | nil => exact .ok first
    | cons second rest => simpa [one, length] using Agree.error (by simp)

theorem agree_two (related : List.Forall₂ R vs ws) :
    Agree (fun p q => R p.1 q.1 ∧ R p.2 q.2) (two vs) (two ws) := by
  match related with
  | .nil => exact .error (by simp)
  | .cons first .nil => exact .error (by simp)
  | .cons first (.cons second .nil) => exact .ok ⟨first, second⟩
  | .cons _ (.cons _ (.cons _ rest)) =>
    have length := rest.length_eq
    simpa [two, length] using Agree.error (by simp)

theorem agree_three (related : List.Forall₂ R vs ws) :
    Agree (fun p q => R p.1 q.1 ∧ R p.2.1 q.2.1 ∧ R p.2.2 q.2.2) (three vs) (three ws) := by
  match related with
  | .nil => exact .error (by simp)
  | .cons first .nil => exact .error (by simp)
  | .cons first (.cons second .nil) => exact .error (by simp)
  | .cons first (.cons second (.cons third .nil)) => exact .ok ⟨first, second, third⟩
  | .cons _ (.cons _ (.cons _ (.cons _ rest))) =>
    have length := rest.length_eq
    simpa [three, length] using Agree.error (by simp)

section

variable (likeness : Value.Likeness R)
include likeness

/-- What takes all functions for one takes related values for one. -/
theorem agree_of_blind {α : Type} {f : Value → Except CallError α}
    (blind : ∀ g h, f (.function g) = f (.function h))
    (outside : ∀ v inner, f v ≠ .error (.inside inner)) (related : R v w) :
    Agree Eq (f v) (f w) := by
  have same : f w = f v := by
    cases v with
    | function g =>
      obtain ⟨h, rfl⟩ := likeness.function related
      exact blind h g
    | nil | bool | number | string => rw [likeness.plain related (by simp [Value.kind])]
  rw [same]
  cases answer : f v with
  | ok a => exact .ok rfl
  | error e => exact .error fun inner inside => outside v inner (by rw [answer, inside])

theorem agree_number (related : R v w) : Agree Eq (number v) (number w) :=
  agree_of_blind likeness (fun _ _ => rfl) (fun v _ => by cases v <;> simp [number]) related

theorem agree_string (related : R v w) : Agree Eq (string v) (string w) :=
  agree_of_blind likeness (fun _ _ => rfl) (fun v _ => by cases v <;> simp [string]) related

theorem agree_bool (related : R v w) : Agree Eq (bool v) (bool w) :=
  agree_of_blind likeness (fun _ _ => rfl) (fun v _ => by cases v <;> simp [bool]) related

theorem agree_joined (related : List.Forall₂ R vs ws) : Agree Eq (joined vs) (joined ws) := by
  induction related with
  | nil => exact .ok rfl
  | cons first _ ih =>
    refine (agree_string likeness first).bind fun s _ same => ?_
    subst same
    refine ih.bind fun rest _ same => ?_
    subst same
    exact .ok rfl

theorem agree_compare (op : Comparison) (related : R v w) (related' : R v' w') :
    Agree Eq (compare op v v') (compare op w w') := by
  unfold compare
  rw [likeness.compare related related', likeness.kind related]
  cases v.compare v' with
  | ok order => exact .ok rfl
  | error found => exact .error (by simp)

/-- A builtin answers an argument, or something that is no function and the same from related
arguments. -/
theorem agree_answer (b : Builtin) (related : List.Forall₂ R vs ws) :
    Agree (fun v w => (v ∈ vs ∧ R v w) ∨ (v.kind ≠ .function ∧ w = v)) (b.answer vs)
      (b.answer ws) := by
  have plain {v : Value} (h : v.kind ≠ .function) :
      Agree (fun v w => (v ∈ vs ∧ R v w) ∨ (v.kind ≠ .function ∧ w = v)) (.ok v) (.ok v) :=
    .ok (.inr ⟨h, rfl⟩)
  cases b with
  | print => exact plain (v := .nil) (by simp [Value.kind])
  | concat =>
    refine (agree_joined likeness related).bind fun s _ same => ?_
    subst same
    exact plain (v := .string s) (by simp [Value.kind])
  | arithmetic op =>
    refine (agree_two related).bind fun p q pair => ?_
    refine (agree_number likeness pair.1).bind fun x _ same => ?_
    subst same
    refine (agree_number likeness pair.2).bind fun y _ same => ?_
    subst same
    exact plain (v := .number (op.result x y)) (by simp [Value.kind])
  | comparison op =>
    refine (agree_two related).bind fun p q pair => ?_
    refine (agree_compare likeness op pair.1 pair.2).bind fun answer _ same => ?_
    subst same
    exact plain (v := .bool answer) (by simp [Value.kind])
  | connective op =>
    refine (agree_two related).bind fun p q pair => ?_
    refine (agree_bool likeness pair.1).bind fun x _ same => ?_
    subst same
    refine (agree_bool likeness pair.2).bind fun y _ same => ?_
    subst same
    exact plain (v := .bool (op.result x y)) (by simp [Value.kind])
  | not =>
    refine (agree_one related).bind fun p q pair => ?_
    refine (agree_bool likeness pair).bind fun x _ same => ?_
    subst same
    exact plain (v := .bool (!x)) (by simp [Value.kind])
  | choose =>
    have kept : List.Forall₂ (fun v w => v ∈ vs ∧ R v w) vs ws :=
      (List.forall₂_and_left vs ws).mpr ⟨fun _ member => member, related⟩
    refine (agree_three kept).bind fun p q three => ?_
    refine (agree_bool likeness three.1.2).bind fun condition _ same => ?_
    subst same
    cases condition with
    | true => exact .ok (.inl three.2.1)
    | false => exact .ok (.inl three.2.2)

end

end Builtin

end Lispette
