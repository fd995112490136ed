import Lispette.Failure
import Lispette.Store

/-!
Actions on the store: they end in a value or a failure, and what they changed before a failure
stays changed.
-/

namespace Lispette

abbrev Action (ε α : Type) := EStateM ε Store α

namespace Action

variable {ε δ α β : Type}

def record (e : Entry) : Action ε Unit :=
  modify (·.record e)

def print (values : List Value) : Action ε Unit :=
  modify (·.print values)

def lookup (scope : Scope) (name : String) : Action ε (Option Value) := do
  return (← get).lookup scope name

def bind (scope : Scope) (name : String) (value : Value) : Action ε Unit :=
  modify (·.bind scope name value)

def newFrame (outer : List Nat) (frame : Frame) : Action ε Scope :=
  modifyGet (·.newFrame outer frame)

def newMeter (limit : Nat) : Action ε Nat :=
  modifyGet (·.newMeter limit)

def newFunction (name : String) (code : Code) : Action ε Function :=
  modifyGet (·.newFunction name code)

def ofExcept : Except ε α → Action ε α
  | .ok a => pure a
  | .error e => throw e

def mapError (f : ε → δ) (x : Action ε α) : Action δ α :=
  EStateM.adaptExcept f x

/-- Leaves the meter again, however the action ends. -/
def leaving (meter : Nat) (x : Action ε α) : Action ε α := fun s =>
  match x s with
  | .ok a s => .ok a (s.leave meter)
  | .error e s => .error e (s.leave meter)

/-- The result of an action that cannot fail. -/
def sure (x : Action Empty α) (s : Store) : α × Store :=
  match x s with
  | .ok a s => (a, s)

/-- The store that an action leaves, whether it fails or not. -/
def after (x : Action ε α) (s : Store) : Store :=
  match x s with
  | .ok _ t => t
  | .error _ t => t

section

variable {x : Action ε α} {f : α → Action ε β} {s t : Store} {a : α} {e : ε}

theorem bind_of_ok (run : x s = .ok a t) : (x >>= f) s = f a t := by
  show EStateM.bind x f s = f a t
  unfold EStateM.bind
  rw [run]

theorem bind_of_error (run : x s = .error e t) : (x >>= f) s = .error e t := by
  show EStateM.bind x f s = .error e t
  unfold EStateM.bind
  rw [run]

theorem mapError_of_ok (g : ε → δ) (run : x s = .ok a t) : mapError g x s = .ok a t := by
  unfold mapError EStateM.adaptExcept
  rw [run]

theorem mapError_of_error (g : ε → δ) (run : x s = .error e t) :
    mapError g x s = .error (g e) t := by
  unfold mapError EStateM.adaptExcept
  rw [run]

theorem leaving_of_ok {meter : Nat} (run : x s = .ok a t) :
    leaving meter x s = .ok a (t.leave meter) := by
  unfold leaving
  rw [run]

theorem leaving_of_error {meter : Nat} (run : x s = .error e t) :
    leaving meter x s = .error e (t.leave meter) := by
  unfold leaving
  rw [run]

theorem sure_of_ok {x : Action Empty α} (run : x s = .ok a t) : x.sure s = (a, t) := by
  unfold sure
  rw [run]

theorem after_of_ok (run : x s = .ok a t) : x.after s = t := by
  unfold after
  rw [run]

theorem after_of_error (run : x s = .error e t) : x.after s = t := by
  unfold after
  rw [run]

theorem after_congr {y : Action ε α} (same : x s = y t) : x.after s = y.after t := by
  unfold after
  rw [same]

end

@[simp] theorem after_mapError (g : ε → δ) (x : Action ε α) (s : Store) :
    (mapError g x).after s = x.after s := by
  cases run : x s with
  | ok a t => rw [after_of_ok run, after_of_ok (mapError_of_ok g run)]
  | error e t => rw [after_of_error run, after_of_error (mapError_of_error g run)]

@[simp] theorem after_ofExcept (r : Except ε α) (s : Store) : (ofExcept r).after s = s := by
  cases r <;> rfl

end Action
end Lispette
