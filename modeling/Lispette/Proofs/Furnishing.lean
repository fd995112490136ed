import Lispette.Proofs.Limits
import Lispette.Proofs.Standards

/-!
What making a prelude does to a store: one more frame, in which the constants and then a new
function for each builtin are bound. Nothing in it is older than the prelude itself, so whatever a
prelude is made in, it meets every standard.
-/

namespace Lispette

namespace Action

variable {ε α : Type}

/-- Actions that cannot fail, one after the other. -/
theorem forM_run {f : α → Action ε Unit} {g : Store → α → Store}
    (each : ∀ a s, f a s = .ok () (g s a)) (as : List α) (s : Store) :
    as.forM f s = .ok () (as.foldl g s) := by
  induction as generalizing s with
  | nil => rfl
  | cons a as ih =>
    show (f a >>= fun _ => as.forM f) s = _
    rw [bind_of_ok (each a s)]
    exact ih (g s a)

end Action

namespace Store

def bindBuiltin (scope : Scope) (s : Store) (entry : String × Builtin) : Store :=
  let made := s.newFunction entry.1 (.builtin entry.2)
  made.2.bind scope entry.1 (.function made.1)

def bindConstant (scope : Scope) (s : Store) (entry : String × Value) : Store :=
  s.bind scope entry.1 entry.2

/-- The store with all that a prelude binds bound in the scope. -/
def furnish (s : Store) (scope : Scope) : Store :=
  preludeBuiltins.foldl (bindBuiltin scope)
    (preludeConstants.foldl (bindConstant scope) (s.record .installing))

def newPrelude (s : Store) : Scope × Store :=
  let made := s.newFrame [] []
  (made.1, made.2.furnish made.1)

theorem scope_newPrelude (s : Store) : s.newPrelude.1 = ⟨s.frames.size, []⟩ := rfl

variable {ε : Type}

theorem prelude_run (s : Store) :
    (Scope.prelude : Action ε Scope) s = .ok s.newPrelude.1 s.newPrelude.2 := by
  have empty : (Scope.empty : Action ε Scope) s = .ok s.newPrelude.1 (s.newFrame [] []).2 := rfl
  have constants (scope : Scope) (s : Store) :
      (preludeConstants.forM fun entry => Action.bind scope entry.1 entry.2 : Action ε Unit) s =
        .ok () (preludeConstants.foldl (bindConstant scope) s) :=
    Action.forM_run (fun _ _ => rfl) _ s
  have builtins (scope : Scope) (s : Store) :
      (preludeBuiltins.forM fun entry => scope.bindBuiltin entry.1 entry.2 : Action ε Unit) s =
        .ok () (preludeBuiltins.foldl (bindBuiltin scope) s) :=
    Action.forM_run (fun _ _ => rfl) _ s
  have noted : (Action.record .installing : Action ε Unit) (s.newFrame [] []).2 =
      .ok () ((s.newFrame [] []).2.record .installing) := rfl
  exact (Action.bind_of_ok empty).trans <| (Action.bind_of_ok noted).trans <|
    (Action.bind_of_ok (constants _ _)).trans <| (Action.bind_of_ok (builtins _ _)).trans rfl

/-- What holds of a store and is kept by notes, new functions and bindings in the scope holds of the
furnished store. -/
theorem furnish_induction {P : Store → Prop} {s : Store} {scope : Scope}
    (record : ∀ s e, P s → P (s.record e))
    (newFunction : ∀ s name code, P s → P (newFunction s name code).2)
    (bind : ∀ s name v, P s → P (s.bind scope name v)) (h : P s) : P (s.furnish scope) := by
  have constants : P (preludeConstants.foldl (bindConstant scope) (s.record .installing)) :=
    List.foldlRecOn _ _ (record _ _ h) fun s before entry _ => bind s _ _ before
  exact List.foldlRecOn _ _ constants fun s before entry _ =>
    bind _ _ _ (newFunction s _ _ before)

theorem grows_newPrelude (s : Store) : Grows s s.newPrelude.2 :=
  furnish_induction (P := Grows s) (fun _ _ before => before.trans (.of_eq rfl rfl))
    (fun _ _ _ before => before.trans (grows_newFunction ..))
    (fun _ _ _ before => before.trans (grows_bind ..)) (grows_newFrame s [] [])

theorem printed_newPrelude (s : Store) : s.newPrelude.2.printed = s.printed :=
  furnish_induction (P := fun t => t.printed = s.printed) (fun _ _ => id) (fun _ _ _ => id)
    (fun _ _ _ => id) rfl

theorem meters_newPrelude (s : Store) : s.newPrelude.2.meters = s.meters :=
  furnish_induction (P := fun t => t.meters = s.meters) (fun _ _ => id) (fun _ _ _ => id)
    (fun _ _ _ => id) rfl

theorem frame_newPrelude {s : Store} {id : Nat} (old : id < s.frames.size) :
    s.newPrelude.2.frame id = s.frame id :=
  furnish_induction (P := fun t => t.frame id = s.frame id) (fun _ _ before => before)
    (fun _ _ _ before => before)
    (fun _ _ _ before => (frame_bind_of_ne (Nat.ne_of_gt old)).trans before)
    (frame_newFrame_of_lt [] [] old)

variable {std : Standard} {s : Store} {scope : Scope}

theorem Meets.bindBuiltin (meets : s.Meets std) (scope : Scope) (entry : String × Builtin) :
    (s.bindBuiltin scope entry).Meets std := by
  refine (meets.newFunction entry.1 (.builtin entry.2)).bind fun f same => ?_
  cases same
  exact meets_newFunction entry.1 fun c code => by cases code

theorem grows_bindBuiltin (s : Store) (scope : Scope) (entry : String × Builtin) :
    Grows s (s.bindBuiltin scope entry) :=
  ⟨(grows_bind ..).frames, Nat.le_succ _⟩

theorem meets_furnish (meets : s.Meets std) (scope : Scope) : (s.furnish scope).Meets std := by
  have constants : (preludeConstants.foldl (bindConstant scope) (s.record .installing)).Meets std :=
    List.foldlRecOn _ _ (meets.record _) fun s before entry member => by
      have plain : entry.2.kind ≠ .function := by
        revert entry
        decide
      exact before.bind (Value.meets_of_kind plain)
  exact List.foldlRecOn _ _ constants fun s before entry _ => before.bindBuiltin scope entry

theorem hasScope_newPrelude (s : Store) : s.newPrelude.2.HasScope s.newPrelude.1 :=
  furnish_induction (P := fun t => t.HasScope s.newPrelude.1) (fun _ _ has => has)
    (fun _ _ _ has => has) (fun _ _ _ has => has.mono (grows_bind ..)) (hasScope_newFrame (by simp))

theorem meets_newPrelude (meets : s.Meets std) :
    s.newPrelude.2.Meets std ∧ s.newPrelude.2.HasScope s.newPrelude.1 :=
  ⟨meets_furnish (meets.newFrame [] (by simp)) _, hasScope_newPrelude s⟩

theorem meets_empty (std : Standard) (meters : Array Meter) :
    ({ meters } : Store).Meets std := by
  intro id binding member
  rw [frame_of_le (Nat.zero_le id)] at member
  exact absurd member List.not_mem_nil

end Store

namespace Session

/-- The store in which a session with this limit starts. -/
def startStore (limit : Nat) : Store :=
  (Store.newMeter {} limit).2.newPrelude.2

def startScope : Scope := ⟨0, []⟩

theorem start_eq (limit : Nat) : start limit = single (startStore limit) startScope :=
  start_of_prelude (Store.prelude_run _)

theorem meets_start (std : Standard) (limit : Nat) :
    (startStore limit).Meets std ∧ (startStore limit).HasScope startScope :=
  Store.meets_newPrelude (Store.meets_empty std _)

end Session

end Lispette
