import Lispette.Eval.Trial

/-!
A budget of the store's headroom is enough. An evaluation that starts within its headroom ends
in a value or a failure, and then every meter stands where it stood.
-/

namespace Lispette

/-- An end with the meters of the given store. -/
def Trial.Ends {ε α : Type} (s : Store) : EStateM.Result (Halt ε) Store α → Prop
  | .ok _ t => t.meters = s.meters
  | .error (.failed _) t => t.meters = s.meters
  | .error .exhausted _ => False

/-- From every store with at most this headroom, the trial ends with the meters it found. -/
def Trial.Steady {ε α : Type} (n : Nat) (x : Trial ε α) : Prop :=
  ∀ s : Store, s.headroom ≤ n → Trial.Ends s (x s)

def Action.Ends {ε α : Type} (s : Store) : EStateM.Result ε Store α → Prop
  | .ok _ t => t.meters = s.meters
  | .error _ t => t.meters = s.meters

theorem Store.headroom_congr {s t : Store} (h : t.meters = s.meters) :
    t.headroom = s.headroom := by
  unfold Store.headroom
  rw [h]

namespace Trial

variable {ε δ α β : Type} {n : Nat}

theorem steady_pure (a : α) : Steady n (pure a : Trial ε α) :=
  fun _ _ => rfl

theorem steady_fail (e : ε) : Steady n (fail e : Trial ε α) :=
  fun _ _ => rfl

theorem steady_modifyGet {f : Store → α × Store} (h : ∀ s, (f s).2.meters = s.meters) :
    Steady n (modifyGet f : Trial ε α) :=
  fun s _ => h s

theorem steady_bind {x : Trial ε α} {f : α → Trial ε β} (hx : Steady n x)
    (hf : ∀ a, Steady n (f a)) : Steady n (x >>= f) := by
  intro s room
  have first := hx s room
  cases hxs : x s with
  | ok a t =>
    have meters : t.meters = s.meters := by simpa only [hxs, Ends] using first
    have second := hf a t (by rw [Store.headroom_congr meters]; exact room)
    rw [Action.bind_of_ok hxs]
    unfold Ends at second ⊢
    rw [meters] at second
    exact second
  | error e t =>
    rw [hxs] at first
    rw [Action.bind_of_error hxs]
    cases e <;> exact first

theorem steady_mapError {f : ε → δ} {x : Trial ε α} (hx : Steady n x) :
    Steady n (Action.mapError (Halt.map f) x) := by
  intro s room
  have h := hx s room
  cases hxs : x s with
  | ok a t =>
    rw [hxs] at h
    rw [Action.mapError_of_ok _ hxs]
    exact h
  | error e t =>
    rw [hxs] at h
    rw [Action.mapError_of_error _ hxs]
    cases e <;> exact h

theorem steady_action {x : Action ε α} (hx : ∀ s, Action.Ends s (x s)) :
    Steady n (Action.mapError .failed x) := by
  intro s _
  have h := hx s
  cases hxs : x s with
  | ok a t =>
    rw [hxs] at h
    rw [Action.mapError_of_ok _ hxs]
    exact h
  | error e t =>
    rw [hxs] at h
    rw [Action.mapError_of_error _ hxs]
    exact h

theorem steady_lookup (scope : Scope) (name : String) :
    Steady n (Action.lookup scope name : Trial ε (Option Value)) :=
  fun _ _ => rfl

theorem steady_record (e : Entry) : Steady n (Action.record e : Trial ε Unit) :=
  fun _ _ => rfl

theorem steady_bindName (scope : Scope) (name : String) (v : Value) :
    Steady n (Action.bind scope name v : Trial ε Unit) :=
  fun _ _ => rfl

theorem steady_counted {meter : Nat} {position : Position} {x : Trial EvalError α}
    (hx : ∀ k, k < n → Steady k x) : Steady n (counted meter position x) := by
  intro s room
  by_cases free : (s.meter meter).depth < (s.meter meter).limit
  · have one := Store.headroom_enter free
    have inner := hx (s.enter meter).headroom (by omega) (s.enter meter) (Nat.le_refl _)
    rw [counted_of_free free]
    have back : ∀ t : Store, t.meters = (s.enter meter).meters →
        (t.leave meter).meters = s.meters := by
      intro t h
      have undo := congrArg Store.meters (Store.leave_enter s meter)
      simp only [Store.leave] at undo ⊢
      rw [h, undo]
    cases hxs : x (s.enter meter) with
    | ok a t =>
      rw [hxs] at inner
      rw [Action.leaving_of_ok hxs]
      exact back t inner
    | error e t =>
      rw [hxs] at inner
      rw [Action.leaving_of_error hxs]
      cases e with
      | failed e => exact back t inner
      | exhausted => exact inner.elim
  · rw [counted_of_full free]
    rfl

theorem steady_callee (scope : Scope) (head : String) (position : Position) :
    Steady n (callee scope head position) :=
  steady_bind (steady_lookup scope head) fun found =>
    match found with
    | some (.function _) => steady_pure _
    | some .nil | some (.bool _) | some (.number _) | some (.string _) => steady_fail _
    | none => steady_fail _

theorem steady_conditional {position : Position} {condition yes no : Trial EvalError Value}
    (hc : Steady n condition) (hy : Steady n yes) (hn : Steady n no) :
    Steady n (conditional position condition yes no) :=
  steady_bind hc fun v =>
    match v with
    | .bool true => hy
    | .bool false => hn
    | .nil | .number _ | .string _ | .function _ => steady_fail _

end Trial

open Trial

namespace Tree

variable {apply : Function → List Value → Trial CallError Value} {meter n : Nat}

theorem steady_applyAt (h : ∀ f values k, k < n → Steady k (apply f values)) (head : String)
    (position : Position) (f : Function) (values : List Value) :
    Steady n (applyAt apply meter head position f values) :=
  steady_counted fun k less => steady_bind (steady_record _) fun _ =>
    steady_mapError (h f values k less)

theorem steady_callWith (h : ∀ f values k, k < n → Steady k (apply f values)) {scope : Scope}
    {head : String} {position : Position} {arguments : Trial EvalError (List Value)}
    (ha : Steady n arguments) : Steady n (callWith apply meter scope head position arguments) :=
  steady_bind ha fun values => steady_bind (steady_callee scope head position) fun f =>
    steady_applyAt h head position f values

mutual

theorem steady_evalWith (h : ∀ f values k, k < n → Steady k (apply f values)) (scope : Scope) :
    ∀ t : Tree, Steady n (t.evalWith apply meter scope)
  | .program body _ => by
    unfold evalWith
    exact steady_bind (steady_record _) fun _ => steady_evalLast h scope .nil body
  | .number digits _ => by
    unfold evalWith
    split
    · exact steady_pure _
    · exact steady_fail _
  | .string _ _ => by
    unfold evalWith
    exact steady_pure _
  | .identifier name _ => by
    unfold evalWith
    refine steady_bind (steady_lookup scope name) fun found => ?_
    cases found with
    | none => exact steady_fail _
    | some v => exact steady_pure v
  | .define name value _ => by
    unfold evalWith
    exact steady_bind (steady_evalWith h scope value) fun v =>
      steady_bind (steady_record _) fun _ =>
      steady_bind (steady_bindName scope name v) fun _ => steady_pure _
  | .function name _ _ _ => by
    unfold evalWith
    exact steady_bind (steady_record _) fun _ =>
      steady_bind (steady_modifyGet fun _ => rfl) fun f =>
      steady_bind (steady_bindName scope name (.function f)) fun _ => steady_pure _
  | .call head arguments position => by
    unfold evalWith
    split
    · split
      · rename_i condition yes no
        exact steady_conditional (steady_evalWith h scope condition)
          (steady_evalWith h scope yes) (steady_evalWith h scope no)
      · exact steady_callWith h (steady_evalAll h scope arguments)
    · exact steady_callWith h (steady_evalAll h scope arguments)

theorem steady_evalAll (h : ∀ f values k, k < n → Steady k (apply f values)) (scope : Scope) :
    ∀ ts : List Tree, Steady n (evalAll apply meter scope ts)
  | [] => by
    unfold evalAll
    exact steady_pure _
  | t :: ts => by
    unfold evalAll
    exact steady_bind (steady_evalWith h scope t) fun _ =>
      steady_bind (steady_evalAll h scope ts) fun _ => steady_pure _

theorem steady_evalLast (h : ∀ f values k, k < n → Steady k (apply f values)) (scope : Scope) :
    ∀ (last : Value) (ts : List Tree), Steady n (evalLast apply meter scope last ts)
  | last, [] => by
    unfold evalLast
    exact steady_pure _
  | _, t :: ts => by
    unfold evalLast
    exact steady_bind (steady_evalWith h scope t) fun v => steady_evalLast h scope v ts

end

end Tree

theorem Builtin.ends_apply (b : Builtin) (values : List Value) (s : Store) :
    Action.Ends s (b.apply values s) := by
  have answer : ∀ t : Store, t.meters = s.meters →
      Action.Ends s ((Action.ofExcept (b.answer values) : Action CallError Value) t) := by
    intro t h
    unfold Action.ofExcept
    cases b.answer values <;> exact h
  by_cases print : b = .print
  · subst print
    exact answer (s.print values) rfl
  · have run : b.apply values = Action.ofExcept (b.answer values) := by
      simp [Builtin.apply, print]
    rw [run]
    exact answer s rfl

theorem Function.steady_invoke (n : Nat) (f : Function) (values : List Value) (k : Nat)
    (less : k < n) : Steady k (f.invoke n values) := by
  induction n generalizing f values k with
  | zero => omega
  | succ n ih =>
    unfold invoke
    split
    · exact steady_action fun s => Builtin.ends_apply _ _ s
    · refine steady_bind (steady_modifyGet fun _ => rfl) fun scope => ?_
      exact steady_mapError (Tree.steady_evalWith (fun f values j lessj =>
        ih f values j (by omega)) scope _)

namespace Trial

variable {ε α : Type}

theorem Steady.not_exhausted {x : Trial ε α} {s t : Store} (h : Steady s.headroom x) :
    x s ≠ .error .exhausted t := by
  intro out
  have ends := h s (Nat.le_refl _)
  rw [out] at ends
  exact ends

end Trial
end Lispette
