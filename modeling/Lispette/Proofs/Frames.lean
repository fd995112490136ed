import Lispette.Proofs.Reachable

/-!
What an evaluation writes. A rule writes into a scope that is at work, and a scope at work is one
that was so before or stands on a new frame; so of the frames there were, an evaluation changes
the innermost of its scope alone, and a direct call changes none.
-/

namespace Lispette

open Moment

def Focus.scope? : Focus → Option Scope
  | .tree _ scope _ => some scope
  | .arguments site _ _ => some site.scope
  | .body _ _ | .result _ => none

def Pending.scope : Pending → Scope
  | .statements _ scope _ => scope
  | .binding _ scope => scope
  | .branches _ _ _ scope _ => scope
  | .argument site _ _ => site.scope
  | .callee site => site.scope

namespace Store

variable (s : Store) (c : Closure) (values : List Value)

theorem size_enterBody : (s.enterBody c values).2.frames.size = s.frames.size + 1 :=
  size_newFrame s c.scope.chain _

theorem frame_enterBody {id : Nat} (old : id < s.frames.size) :
    (s.enterBody c values).2.frame id = s.frame id :=
  frame_newFrame_of_lt c.scope.chain _ old

theorem frames_afterBuiltin (b : Builtin) : (s.afterBuiltin b values).frames = s.frames := by
  unfold afterBuiltin
  split <;> rfl

end Store

namespace Moment

variable {m m' : Moment} {n inner id : Nat} {scope : Scope}

/-- The scopes at work. -/
def scopes (m : Moment) : List Scope :=
  m.focus.scope?.toList ++ m.pending.map Pending.scope

theorem Next.mem_scopes (next : Next m m') (member : scope ∈ m'.scopes) :
    scope ∈ m.scopes ∨ scope.inner = m.store.frames.size := by
  cases next with
  | closure f c values k s code =>
    rcases List.mem_cons.mp member with rfl | outer
    · exact .inr rfl
    · exact .inl outer
  | _ => left; simp_all [scopes, Focus.scope?, Pending.scope]

theorem Next.size_le (next : Next m m') : m.store.frames.size ≤ m'.store.frames.size := by
  cases next with
  | closure f c values k s code =>
    rw [Store.size_enterBody]
    exact Nat.le_succ _
  | function name parameters body p scope meter k s => exact Nat.le_of_eq (Store.size_bind ..).symm
  | bound v name scope k s => exact Nat.le_of_eq (Store.size_bind ..).symm
  | builtin f b values site k s code =>
    exact Nat.le_of_eq (congrArg Array.size (s.frames_afterBuiltin values b)).symm
  | _ => exact Nat.le_refl _

theorem Next.frame_eq (next : Next m m') (old : id < m.store.frames.size)
    (other : ∀ scope ∈ m.scopes, scope.inner ≠ id) : m'.store.frame id = m.store.frame id := by
  cases next with
  | closure f c values k s code => exact s.frame_enterBody c values old
  | function name parameters body p scope meter k s =>
    exact Store.frame_bind_of_ne (other scope List.mem_cons_self)
  | bound v name scope k s => exact Store.frame_bind_of_ne (other scope List.mem_cons_self)
  | builtin f b values site k s code => rw [Store.frame, Store.frames_afterBuiltin, Store.frame]
  | _ => rfl

/-- The scopes at work stand on the given frame or on one that is not among the first few. -/
structure Confined (n inner : Nat) (m : Moment) : Prop where
  grown : n ≤ m.store.frames.size
  inner_eq (scope : Scope) (member : scope ∈ m.scopes) : scope.inner = inner ∨ n ≤ scope.inner

theorem confined_start (t : Tree) (scope : Scope) (meter : Nat) (s : Store) {n : Nat}
    (grown : n ≤ s.frames.size) : Confined n scope.inner (start t scope meter s) where
  grown := grown
  inner_eq scope member := .inl (by rw [List.mem_singleton.mp member])

theorem Confined.next (confined : Confined n inner m) (next : Next m m') :
    Confined n inner m' where
  grown := Nat.le_trans confined.grown next.size_le
  inner_eq scope member := by
    rcases next.mem_scopes member with before | new
    · exact confined.inner_eq scope before
    · exact .inr (new ▸ confined.grown)

theorem Confined.frame_eq (confined : Confined n inner m) (leads : Leads m m') (old : id < n)
    (other : id ≠ inner) : m'.store.frame id = m.store.frame id := by
  suffices Confined n inner m' ∧ m'.store.frame id = m.store.frame id from this.2
  refine leads.preserves (P := fun m' => Confined n inner m' ∧ m'.store.frame id = m.store.frame id)
    (fun _ _ next before => ?_) ⟨confined, rfl⟩
  obtain ⟨confined, same⟩ := before
  refine ⟨confined.next next, ?_⟩
  rw [next.frame_eq (by have := confined.grown; omega) fun scope member => ?_, same]
  rcases confined.inner_eq scope member with rfl | new
  · exact other.symm
  · omega

end Moment

theorem Tree.frame_eval (t : Tree) (scope : Scope) (meter : Nat) {s : Store} {id : Nat}
    (old : id < s.frames.size) (other : id ≠ scope.inner) :
    ((t.eval meter scope).after s).frame id = s.frame id := by
  have confined := confined_start t scope meter s (Nat.le_refl _)
  have same := confined.frame_eq (t.leads_eval scope meter s) old other
  rwa [store_ended] at same

theorem Function.frame_call (f : Function) (values : List Value) {s : Store} {id : Nat}
    (old : id < s.frames.size) : ((f.call values).after s).frame id = s.frame id := by
  cases code : f.code with
  | builtin b =>
    rw [after_call_of_builtin code, Store.frame, Store.frames_afterBuiltin, Store.frame]
  | closure c =>
    -- The body runs on a frame of its own, which comes after all that there were.
    have inside : id < (s.enterBody c values).2.frames.size := by
      rw [Store.size_enterBody]
      omega
    have other : id ≠ (s.enterBody c values).1.inner := Nat.ne_of_lt old
    rw [after_call_of_closure code, Tree.frame_eval _ _ _ inside other]
    exact s.frame_enterBody c values old

theorem Function.lookup_call (f : Function) (values : List Value) {s : Store} {scope : Scope}
    (old : ∀ id ∈ scope.chain, id < s.frames.size) (name : String) :
    ((f.call values).after s).lookup scope name = s.lookup scope name :=
  Store.lookup_congr (fun id member => f.frame_call values (old id member)) name

/-- Of the frames there were, an evaluation changes the innermost of its scope alone, and a direct
call of a function changes none, whether they fail or not; so what a call defines is not seen from
any scope on frames that there were. -/
theorem Tree.eval_writes (s : Store) :
    (∀ (t : Tree) (scope : Scope) (meter id : Nat), id < s.frames.size → id ≠ scope.inner →
      ((t.eval meter scope).after s).frame id = s.frame id) ∧
    (∀ (f : Function) (values : List Value) (id : Nat), id < s.frames.size →
      ((f.call values).after s).frame id = s.frame id) ∧
    (∀ (f : Function) (values : List Value) (scope : Scope) (name : String),
      (∀ id ∈ scope.chain, id < s.frames.size) →
      ((f.call values).after s).lookup scope name = s.lookup scope name) :=
  ⟨fun t scope meter _ old other => t.frame_eval scope meter old other,
    fun f values _ old => f.frame_call values old,
    fun f values _ name old => f.lookup_call values old name⟩

namespace Store

/-- An outer frame that binds one name, and an inner one. -/
def nested : Store :=
  { frames := #[[("x", .nil)], []] }

end Store

/-- A function whose body binds that name. -/
def Function.rebinding : Function :=
  ⟨0, "f", .closure ⟨[], .define "x" (.string "a" {}) {}, ⟨0, []⟩, 0⟩⟩

theorem Tree.eval_writes_nested : 0 < Store.nested.frames.size ∧ 0 ≠ (⟨1, [0]⟩ : Scope).inner ∧
    ((Tree.eval 0 ⟨1, [0]⟩ (.define "x" (.string "a" {}) {})).after Store.nested).frame 0 =
      [("x", .nil)] ∧
    ((Function.rebinding.call []).after Store.nested).frame 0 = [("x", .nil)] ∧
    ((Function.rebinding.call []).after Store.nested).lookup ⟨1, [0]⟩ "x" = some .nil := by
  obtain ⟨evaluated, called, looked⟩ := Tree.eval_writes Store.nested
  exact ⟨by decide, by decide, evaluated _ ⟨1, [0]⟩ 0 0 (by decide) (by decide),
    called Function.rebinding [] 0 (by decide),
    looked Function.rebinding [] ⟨1, [0]⟩ "x" (by decide)⟩

end Lispette
