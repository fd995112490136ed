import Mathlib.Data.List.Forall2
import Lispette.Failure

/-!
Names in trees, and trees that say the same with other names. A renaming takes one name for another
wherever the tree is read inside a certain function; outside of it every name is read as it is.
-/

namespace Lispette

open List (Forall₂)

namespace Tree

mutual

/-- The tree with every name read through the function, but for the names of functions. -/
def rename (f : String → String) : Tree → Tree
  | .program body p => .program (renameAll f body) p
  | .number digits p => .number digits p
  | .string text p => .string text p
  | .identifier name p => .identifier (f name) p
  | .call head arguments p => .call (f head) (renameAll f arguments) p
  | .define name value p => .define (f name) (value.rename f) p
  | .function name parameters body p => .function name (parameters.map f) (body.rename f) p

def renameAll (f : String → String) : List Tree → List Tree
  | [] => []
  | t :: ts => t.rename f :: renameAll f ts

end

mutual

/-- The names that occur in the tree, those of functions among them. -/
def names : Tree → List String
  | .program body _ => namesAll body
  | .number _ _ | .string _ _ => []
  | .identifier name _ => [name]
  | .call head arguments _ => head :: namesAll arguments
  | .define name value _ => name :: value.names
  | .function name parameters body _ => name :: parameters ++ body.names

def namesAll : List Tree → List String
  | [] => []
  | t :: ts => t.names ++ namesAll ts

end

mutual

/-- The names of the functions that the tree declares. -/
def functionNames : Tree → List String
  | .program body _ => functionNamesAll body
  | .number _ _ | .string _ _ | .identifier _ _ => []
  | .call _ arguments _ => functionNamesAll arguments
  | .define _ value _ => value.functionNames
  | .function name _ body _ => name :: body.functionNames

def functionNamesAll : List Tree → List String
  | [] => []
  | t :: ts => t.functionNames ++ functionNamesAll ts

end

mutual

theorem rename_id : ∀ t : Tree, t.rename id = t
  | .program body p => congrArg (Tree.program · p) (renameAll_id body)
  | .number _ _ | .string _ _ | .identifier _ _ => rfl
  | .call head arguments p => congrArg (Tree.call head · p) (renameAll_id arguments)
  | .define name value p => congrArg (Tree.define name · p) (rename_id value)
  | .function name parameters body p => by
    rw [rename, rename_id body, List.map_id]

theorem renameAll_id : ∀ ts : List Tree, renameAll id ts = ts
  | [] => rfl
  | t :: ts => by rw [renameAll, rename_id t, renameAll_id ts]

end

end Tree

/-- The failure with the name it reports read through the function. -/
def EvalError.rename (f : String → String) : EvalError → EvalError
  | ⟨.notDefined name, p⟩ => ⟨.notDefined (f name), p⟩
  | ⟨.wrongArity name expected found, p⟩ => ⟨.wrongArity (f name) expected found, p⟩
  | e => e

theorem EvalError.rename_id (e : EvalError) : e.rename id = e := by
  obtain ⟨cause, p⟩ := e
  cases cause <;> rfl

/-- A new name for an old one; neither is the head of conditionals. -/
structure Renaming where
  old : String
  new : String
  old_ne : old ≠ "if"
  new_ne : new ≠ "if"

/-- Where a name is read. -/
inductive Side
  | outside | inside

namespace Renaming

variable (ρ : Renaming) {side : Side} {a b : String}

/-- The new name in place of the old one. -/
def apply (name : String) : String :=
  if name = ρ.old then ρ.new else name

def read : Side → String → String
  | .outside => id
  | .inside => ρ.apply

/-- Inside, the new name is not in use yet. -/
def Allows (side : Side) (name : String) : Prop :=
  side = .inside → name ≠ ρ.new

theorem read_outside : ρ.read .outside = id := rfl

theorem allows_outside (name : String) : ρ.Allows .outside name :=
  fun inside => by cases inside

variable {ρ}

theorem apply_of_ne (other : a ≠ ρ.old) : ρ.apply a = a :=
  if_neg other

theorem read_of_ne (side : Side) (other : a ≠ ρ.old) : ρ.read side a = a := by
  cases side with
  | outside => rfl
  | inside => exact apply_of_ne other

theorem read_eq_iff (first : ρ.Allows side a) (second : ρ.Allows side b) :
    ρ.read side a = ρ.read side b ↔ a = b := by
  cases side with
  | outside => exact Iff.rfl
  | inside =>
    have first : a ≠ ρ.new := first rfl
    have second : b ≠ ρ.new := second rfl
    show ρ.apply a = ρ.apply b ↔ a = b
    unfold apply
    split <;> split <;> simp_all [eq_comm]

theorem read_beq (first : ρ.Allows side a) (second : ρ.Allows side b) :
    (ρ.read side a == ρ.read side b) = (a == b) := by
  rw [Bool.eq_iff_iff, beq_iff_eq, beq_iff_eq, read_eq_iff first second]

theorem read_if (ρ : Renaming) (side : Side) : ρ.read side "if" = "if" :=
  read_of_ne side ρ.old_ne.symm

theorem read_eq_if (ρ : Renaming) (side : Side) : ρ.read side a = "if" ↔ a = "if" := by
  cases side with
  | outside => exact Iff.rfl
  | inside =>
    show ρ.apply a = "if" ↔ a = "if"
    by_cases same : a = ρ.old
    · simp [apply, same, ρ.old_ne, ρ.new_ne]
    · rw [apply_of_ne same]

end Renaming

/-- The second tree says what the first one does, with the names of that side. -/
inductive Tree.Renamed (ρ : Renaming) (side : Side) : Tree → Tree → Prop
  | program {body body' : List Tree} {p : Position} (parts : Forall₂ (Renamed ρ side) body body') :
    Renamed ρ side (.program body p) (.program body' p)
  | number {digits : String} {p : Position} : Renamed ρ side (.number digits p) (.number digits p)
  | string {text : String} {p : Position} : Renamed ρ side (.string text p) (.string text p)
  | identifier {name : String} {p : Position} (allowed : ρ.Allows side name) :
    Renamed ρ side (.identifier name p) (.identifier (ρ.read side name) p)
  | call {head : String} {arguments arguments' : List Tree} {p : Position}
    (allowed : ρ.Allows side head) (parts : Forall₂ (Renamed ρ side) arguments arguments') :
    Renamed ρ side (.call head arguments p) (.call (ρ.read side head) arguments' p)
  | define {name : String} {value value' : Tree} {p : Position} (allowed : ρ.Allows side name)
    (part : Renamed ρ side value value') :
    Renamed ρ side (.define name value p) (.define (ρ.read side name) value' p)
  | function {name : String} {parameters : List String} {body body' : Tree} {p : Position}
    (kept : ρ.read side name = name) (allowed : ∀ n ∈ name :: parameters, ρ.Allows side n)
    (part : Renamed ρ side body body') : Renamed ρ side (.function name parameters body p)
      (.function name (parameters.map (ρ.read side)) body' p)

namespace Tree

variable {ρ : Renaming} {side : Side}

mutual

theorem renamed_rename : ∀ t : Tree, (∀ n ∈ t.names, ρ.Allows side n) →
    (∀ n ∈ t.functionNames, ρ.read side n = n) → t.Renamed ρ side (t.rename (ρ.read side))
  | .program body _, allowed, kept => .program (renamed_renameAll body allowed kept)
  | .number _ _, _, _ => .number
  | .string _ _, _, _ => .string
  | .identifier name _, allowed, _ => .identifier (allowed name (List.mem_singleton_self name))
  | .call head arguments _, allowed, kept => by
    obtain ⟨first, rest⟩ := List.forall_mem_cons.mp allowed
    exact .call first (renamed_renameAll arguments rest kept)
  | .define name value _, allowed, kept => by
    obtain ⟨first, rest⟩ := List.forall_mem_cons.mp allowed
    exact .define first (renamed_rename value rest kept)
  | .function name parameters body _, allowed, kept => by
    obtain ⟨same, kept⟩ := List.forall_mem_cons.mp kept
    obtain ⟨named, rest⟩ := List.forall_mem_append.mp allowed
    exact .function same named (renamed_rename body rest kept)

theorem renamed_renameAll : ∀ ts : List Tree, (∀ n ∈ namesAll ts, ρ.Allows side n) →
    (∀ n ∈ functionNamesAll ts, ρ.read side n = n) →
    Forall₂ (Renamed ρ side) ts (renameAll (ρ.read side) ts)
  | [], _, _ => .nil
  | t :: ts, allowed, kept => by
    obtain ⟨first, rest⟩ := List.forall_mem_append.mp allowed
    obtain ⟨kept, keptRest⟩ := List.forall_mem_append.mp kept
    exact .cons (renamed_rename t first kept) (renamed_renameAll ts rest keptRest)

end

/-- Outside, a tree is read as it is. -/
theorem renamed_self (ρ : Renaming) (t : Tree) : t.Renamed ρ .outside t := by
  have renamed : t.Renamed ρ .outside (t.rename (ρ.read .outside)) :=
    t.renamed_rename (fun n _ => ρ.allows_outside n) fun _ _ => rfl
  rwa [ρ.read_outside, rename_id] at renamed

end Tree

end Lispette
