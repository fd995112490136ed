import Lispette.Text.Position

/-!
Programs as trees. Every node knows where it stands: a literal or a name at its token, a call
at its head, a definition or a function at the name it binds.
-/

namespace Lispette

inductive Tree
  | program (body : List Tree) (position : Position)
  | number (digits : String) (position : Position)
  | string (text : String) (position : Position)
  | identifier (name : String) (position : Position)
  | call (head : String) (arguments : List Tree) (position : Position)
  | define (name : String) (value : Tree) (position : Position)
  | function (name : String) (parameters : List String) (body : Tree) (position : Position)
  deriving Inhabited

namespace Tree

def position : Tree → Position
  | .program _ p => p
  | .number _ p => p
  | .string _ p => p
  | .identifier _ p => p
  | .call _ _ p => p
  | .define _ _ p => p
  | .function _ _ _ p => p

mutual

/-- The nodes in the order in which they start, each with its depth. -/
def outline (depth : Nat) : Tree → List (Nat × Tree)
  | .program body p => (depth, .program body p) :: outlineAll (depth + 1) body
  | .number digits p => [(depth, .number digits p)]
  | .string text p => [(depth, .string text p)]
  | .identifier name p => [(depth, .identifier name p)]
  | .call head arguments p => (depth, .call head arguments p) :: outlineAll (depth + 1) arguments
  | .define name value p => (depth, .define name value p) :: value.outline (depth + 1)
  | .function name parameters body p =>
    (depth, .function name parameters body p) :: body.outline (depth + 1)

def outlineAll (depth : Nat) : List Tree → List (Nat × Tree)
  | [] => []
  | t :: ts => t.outline depth ++ outlineAll depth ts

end

mutual

/-- The tree with every position moved by the same function. -/
def relocate (f : Position → Position) : Tree → Tree
  | .program body p => .program (relocateAll f body) (f p)
  | .number digits p => .number digits (f p)
  | .string text p => .string text (f p)
  | .identifier name p => .identifier name (f p)
  | .call head arguments p => .call head (relocateAll f arguments) (f p)
  | .define name value p => .define name (value.relocate f) (f p)
  | .function name parameters body p => .function name parameters (body.relocate f) (f p)

def relocateAll (f : Position → Position) : List Tree → List Tree
  | [] => []
  | t :: ts => t.relocate f :: relocateAll f ts

end

theorem relocateAll_eq_map (f : Position → Position) (ts : List Tree) :
    relocateAll f ts = ts.map (relocate f) := by
  induction ts with
  | nil => rfl
  | cons t ts ih => rw [relocateAll, ih, List.map_cons]

/-- What a tree says, wherever it stands. -/
def bare (t : Tree) : Tree :=
  t.relocate fun _ => {}

mutual

theorem relocate_id : ∀ t : Tree, t.relocate id = t
  | .program body p => congrArg (Tree.program · p) (relocateAll_id body)
  | .number _ _ | .string _ _ | .identifier _ _ => rfl
  | .call head arguments p => congrArg (Tree.call head · p) (relocateAll_id arguments)
  | .define name value p => congrArg (Tree.define name · p) (relocate_id value)
  | .function name parameters body p =>
    congrArg (Tree.function name parameters · p) (relocate_id body)

theorem relocateAll_id : ∀ ts : List Tree, relocateAll id ts = ts
  | [] => rfl
  | t :: ts => by rw [relocateAll, relocate_id t, relocateAll_id ts]

end

mutual

theorem relocate_relocate (f g : Position → Position) :
    ∀ t : Tree, (t.relocate f).relocate g = t.relocate (g ∘ f)
  | .program body p =>
    congrArg (Tree.program · (g (f p))) (relocateAll_relocateAll f g body)
  | .number _ _ | .string _ _ | .identifier _ _ => rfl
  | .call head arguments p =>
    congrArg (Tree.call head · (g (f p))) (relocateAll_relocateAll f g arguments)
  | .define name value p =>
    congrArg (Tree.define name · (g (f p))) (relocate_relocate f g value)
  | .function name parameters body p =>
    congrArg (Tree.function name parameters · (g (f p))) (relocate_relocate f g body)

theorem relocateAll_relocateAll (f g : Position → Position) :
    ∀ ts : List Tree, relocateAll g (relocateAll f ts) = relocateAll (g ∘ f) ts
  | [] => rfl
  | t :: ts => by
    rw [relocateAll, relocateAll, relocateAll, relocate_relocate f g t,
      relocateAll_relocateAll f g ts]

end

theorem bare_relocate (f : Position → Position) (t : Tree) : (t.relocate f).bare = t.bare :=
  relocate_relocate f _ t

end Tree
end Lispette
