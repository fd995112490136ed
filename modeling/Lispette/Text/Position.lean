/-!
Places in a text. A position counts the characters before it, the line breaks before it, and
the characters since the last line break.
-/

namespace Lispette

structure Position where
  offset : Nat := 0
  column : Nat := 0
  line : Nat := 0
  deriving DecidableEq, Inhabited

namespace Position

def advance (p : Position) (c : Char) : Position :=
  if c = '\n' then ⟨p.offset + 1, 0, p.line + 1⟩ else ⟨p.offset + 1, p.column + 1, p.line⟩

def advanceAll (p : Position) (cs : List Char) : Position :=
  cs.foldl advance p

/-- The position before the first character and after each one. -/
def trail (p : Position) : List Char → List Position
  | [] => [p]
  | c :: cs => p :: (p.advance c).trail cs

/-- Readers count lines and columns from one. -/
def label (p : Position) : String :=
  s!"[line {p.line + 1}, column {p.column + 1}]"

@[simp] theorem advanceAll_nil (p : Position) : p.advanceAll [] = p := rfl

@[simp] theorem advanceAll_cons (p : Position) (c : Char) (cs : List Char) :
    p.advanceAll (c :: cs) = (p.advance c).advanceAll cs := rfl

theorem advanceAll_append (p : Position) (cs ds : List Char) :
    p.advanceAll (cs ++ ds) = (p.advanceAll cs).advanceAll ds := by
  simp [advanceAll, List.foldl_append]

theorem advance_newline (p : Position) : p.advance '\n' = ⟨p.offset + 1, 0, p.line + 1⟩ := rfl

theorem advance_of_ne {c : Char} (p : Position) (h : c ≠ '\n') :
    p.advance c = ⟨p.offset + 1, p.column + 1, p.line⟩ := by
  simp [advance, h]

theorem offset_advance (p : Position) (c : Char) : (p.advance c).offset = p.offset + 1 := by
  unfold advance
  split <;> rfl

theorem offset_advanceAll (p : Position) (cs : List Char) :
    (p.advanceAll cs).offset = p.offset + cs.length := by
  induction cs generalizing p with
  | nil => rfl
  | cons c cs ih => simp only [advanceAll_cons, ih, offset_advance, List.length_cons]; omega

end Position
end Lispette
