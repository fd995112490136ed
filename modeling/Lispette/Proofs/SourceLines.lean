import Lispette.Failure
import Lispette.Proofs.Places

/-!
The line that a place is on. Counting the line breaks up to a place and splitting the whole text at
its line breaks come to one line, and the column is how far the place is into it; so the caret under
the line stands where the cursor was.
-/

namespace Lispette

namespace Text

/-- The line on which the offset lies: it begins with the text or behind a line break, and ends with
the text or in front of one. -/
structure LineAt (text : List Char) (k : Nat) (earlier line later : List Char) : Prop where
  split : text = earlier ++ (line ++ later)
  single : '\n' ∉ line
  begins : ∀ c ∈ earlier.getLast?, c = '\n'
  ends : ∀ c ∈ later.head?, c = '\n'
  offset_ge : earlier.length ≤ k
  offset_le : k ≤ earlier.length + line.length

variable {text earlier line later : List Char} {k : Nat}

theorem length_lines (text : List Char) : (lines text).length = text.count '\n' + 1 := by
  induction text with
  | nil => rfl
  | cons c cs ih =>
    rw [lines] at ih ⊢
    by_cases newline : c = '\n' <;>
      simp [List.splitOn_cons_eq_if_modifyHead, newline, ih]

theorem head?_lines (single : '\n' ∉ line) (ends : ∀ c ∈ later.head?, c = '\n') :
    (lines (line ++ later))[0]? = some line := by
  cases later with
  | nil =>
    rw [List.append_nil, lines, List.splitOn_eq_singleton single]
    rfl
  | cons c cs =>
    obtain rfl : c = '\n' := ends c rfl
    rw [lines, List.splitOn_append_cons_self_of_not_mem single]
    rfl

/-- The line is the one behind as many others as there are line breaks before it. -/
theorem LineAt.getElem?_lines (located : LineAt text k earlier line later) :
    (lines text)[earlier.count '\n']? = some line := by
  have first := head?_lines located.single located.ends
  rw [located.split]
  rcases List.eq_nil_or_concat earlier with rfl | ⟨front, c, rfl⟩
  · exact first
  · obtain rfl : c = '\n' := located.begins c (by simp)
    have cut : lines (front ++ '\n' :: (line ++ later)) = lines front ++ lines (line ++ later) :=
      List.splitOn_append_cons_self ..
    have passed : (front ++ ['\n']).count '\n' = (lines front).length := by
      simp [length_lines, List.count_append]
    rw [List.concat_eq_append, passed, List.append_assoc, List.singleton_append, cut,
      List.getElem?_append_right (Nat.le_refl _), Nat.sub_self, first]

/-- The text before an offset ends in the front of a line, which is as long as the column says. -/
theorem exists_front (before : List Char) : ∃ earlier front, before = earlier ++ front ∧
    '\n' ∉ front ∧ (∀ c ∈ earlier.getLast?, c = '\n') ∧
    Position.after before = ⟨before.length, front.length, earlier.count '\n'⟩ := by
  let other (c : Char) : Bool := c ≠ '\n'
  have single : '\n' ∉ (before.reverse.takeWhile other).reverse := fun inside => by
    simpa [other] using List.mem_takeWhile_imp (List.mem_reverse.mp inside)
  have split : before =
      (before.reverse.dropWhile other).reverse ++ (before.reverse.takeWhile other).reverse := by
    rw [← List.reverse_append, List.takeWhile_append_dropWhile, List.reverse_reverse]
  refine ⟨_, _, split, single, fun c last => ?_, ?_⟩
  · rw [List.getLast?_reverse] at last
    simpa [other] using Front.dropWhile_stops other before.reverse c last
  · have breaks := congrArg (List.count '\n') split
    rw [List.count_append, List.count_eq_zero.mpr single, Nat.add_zero] at breaks
    rw [Position.after, breaks, List.length_reverse]

/-- The text from an offset on begins with the rest of a line. -/
theorem exists_rest (text : List Char) : ∃ rest later, text = rest ++ later ∧ '\n' ∉ rest ∧
    ∀ c ∈ later.head?, c = '\n' := by
  let other (c : Char) : Bool := c ≠ '\n'
  refine ⟨text.takeWhile other, text.dropWhile other, List.takeWhile_append_dropWhile.symm,
    fun inside => ?_, fun c first => ?_⟩
  · simpa [other] using List.mem_takeWhile_imp inside
  · simpa [other] using Front.dropWhile_stops other text c first

end Text

namespace Diagnostic

variable {source : String} {k : Nat} {d : Diagnostic}

/-- Where the cursor is after so many characters, a failure is shown on the line that holds the
place, with the caret as far into the line as the place is: under the character that comes next, or
just past the end of the line where that is a line break or the end of the text. -/
theorem render_at (inside : k ≤ source.toList.length)
    (here : d.position = Position.advanceAll {} (source.toList.take k)) :
    ∃ earlier row later, Text.LineAt source.toList k earlier row later ∧
      (Text.lines source.toList)[d.position.line]? = some row ∧
      d.render source =
        String.ofList (row ++ '\n' :: List.replicate d.position.column ' ') ++
          s!"^ {d.title}: {d.message}" ∧
      d.position.column ≤ row.length ∧
      source.toList.take k = earlier ++ row.take d.position.column ∧
      (∀ c, source.toList[k]? = some c → c ≠ '\n' → row[d.position.column]? = some c) ∧
      (source.toList[k]? = some '\n' ∨ k = source.toList.length →
        d.position.column = row.length) := by
  obtain ⟨earlier, front, before, singleFront, begins, place⟩ :=
    Text.exists_front (source.toList.take k)
  obtain ⟨rest, later, behind, singleRest, ends⟩ := Text.exists_rest (source.toList.drop k)
  rw [← Position.after_eq, place] at here
  have split : source.toList = earlier ++ (front ++ rest ++ later) := by
    rw [← List.take_append_drop k source.toList, before, behind]
    simp only [List.append_assoc]
  have offset : k = earlier.length + front.length := by
    rw [← List.length_append, ← before, List.length_take_of_le inside]
  have located : Text.LineAt source.toList k earlier (front ++ rest) later := by
    refine ⟨split, fun newline => ?_, begins, ends, by omega, ?_⟩
    · exact (List.mem_append.mp newline).elim singleFront singleRest
    · rw [List.length_append]
      omega
  have next : source.toList[k]? = (rest ++ later)[0]? := by
    rw [← behind, List.getElem?_drop, Nat.add_zero]
  have line := located.getElem?_lines
  rw [here]
  refine ⟨earlier, front ++ rest, later, located, line, ?_, by simp, ?_, fun c shown other => ?_,
    fun broken => ?_⟩
  · rw [render, sourceLine, here, line]
    rfl
  · rw [before, List.take_left]
  · rw [next] at shown
    rw [List.getElem?_append_right (Nat.le_refl _), Nat.sub_self]
    cases rest with
    | nil => exact absurd (ends c (by simpa [List.head?_eq_getElem?] using shown)) other
    | cons => exact shown
  · -- what follows in the line would be a line break, or stand behind the end of the text
    cases rest with
    | nil => rw [List.append_nil]
    | cons c cs =>
      rcases broken with newline | last
      · obtain rfl : c = '\n' := by simpa [next] using newline
        exact absurd List.mem_cons_self singleRest
      · have none : source.toList[k]? = none := List.getElem?_eq_none (Nat.le_of_eq last.symm)
        simp [next] at none

/-- A carriage return is part of its line; the caret stands just past it, where the line breaks. -/
theorem render_at_carriageReturn :
    3 ≤ "a\n\r\nb".toList.length ∧
    (⟨"LexError", "unexpected char $", ⟨3, 1, 1⟩⟩ : Diagnostic).position =
      Position.advanceAll {} ("a\n\r\nb".toList.take 3) ∧
    ∃ earlier line later, Text.LineAt "a\n\r\nb".toList 3 earlier line later ∧
      (Text.lines "a\n\r\nb".toList)[1]? = some line ∧
      (⟨"LexError", "unexpected char $", ⟨3, 1, 1⟩⟩ : Diagnostic).render "a\n\r\nb" =
        String.ofList (line ++ '\n' :: List.replicate 1 ' ') ++ "^ LexError: unexpected char $" ∧
      "a\n\r\nb".toList.take 3 = earlier ++ line.take 1 ∧ line.length = 1 := by
  have inside : 3 ≤ "a\n\r\nb".toList.length := by decide
  have here : (⟨"LexError", "unexpected char $", ⟨3, 1, 1⟩⟩ : Diagnostic).position =
      Position.advanceAll {} ("a\n\r\nb".toList.take 3) := by decide
  obtain ⟨earlier, line, later, located, shown, rendered, -, front, -, past⟩ :=
    render_at inside here
  exact ⟨inside, here, earlier, line, later, located, shown, rendered, front,
    (past (.inl (by decide))).symm⟩

end Diagnostic

end Lispette
