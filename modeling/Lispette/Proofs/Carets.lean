import Lispette.Proofs.Blame
import Lispette.Proofs.PromptLines

/-!
What the carets of the prompt point at. A failure is shown on the line that was entered last. It
happened there, or in the body of a function that an earlier line declares; and then the caret
stands where the failure is on that earlier line.
-/

namespace Lispette

theorem Store.Meets.cleared {std : Standard} {s : Store} (meets : s.Meets std) :
    s.cleared.Meets std :=
  meets.of_eq rfl rfl

theorem Store.HasScope.cleared {s : Store} {scope : Scope} (has : s.HasScope scope) :
    s.cleared.HasScope scope :=
  has

theorem Position.eq_of_within {text : List Char} {p : Position} (within : p.Within text)
    (single : '\n' ∉ text) : p = ⟨p.offset, p.offset, 0⟩ := by
  obtain ⟨le, reached⟩ := within
  have other : ∀ c ∈ (text.take p.offset).reverse, (decide (c ≠ '\n')) = true := by
    intro c member
    have inside : c ∈ text := List.mem_of_mem_take (List.mem_reverse.mp member)
    exact decide_eq_true fun newline => single (newline ▸ inside)
  have none : (text.take p.offset).count '\n' = 0 :=
    List.count_eq_zero.mpr fun inside => single (List.mem_of_mem_take inside)
  have length : (text.take p.offset).length = p.offset := List.length_take_of_le le
  calc p = after (text.take p.offset) := reached.trans (after_eq _).symm
    _ = ⟨p.offset, p.offset, 0⟩ := by
      rw [after, List.takeWhile_eq_self_iff.mpr other, List.length_reverse, length, none]

def Failure.subject? : Failure → Option String
  | .scan _ | .parse _ => none
  | .eval e => e.cause.subject?

/-- A caret under the failing column of the line is where the failure is: in the line or just past
its end, and under the name that the message is about. -/
structure Failure.FitsLine (line : String) (e : Failure) : Prop where
  line_eq : e.diagnostic.position.line = 0
  column_le : e.diagnostic.position.column ≤ line.length
  shows : e.Shows line
  named (name : String) (subject : e.subject? = some name) :
    name.toList <+: line.toList.drop e.diagnostic.position.column

theorem Failure.PointsInto.fitsLine {line : String} {e : Failure} (points : e.PointsInto line)
    (single : '\n' ∉ line.toList) : e.FitsLine line := by
  have flat := Position.eq_of_within points.within single
  have column : e.diagnostic.position.column = e.diagnostic.position.offset :=
    congrArg Position.column flat
  refine ⟨congrArg Position.line flat, ?_, points.shows, fun name subject => ?_⟩
  · rw [column, ← String.length_toList]
    exact points.within.offset_le
  · cases e with
    | scan e => cases subject
    | parse e => cases subject
    | eval e =>
      obtain ⟨tokens, t, scanned, blames⟩ := points.shows
      obtain ⟨front, p, back, split, -, lexeme, position⟩ :=
        Token.exists_piece scanned (Token.mem_of_mem_significant blames.member)
      have here : e.position.column = front.length := by
        refine column.trans ?_
        show e.position.offset = front.length
        rw [blames.position, position, Position.after]
      have spelled : p.chars = name.toList := by
        rw [Piece.chars_of_lexeme? lexeme blames.spelled, blames.named name subject]
      show name.toList <+: line.toList.drop e.position.column
      rw [here, split, List.drop_left, spelled]
      exact List.prefix_append _ _

theorem Failure.FitsLine.render {line source : String} {e : Failure} (fits : e.FitsLine line)
    (single : '\n' ∉ source.toList) : e.diagnostic.render source =
      String.ofList (source.toList ++ '\n' :: List.replicate e.diagnostic.position.column ' ') ++
        s!"^ {e.diagnostic.title}: {e.diagnostic.message}" := by
  have whole : e.diagnostic.sourceLine source = source.toList := by
    unfold Diagnostic.sourceLine Text.lines
    rw [fits.line_eq, List.splitOn_eq_singleton single]
    rfl
  rw [Diagnostic.render, whole]

namespace Workspace

variable {w : Workspace} {o : Options} {source : String} {e : Failure}

/-- The closures in the workspace were declared on the lines seen so far. -/
structure Holds (seen : List String) (w : Workspace) : Prop where
  store : w.store.Meets (.ofSources fun line => line ∈ seen ∧ DeclaresFunction line)
  scope : w.store.HasScope w.scope

theorem run_next (w : Workspace) (o : Options) (source : String) :
    (w.run o source).2.2 = { w with store := ((w.execute o source).after w.store).cleared } := by
  unfold run Action.after
  cases w.execute o source w.store <;> rfl

theorem execute_of_run (failed : (w.run o source).1 = .error e) :
    ∃ t, w.execute o source w.store = .error e t := by
  unfold run at failed
  cases run : w.execute o source w.store with
  | ok shown t => simp [run] at failed
  | error e' t =>
    obtain rfl : e' = e := by simpa [run] using failed
    exact ⟨t, rfl⟩

theorem cause_of_run (failed : (w.run o source).1 = .error e) :
    Tree.ofSource source = .error e ∨
      ∃ t, evaluate w.meter w.scope source w.store = .error e t := by
  obtain ⟨t, failed⟩ := execute_of_run failed
  unfold execute at failed
  split at failed
  · obtain ⟨s, -, read⟩ := readSource_run source w.store
    cases said : Tree.ofSource source with
    | ok tree =>
      rw [said] at read
      rw [Action.bind_of_ok read] at failed
      cases failed
    | error e' =>
      rw [said] at read
      rw [Action.bind_of_error read] at failed
      cases failed
      exact .inl rfl
  · cases run : evaluate w.meter w.scope source w.store with
    | ok v s =>
      rw [Action.bind_of_ok run] at failed
      cases failed
    | error e' s =>
      rw [Action.bind_of_error run] at failed
      cases failed
      exact .inr ⟨_, rfl⟩

theorem meets_execute {std : Standard} (upheld : std.Upheld)
    (admitted : ∀ t, Tree.ofSource source = .ok t → std.admits t) (store : w.store.Meets std)
    (has : w.store.HasScope w.scope) :
    Store.Grows w.store ((w.execute o source).after w.store) ∧
      ((w.execute o source).after w.store).Meets std := by
  unfold execute
  split
  · obtain ⟨s, noted, read⟩ := readSource_run source w.store
    have kept : Store.Grows w.store s ∧ s.Meets std := ⟨noted.grows, store.of_noted noted⟩
    cases said : Tree.ofSource source with
    | ok tree =>
      rw [said] at read
      rwa [Action.after_congr (Action.bind_of_ok read)]
    | error e =>
      rw [said] at read
      rwa [Action.after_of_error (Action.bind_of_error read)]
  · have ends := (meets_evaluate upheld w.meter admitted store has).store
    cases run : evaluate w.meter w.scope source w.store with
    | ok v s =>
      rw [Action.after_of_ok run] at ends
      rw [Action.after_congr (Action.bind_of_ok run)]
      exact ⟨ends.1.trans (.of_eq rfl rfl), ends.2.record _⟩
    | error e s =>
      rw [Action.after_of_error run] at ends
      rwa [Action.after_of_error (Action.bind_of_error run)]

variable {seen : List String}

/-- While a source runs, what is at work stands on it or on a line seen before. -/
theorem Holds.now (holds : w.Holds seen) (source : String) : w.store.Meets
    (.ofSources fun line => line = source ∨ line ∈ seen ∧ DeclaresFunction line) := by
  refine holds.store.imp fun t approved => ?_
  obtain ⟨line, tokens, known, declares, rest⟩ := approved
  exact ⟨line, tokens, .inr known, declares, rest⟩

theorem Holds.run (holds : w.Holds seen) (o : Options) (source : String) :
    (w.run o source).2.2.Holds (seen ++ [source]) := by
  obtain ⟨grows, store⟩ := meets_execute (o := o) (Standard.ofSources_upheld _)
    (fun t said => Standard.admits_of_ofSource (.inl rfl) said) (holds.now source) holds.scope
  rw [run_next]
  refine ⟨(store.imp fun t approved => ?_).cleared, (holds.scope.mono grows).cleared⟩
  obtain ⟨line, tokens, known, declares, rest⟩ := approved
  refine ⟨line, tokens, ⟨?_, declares⟩, declares, rest⟩
  rcases known with rfl | ⟨old, -⟩
  · exact List.mem_append_right _ (List.mem_singleton_self _)
  · exact List.mem_append_left _ old

theorem Holds.pointsInto (holds : w.Holds seen) (failed : (w.run o source).1 = .error e) :
    e.PointsInto source ∨ ∃ line ∈ seen, DeclaresFunction line ∧ (∃ inner, e = .eval inner) ∧
      e.PointsInto line := by
  rcases cause_of_run failed with unread | ⟨t, failed⟩
  · exact .inl (Tree.pointsInto_of_ofSource unread)
  · rcases evaluate_pointsInto (.inl rfl) (holds.now source) holds.scope failed with
      here | ⟨inner, line, evaluated, rfl | ⟨old, declares⟩, points⟩
    · exact .inl here
    · exact .inl points
    · exact .inr ⟨line, old, declares, ⟨inner, evaluated⟩, points⟩

theorem start_eq (o : Options) (limit : Nat) : (start o limit).2 =
    ⟨Session.startScope, 0, (Session.startStore limit).cleared⟩ := by
  have made := Action.sure_of_ok (Store.prelude_run (Store.newMeter {} limit).2)
  have scope : (Store.newMeter {} limit).2.newPrelude.1 = Session.startScope := rfl
  have opened : (start o limit).2 = ⟨(Scope.prelude.sure (Store.newMeter {} limit).2).1, 0,
    (Scope.prelude.sure (Store.newMeter {} limit).2).2.cleared⟩ := rfl
  rw [opened, made, scope, Session.startStore]

theorem holds_start (o : Options) (limit : Nat) : (start o limit).2.Holds [] := by
  obtain ⟨meets, has⟩ := Session.meets_start
    (.ofSources fun line => line ∈ [] ∧ DeclaresFunction line) limit
  rw [start_eq]
  exact ⟨meets.cleared, has.cleared⟩

end Workspace

namespace Prompt

theorem holds_after (o : Options) {w : Workspace} {seen : List String} (holds : w.Holds seen)
    (sources : List String) : (after w o sources).Holds (seen ++ sources) := by
  induction sources generalizing w seen with
  | nil => simpa [after] using holds
  | cons source sources ih => simpa [after] using ih (holds.run o source)

/-- The failure of a source that is run in a workspace. -/
def failure? (w : Workspace) (o : Options) (source : String) : Option Failure :=
  match (w.run o source).1 with
  | .ok _ => none
  | .error e => some e

variable {o : Options} {limit : Nat} {input : List UInt8} {earlier later : List String}
  {source : String} {e : Failure}

theorem run_of_failure? {w : Workspace} (failed : failure? w o source = some e) :
    (w.run o source).1 = .error e := by
  unfold failure? at failed
  split at failed
  · cases failed
  · next run =>
    cases failed
    exact run

theorem enter_of_run {w : Workspace} (failed : (w.run o source).1 = .error e) :
    (enter w o source).1 = (w.run o source).2.1 ++ .errLine (e.diagnostic.render source) := by
  unfold enter
  rcases run : w.run o source with ⟨_ | _, output, next⟩
  · rw [run] at failed
    cases failed
    rfl
  · rw [run] at failed
    cases failed

/-- At the prompt a failing line is shown with a caret under the failing column. The caret fits the
line, unless the failure happened in the body of a function that an earlier line declares, and then
it fits that line. -/
theorem failure_fitsLine (entered : sources (inputLines input) = earlier ++ source :: later)
    (failed : failure? (after (Workspace.start o limit).2 o earlier) o source = some e) :
    (∃ before rest, (runPrompt o limit input).2 = before ++ .errLine
      (String.ofList (source.toList ++ '\n' :: List.replicate e.diagnostic.position.column ' ') ++
        s!"^ {e.diagnostic.title}: {e.diagnostic.message}") ++ rest) ∧
    (e.FitsLine source ∨ ∃ line ∈ earlier, DeclaresFunction line ∧ (∃ inner, e = .eval inner) ∧
      e.FitsLine line) := by
  have single : ∀ line ∈ earlier ++ source :: later, '\n' ∉ line.toList := by
    rw [← entered]
    exact fun line => not_mem_of_mem_sources (List.Subset.refl _)
  have inside : source ∈ earlier ++ source :: later := by simp
  have failed := run_of_failure? failed
  have fits : e.FitsLine source ∨ ∃ line ∈ earlier, DeclaresFunction line ∧
      (∃ inner, e = .eval inner) ∧ e.FitsLine line := by
    have holds := holds_after o (Workspace.holds_start o limit) earlier
    rcases holds.pointsInto failed with points | ⟨line, old, declares, evaluated, points⟩
    · exact .inl (points.fitsLine (single source inside))
    · exact .inr ⟨line, old, declares, evaluated,
        points.fitsLine (single line (List.mem_append_left _ old))⟩
  refine ⟨?_, fits⟩
  obtain ⟨line, fits⟩ : ∃ line, e.FitsLine line :=
    fits.elim (fun here => ⟨source, here⟩) fun ⟨line, _, _, _, there⟩ => ⟨line, there⟩
  obtain ⟨before, rest, split⟩ := exists_run_eq (Workspace.start o limit).2 entered
  rw [enter_of_run failed, fits.render (single source inside)] at split
  refine ⟨(Workspace.start o limit).1 ++ (before ++
    ((after (Workspace.start o limit).2 o earlier).run o source).2.1), rest, ?_⟩
  show (Workspace.start o limit).1 ++ run (Workspace.start o limit).2 o (inputLines input) = _
  rw [split]
  simp only [Output.append_assoc]

/-- A function declared on one line and called on the next. -/
def calledLater : List UInt8 :=
  "(fn f [] x)\n(f)\n".toUTF8.toList

theorem sources_calledLater :
    sources (inputLines calledLater) = ["(fn f [] x)"] ++ "(f)" :: [] := by decide +kernel

theorem failure?_calledLater :
    failure? (after (Workspace.start {} 1).2 {} ["(fn f [] x)"]) {} "(f)" =
      some (.eval ⟨.notDefined "x", ⟨9, 9, 0⟩⟩) := by decide +kernel

theorem failure_fitsLine_calledLater :
    sources (inputLines calledLater) = ["(fn f [] x)"] ++ "(f)" :: [] ∧
    failure? (after (Workspace.start {} 1).2 {} ["(fn f [] x)"]) {} "(f)" =
      some (.eval ⟨.notDefined "x", ⟨9, 9, 0⟩⟩) ∧
    (∃ before rest, (runPrompt {} 1 calledLater).2 = before ++ .errLine
      (String.ofList ("(f)".toList ++ '\n' :: List.replicate 9 ' ') ++
        "^ ReferenceError: x is not defined") ++ rest) ∧
    ((Failure.eval ⟨.notDefined "x", ⟨9, 9, 0⟩⟩).FitsLine "(f)" ∨
      ∃ line ∈ ["(fn f [] x)"], DeclaresFunction line ∧
        (∃ inner, Failure.eval ⟨.notDefined "x", ⟨9, 9, 0⟩⟩ = .eval inner) ∧
        (Failure.eval ⟨.notDefined "x", ⟨9, 9, 0⟩⟩).FitsLine line) := by
  obtain ⟨⟨before, rest, shown⟩, fits⟩ :=
    failure_fitsLine sources_calledLater failure?_calledLater
  exact ⟨sources_calledLater, failure?_calledLater, ⟨before, rest, shown⟩, fits⟩

/-- The caret under the last line is far past its end: the column is one of the first line. -/
theorem not_fitsLine_calledLater :
    sources (inputLines calledLater) = ["(fn f [] x)"] ++ "(f)" :: [] ∧
    ∃ e, failure? (after (Workspace.start {} 1).2 {} ["(fn f [] x)"]) {} "(f)" = some e ∧
      ¬ e.FitsLine "(f)" := by
  refine ⟨sources_calledLater, _, failure?_calledLater, fun fits => ?_⟩
  have column : 9 ≤ "(f)".length := fits.column_le
  exact absurd column (by decide)

end Prompt

end Lispette
