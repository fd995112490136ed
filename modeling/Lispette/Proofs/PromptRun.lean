import Lispette.CommandLine
import Lispette.Proofs.Carets
import Lispette.Proofs.Isolation
import Lispette.Proofs.Joining

/-!
What the prompt does with its whole input. Its lines are evaluated one after the other in one
session, as far as the line that ends it; what it writes can be read off the answers of the session.
-/

namespace Lispette

open List (Forall₂)

/-- A store of which the output has been taken holds what it held, and goes on in the same way. -/
theorem Store.mirrors_cleared (s : Store) :
    s.Mirrors .unmoved s.printed.toList [] s.cleared where
  frame _ := List.forall₂_same.mpr fun binding _ => ⟨rfl, binding.2.moved_self ⟨rfl, rfl⟩⟩
  nextFrame _ := rfl
  nextFunction _ := rfl
  meter _ := rfl
  printed := ⟨[], [], by simp, rfl, .nil⟩

section

variable {s t : Store} {before before' : List (List Value)}

theorem Store.Mirrors.cleared_eq (mirrors : s.Mirrors .unmoved before before' t)
    (meters : t.meters = s.meters) : t.cleared = s.cleared := by
  have functionCount : t.functionCount = s.functionCount := (mirrors.nextFunction 0).symm
  rw [cleared, cleared, mirrors.frames_unmoved, meters, functionCount]

theorem evaluate_unmoved (source : String) (scope : Scope) (meter : Nat)
    (mirrors : s.Mirrors .unmoved before before' t) :
    Mirror.unmoved.Outcomes before before' Eq (evaluate meter scope source s)
      (evaluate meter scope source t) := by
  cases said : Tree.ofSource source with
  | ok tree =>
    have outcomes := mirrors_evaluate said said (tree.moved_self ⟨rfl, rfl⟩)
      (fun e e' failures => congrArg Failure.eval (Mirror.eq_of_failures failures).symm) scope meter
      mirrors
    rwa [Mirror.scope_moved] at outcomes
  | error e => exact mirrors_evaluate_refused said said rfl _ _ _ _ mirrors

theorem meters_evaluate (source : String) (scope : Scope) (meter : Nat) (s : Store) :
    ((evaluate meter scope source).after s).meters = s.meters := by
  cases said : Tree.ofSource source with
  | ok tree =>
    obtain ⟨t, noted, run⟩ := evaluate_of_tree said meter scope s
    rw [Action.after_congr run, Action.after_mapError, tree.meters_eval, noted.meters]
  | error e =>
    obtain ⟨t, noted, run⟩ := evaluate_of_failure said meter scope s
    rw [Action.after_of_error run, noted.meters]

end

/-- What calls of `print` write. -/
def printedText (printed : List (List Value)) : String :=
  String.join (printed.map fun values => printedLine values ++ "\n")

namespace Output

variable {α : Type}

theorem concat_outLine (text : α → String) (as : List α) :
    concat (as.map fun a => outLine (text a)) =
      { out := String.join (as.map fun a => text a ++ "\n") } := by
  induction as with
  | nil => rfl
  | cons a as ih =>
    have first : concat ((a :: as).map fun a => outLine (text a)) =
      outLine (text a) ++ concat (as.map fun a => outLine (text a)) := rfl
    rw [first, ih, List.map_cons, String.join_cons]
    rfl

theorem out_concat_errLine (texts : List String) : (concat (texts.map errLine)).out = "" := by
  induction texts with
  | nil => rfl
  | cons text texts ih =>
    have first : concat ((text :: texts).map errLine) =
      errLine text ++ concat (texts.map errLine) := rfl
    rw [first, out_append, ih]
    rfl

end Output

namespace Store

variable (s : Store) (o : Options)

theorem out_output : (s.output o).out = printedText s.printed.toList := by
  have journal : (s.journalOutput o).out = "" := by
    unfold journalOutput
    split
    · rfl
    · exact Output.out_concat_errLine _
  rw [output, Output.out_append, journal, printedOutput, Output.concat_outLine, String.append_empty,
    printedText]

theorem err_output (quiet : o.verbosity = 0) : (s.output o).err = "" := by
  have journal : s.journalOutput o = {} := by
    rw [journalOutput, Options.level, quiet]
    rfl
  rw [output, Output.err_append, journal, printedOutput, Output.concat_outLine]
  rfl

end Store

/-- What an answer writes to the output: the value on a line of its own. -/
def Answer.shownLine : Answer → String
  | .value v => v.shown ++ "\n"
  | _ => ""

/-- What an answer writes to the error output: the failure, shown on the line that was entered. -/
def Answer.rendering (line : String) : Answer → String
  | .failure e => e.diagnostic.render line ++ "\n"
  | _ => ""

/-- Behind other sources a source is evaluated as in a store from which their output has not been
taken; what is printed meanwhile is the same. -/
theorem evaluate_cleared (source : String) (scope : Scope) (meter : Nat) (s : Store) :
    ∃ t t', ((∃ v, evaluate meter scope source s = .ok v t ∧
          evaluate meter scope source s.cleared = .ok v t') ∨
        ∃ e, evaluate meter scope source s = .error e t ∧
          evaluate meter scope source s.cleared = .error e t') ∧
      t'.cleared = t.cleared ∧ t.printed.toList = s.printed.toList ++ t'.printed.toList := by
  have outcomes := evaluate_unmoved source scope meter s.mirrors_cleared
  have meters : ((evaluate meter scope source).after s.cleared).meters =
      ((evaluate meter scope source).after s).meters := by
    rw [meters_evaluate, meters_evaluate, Store.cleared]
  have printed {t t' : Store} (stores : t.Mirrors .unmoved s.printed.toList [] t') :
      t.printed.toList = s.printed.toList ++ t'.printed.toList := by
    obtain ⟨new, new', first, second, related⟩ := stores.printed
    have same : new' = new := by
      simpa using map_eq_of_forall₂ (f := id) (g := id) related fun _ _ => Mirror.eq_of_values
    rw [first, second, same, List.nil_append]
  generalize run : evaluate meter scope source s = r,
    run' : evaluate meter scope source s.cleared = r' at outcomes
  cases outcomes with
  | @ok v _ t t' values stores =>
    obtain rfl := values.eq
    rw [Action.after_of_ok run, Action.after_of_ok run'] at meters
    exact ⟨t, t', .inl ⟨_, rfl, rfl⟩, stores.cleared_eq meters, printed stores⟩
  | @error e _ t t' failed stores =>
    obtain rfl := failed
    rw [Action.after_of_error run, Action.after_of_error run'] at meters
    exact ⟨t, t', .inr ⟨e, rfl, rfl⟩, stores.cleared_eq meters, printed stores⟩

namespace Workspace

variable {w : Workspace} {o : Options} {source : String} {v : Value} {e : Failure} {t : Store}

theorem run_of_ok (plain : o.showTree = false)
    (run : evaluate w.meter w.scope source w.store = .ok v t) : w.run o source =
      (.ok (.value v), (t.record (.evaluated v.kind)).output o, { w with store := t.cleared }) := by
  have executed : w.execute o source w.store = .ok (.value v) (t.record (.evaluated v.kind)) := by
    rw [execute, plain]
    exact Action.bind_of_ok run
  rw [Workspace.run, executed]
  rfl

theorem run_of_error (plain : o.showTree = false)
    (run : evaluate w.meter w.scope source w.store = .error e t) :
    w.run o source = (.error e, t.output o, { w with store := t.cleared }) := by
  have executed : w.execute o source w.store = .error e t := by
    rw [execute, plain]
    exact Action.bind_of_error run
  rw [Workspace.run, executed]

theorem output_start (o : Options) (limit : Nat) :
    (start o limit).1 = (Session.startStore limit).output o :=
  congrArg (fun made : Scope × Store => made.2.output o)
    (Action.sure_of_ok (Store.prelude_run (Store.newMeter {} limit).2))

/-- Nothing is printed before the first line. -/
theorem out_start (o : Options) (limit : Nat) : (start o limit).1.out = "" := by
  have silent : (Session.startStore limit).printed = #[] := Store.printed_newPrelude _
  rw [output_start, Store.out_output, silent]
  rfl

end Workspace

namespace Prompt

variable {o : Options}

/-- Entering a line is evaluating it in a session, and writing what it printed and its answer. -/
theorem enter_cleared (plain : o.showTree = false) (s : Store) (scope : Scope) (source : String) :
    ∃ answer t, (Session.single s scope).step
        (.evaluate Session.rootName Session.mainName source) =
          some (answer, Session.single t scope) ∧
      (enter ⟨scope, 0, s.cleared⟩ o source).2 = ⟨scope, 0, t.cleared⟩ ∧
      (enter ⟨scope, 0, s.cleared⟩ o source).1.out =
        printedText ((Session.single t scope).printedSince (Session.single s scope)) ++
          answer.shownLine ∧
      (o.verbosity = 0 →
        (enter ⟨scope, 0, s.cleared⟩ o source).1.err = answer.rendering source) := by
  obtain ⟨t, t', either, held, printed⟩ := evaluate_cleared source scope 0 s
  have since : (Session.single t scope).printedSince (Session.single s scope) = t'.printed.toList :=
    Session.printedSince_of_append printed
  rcases either with ⟨v, run, run'⟩ | ⟨e, run, run'⟩
  · have entered : enter ⟨scope, 0, s.cleared⟩ o source =
        (Store.output (t'.record (.evaluated v.kind)) o ++ .outLine v.shown,
          ⟨scope, 0, t'.cleared⟩) := by
      rw [enter, Workspace.run_of_ok plain run']
      rfl
    refine ⟨.value v, t, ?_, ?_, ?_, ?_⟩
    · rw [Session.step_single, run]
    · rw [entered, held]
    · rw [entered, since, Output.out_append, Store.out_output]
      rfl
    · intro quiet
      rw [entered, Output.err_append, Store.err_output _ _ quiet]
      rfl
  · have entered : enter ⟨scope, 0, s.cleared⟩ o source =
        (t'.output o ++ .errLine (e.diagnostic.render source), ⟨scope, 0, t'.cleared⟩) := by
      rw [enter, Workspace.run_of_error plain run']
    refine ⟨.failure e, t, ?_, ?_, ?_, ?_⟩
    · rw [Session.step_single, run]
    · rw [entered, held]
    · rw [entered, since, Output.out_append, Store.out_output]
      rfl
    · intro quiet
      rw [entered, Output.err_append, Store.err_output _ _ quiet]
      rfl

/-- The prompt writes what the answers say: a mark and then what was printed and the value for each
line, and a last mark; and the failures. -/
theorem run_cleared (plain : o.showTree = false) (scope : Scope) (inputs : List (List UInt8))
    (s : Store) : ∃ results final,
      (Session.single s scope).answers ((sources inputs).map
        (.evaluate Session.rootName Session.mainName)) = some (results, final) ∧
      (run ⟨scope, 0, s.cleared⟩ o inputs).out =
        String.join (results.map fun r => "> " ++ printedText r.2 ++ r.1.shownLine) ++ "> " ∧
      (o.verbosity = 0 → (run ⟨scope, 0, s.cleared⟩ o inputs).err =
        String.join (List.zipWith (fun line r => r.1.rendering line) (sources inputs) results)) := by
  induction inputs generalizing s with
  | nil => exact ⟨[], _, rfl, rfl, fun _ => rfl⟩
  | cons input inputs ih =>
    cases said : source? input with
    | none =>
      have ends : run ⟨scope, 0, s.cleared⟩ o (input :: inputs) = mark := by rw [run, said]
      have none : sources (input :: inputs) = [] := by rw [sources, said]
      rw [ends, none]
      exact ⟨[], _, rfl, rfl, fun _ => rfl⟩
    | some source =>
      obtain ⟨answer, t, taken, next, out, err⟩ := enter_cleared plain s scope source
      obtain ⟨results, final, answers, outs, errs⟩ := ih t
      have entered : run ⟨scope, 0, s.cleared⟩ o (input :: inputs) =
          mark ++ (enter ⟨scope, 0, s.cleared⟩ o source).1 ++
            run ⟨scope, 0, t.cleared⟩ o inputs := by
        rw [run, said]
        dsimp only
        rw [next]
      have first : sources (input :: inputs) = source :: sources inputs := by rw [sources, said]
      rw [first, List.map_cons, Session.answers_cons _ taken, answers, entered]
      refine ⟨_, final, rfl, ?_, fun quiet => ?_⟩
      · rw [Output.out_append, Output.out_append, out, outs, List.map_cons, String.join_cons]
        simp only [mark, String.append_assoc]
      · rw [Output.err_append, Output.err_append, err quiet, errs quiet, List.zipWith_cons_cons,
          String.join_cons]
        simp [mark]

/-- The lines are the bytes of the input in order; each line but the last ends in a line break, and
no line has one before its end. -/
structure LinesOf (input : List UInt8) (lines : List (List UInt8)) : Prop where
  flatten : lines.flatten = input
  nonempty (line : List UInt8) (member : line ∈ lines) : line ≠ []
  unbroken (line : List UInt8) (member : line ∈ lines) : 10 ∉ line.dropLast
  broken (line : List UInt8) (member : line ∈ lines.dropLast) : line.getLast? = some 10

theorem ne_nil_of_mem_inputLines {input line : List UInt8} (member : line ∈ inputLines input) :
    line ≠ [] := by
  induction input generalizing line with
  | nil => cases member
  | cons b bs ih =>
    unfold inputLines at member
    split at member
    · rcases List.mem_cons.mp member with rfl | later
      · exact List.cons_ne_nil _ _
      · exact ih later
    · split at member
      · rw [List.mem_singleton.mp member]
        exact List.cons_ne_nil _ _
      · next first lines further =>
        rcases List.mem_cons.mp member with rfl | later
        · exact List.cons_ne_nil _ _
        · exact ih (further ▸ List.mem_cons_of_mem _ later)

theorem getLast?_of_mem_inputLines {input line : List UInt8}
    (member : line ∈ (inputLines input).dropLast) : line.getLast? = some 10 := by
  induction input generalizing line with
  | nil => cases member
  | cons b bs ih =>
    have filled : ∀ line ∈ inputLines bs, line ≠ [] := fun _ => ne_nil_of_mem_inputLines
    unfold inputLines at member
    generalize inputLines bs = lines at member ih filled
    split at member
    · next newline =>
      subst newline
      cases lines with
      | nil => cases member
      | cons first lines =>
        rcases List.mem_cons.mp member with rfl | later
        · rfl
        · exact ih later
    · obtain _ | ⟨first, _ | ⟨second, lines⟩⟩ := lines
      · cases member
      · cases member
      · rcases List.mem_cons.mp member with rfl | later
        · have ends : first.getLast? = some 10 := ih List.mem_cons_self
          rwa [List.getLast?_cons_of_ne_nil (filled first List.mem_cons_self)]
        · exact ih (List.mem_cons_of_mem _ later)

theorem linesOf_inputLines (input : List UInt8) : LinesOf input (inputLines input) where
  flatten := flatten_inputLines input
  nonempty _ := ne_nil_of_mem_inputLines
  unbroken _ := not_mem_dropLast_of_mem_inputLines
  broken _ := getLast?_of_mem_inputLines

/-- A line as text, without white space at its end. -/
def lineText? (line : List UInt8) : Option String :=
  (decodeText line).map fun text => String.ofList (Text.trimEnd text.toList)

theorem source?_eq (line : List UInt8) :
    source? line = (lineText? line).filter (· ≠ leaveWord) := by
  rw [source?, lineText?]
  cases decodeText line with
  | none => rfl
  | some text =>
    show (if String.ofList (Text.trimEnd text.toList) = leaveWord then none else some _) = _
    rw [Option.map_some, Option.filter_some]
    split <;> simp_all

/-- The sources that are run are the lines before the first that is no text or the leave word. -/
theorem exists_stop (inputs : List (List UInt8)) : ∃ rest,
    inputs.map lineText? = (sources inputs).map some ++ rest ∧
      (∀ line ∈ sources inputs, line ≠ leaveWord) ∧
      ∀ first ∈ rest.head?, first = none ∨ first = some leaveWord := by
  induction inputs with
  | nil => exact ⟨[], rfl, by simp [sources], by simp⟩
  | cons input inputs ih =>
    have said := source?_eq input
    rw [List.map_cons, sources]
    cases text : lineText? input with
    | none =>
      rw [text] at said
      rw [said]
      exact ⟨none :: inputs.map lineText?, rfl, by simp, by simp⟩
    | some line =>
      rw [text, Option.filter_some] at said
      by_cases leave : line = leaveWord
      · rw [said, if_neg (by simpa using leave)]
        refine ⟨some line :: inputs.map lineText?, rfl, by simp, ?_⟩
        simp [leave]
      · rw [said, if_pos (by simpa using leave)]
        obtain ⟨rest, split, others, stop⟩ := ih
        refine ⟨rest, congrArg (some line :: ·) split, ?_, stop⟩
        exact List.forall_mem_cons.mpr ⟨leave, others⟩

end Prompt

/-- The prompt is a fold over the lines of its input, without white space at their ends, up to the
first that is the leave word or no text: they are evaluated one after the other in one session, with
one prelude and one interpreter. What is written is a mark for each line, then what the line prints
and, if it succeeds, its value, and a last mark; and the failures of the lines that fail. -/
theorem runCommand_prompt {args : List String} {o : Options} {limit : Nat}
    (planned : Plan.ofArguments args = .prompt o limit) (plain : o.showTree = false)
    (readScript : String → Except FileFault String) (input : List UInt8) :
    ∃ cut lines rest results final, Prompt.LinesOf input cut ∧
      cut.map Prompt.lineText? = lines.map some ++ rest ∧ (∀ line ∈ lines, line ≠ ".exit") ∧
      (∀ first ∈ rest.head?, first = none ∨ first = some ".exit") ∧
      (Session.start limit).answers
        (lines.map (.evaluate Session.rootName Session.mainName)) = some (results, final) ∧
      results.length = lines.length ∧ (runCommand args readScript input).1 = 0 ∧
      (runCommand args readScript input).2.out =
        String.join (results.map fun r => "> " ++ printedText r.2 ++ r.1.shownLine) ++ "> " ∧
      (o.verbosity = 0 → (runCommand args readScript input).2.err =
        String.join (List.zipWith (fun line r => r.1.rendering line) lines results)) := by
  obtain ⟨rest, texts, others, stop⟩ := Prompt.exists_stop (Prompt.inputLines input)
  obtain ⟨results, final, answers, out, err⟩ := Prompt.run_cleared plain Session.startScope
    (Prompt.inputLines input) (Session.startStore limit)
  rw [← Session.start_eq] at answers
  refine ⟨_, _, rest, results, final, Prompt.linesOf_inputLines input, texts, others, stop, answers,
    (Session.length_answers answers).trans (List.length_map _), ?_⟩
  have command : runCommand args readScript input = (0, (Workspace.start o limit).1 ++
      Prompt.run ⟨Session.startScope, 0, (Session.startStore limit).cleared⟩ o
        (Prompt.inputLines input)) := by
    rw [runCommand, planned, ← Workspace.start_eq o]
    rfl
  rw [command]
  refine ⟨rfl, ?_, fun quiet => ?_⟩
  · rw [Output.out_append, Workspace.out_start, String.empty_append, out]
  · rw [Output.err_append, Workspace.output_start, Store.err_output _ _ quiet, String.empty_append,
      err quiet]

/-- A line with a value, one that fails, and one that is no text, under a limit that is given. -/
theorem runCommand_prompt_three :
    Plan.ofArguments ["--max-depth", "5"] = .prompt { maxDepth := some "5" } 5 ∧
    ∃ cut lines rest results final, Prompt.LinesOf [39, 97, 39, 10, 120, 10, 255] cut ∧
      cut.map Prompt.lineText? = lines.map some ++ rest ∧ (∀ line ∈ lines, line ≠ ".exit") ∧
      (∀ first ∈ rest.head?, first = none ∨ first = some ".exit") ∧
      (Session.start 5).answers
        (lines.map (.evaluate Session.rootName Session.mainName)) = some (results, final) ∧
      results.length = lines.length ∧
      (runCommand ["--max-depth", "5"] (fun _ => .error .missing)
        [39, 97, 39, 10, 120, 10, 255]).1 = 0 ∧
      (runCommand ["--max-depth", "5"] (fun _ => .error .missing)
        [39, 97, 39, 10, 120, 10, 255]).2.out =
        String.join (results.map fun r => "> " ++ printedText r.2 ++ r.1.shownLine) ++ "> " ∧
      (runCommand ["--max-depth", "5"] (fun _ => .error .missing)
        [39, 97, 39, 10, 120, 10, 255]).2.err =
        String.join (List.zipWith (fun line r => r.1.rendering line) lines results) := by
  have planned : Plan.ofArguments ["--max-depth", "5"] = .prompt { maxDepth := some "5" } 5 := by
    rfl
  obtain ⟨cut, lines, rest, results, final, of, texts, others, stop, answers, length, code, out,
    err⟩ := runCommand_prompt planned rfl (fun _ => .error .missing) [39, 97, 39, 10, 120, 10, 255]
  exact ⟨planned, cut, lines, rest, results, final, of, texts, others, stop, answers, length, code,
    out, err rfl⟩

end Lispette
