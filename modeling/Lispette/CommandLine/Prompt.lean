import Lispette.CommandLine.Script
import Lispette.Text.Blank

/-!
The prompt: a mark before each line of input, and after each line its result or its failure.
A failing line ends nothing; the leave word, input that is no text, and the end of input do.
-/

namespace Lispette

namespace Prompt

def mark : Output :=
  { out := "> " }

def leaveWord : String := ".exit"

/-- The input cut after each line break. -/
def inputLines : List UInt8 → List (List UInt8)
  | [] => []
  | b :: bs =>
    if b = 10 then [b] :: inputLines bs
    else
      match inputLines bs with
      | [] => [[b]]
      | line :: lines => (b :: line) :: lines

/-- The source on a line of input; nothing if the line ends the prompt. -/
def source? (input : List UInt8) : Option String := do
  let source := String.ofList (Text.trimEnd (← decodeText input).toList)
  if source = leaveWord then none else some source

def enter (w : Workspace) (o : Options) (source : String) : Output × Workspace :=
  match w.run o source with
  | (.ok shown, output, w) => (output ++ .outLine shown.text, w)
  | (.error e, output, w) => (output ++ .errLine (e.diagnostic.render source), w)

def run (w : Workspace) (o : Options) : List (List UInt8) → Output
  | [] => mark
  | input :: inputs =>
    match source? input with
    | none => mark
    | some source =>
      let entered := enter w o source
      mark ++ entered.1 ++ run entered.2 o inputs

theorem flatten_inputLines (bs : List UInt8) : (inputLines bs).flatten = bs := by
  induction bs with
  | nil => rfl
  | cons b bs ih =>
    unfold inputLines
    split
    · simp [ih]
    · split
      · rename_i none
        rw [none] at ih
        simp [← ih]
      · rename_i line lines some
        rw [some] at ih
        simp [← ih]

end Prompt

def runPrompt (o : Options) (limit : Nat) (input : List UInt8) : Nat × Output :=
  let opened := Workspace.start o limit
  (ExitCode.success, opened.1 ++ Prompt.run opened.2 o (Prompt.inputLines input))

end Lispette
