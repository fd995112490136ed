import Lispette.CommandLine.Options
import Lispette.Store

/-!
What a command writes: text for the two output streams. Printed values go to the first, one
line for each call; journal lines go to the second, as far as the options ask for them.
-/

namespace Lispette

structure Output where
  out : String := ""
  err : String := ""
  deriving DecidableEq

namespace Output

def append (a b : Output) : Output :=
  ⟨a.out ++ b.out, a.err ++ b.err⟩

instance : Append Output := ⟨append⟩

def outLine (text : String) : Output :=
  { out := text ++ "\n" }

def errLine (text : String) : Output :=
  { err := text ++ "\n" }

def concat (outputs : List Output) : Output :=
  outputs.foldr append {}

@[simp] theorem out_append (a b : Output) : (a ++ b).out = a.out ++ b.out := rfl

@[simp] theorem err_append (a b : Output) : (a ++ b).err = a.err ++ b.err := rfl

end Output

def Options.level (o : Options) : Option Level :=
  match o.verbosity with
  | 0 => none
  | 1 => some .debug
  | _ => some .trace

def printedLine (values : List Value) : String :=
  " ".intercalate (values.map Value.text)

namespace Store

def printedOutput (s : Store) : Output :=
  Output.concat (s.printed.toList.map fun values => .outLine (printedLine values))

def journalOutput (s : Store) (o : Options) : Output :=
  match o.level with
  | none => {}
  | some level => Output.concat ((journalLines level s.journal.toList).map .errLine)

def output (s : Store) (o : Options) : Output :=
  s.printedOutput ++ s.journalOutput o

/-- The store once its output has been written. -/
def cleared (s : Store) : Store :=
  { s with printed := #[], journal := #[] }

end Store
end Lispette
