import Lispette.Text.Quoted
import Lispette.Value

/-!
The journal: what happened on the way to an answer, entry by entry, at two levels of detail.
-/

namespace Lispette

inductive Level
  | debug | trace
  deriving DecidableEq

def Level.name : Level → String
  | .debug => "DEBUG"
  | .trace => "TRACE"

/-- Whether a journal kept at the first level holds entries of the second. -/
def Level.admits : Level → Level → Bool
  | .debug, .trace => false
  | _, _ => true

inductive Entry
  | installing
  | scanning (source : String)
  | scanned (tokens : Nat)
  | parsing (tokens : Nat)
  | running (statements : Nat)
  | declaring (name : String) (parameters : List String)
  | defining (name : String) (value : Value)
  | calling (name : String) (arguments : Nat)
  | evaluated (kind : Kind)

namespace Entry

def level : Entry → Level
  | .installing | .declaring .. | .defining .. | .evaluated _ => .debug
  | .scanning _ | .scanned _ | .parsing _ | .running _ | .calling .. => .trace

def message : Entry → String
  | .installing => "Installing prelude"
  | .scanning source => s!"Scanning {Text.quoted source}"
  | .scanned tokens => s!"Scanned {tokens} tokens"
  | .parsing tokens => s!"Parsing {tokens} tokens"
  | .running statements => s!"Running {statements} statements"
  | .declaring name parameters =>
    s!"Declaring function '{name}' with params {Text.quotedList parameters}"
  | .defining name value => s!"Defining '{name}' as {value.shown}"
  | .calling name arguments => s!"Calling '{name}' with {arguments} arguments"
  | .evaluated kind => s!"Evaluated to a value of kind {kind.name}"

def line (e : Entry) : String :=
  s!"[{e.level.name}] {e.message}"

end Entry

def journalLines (level : Level) (entries : List Entry) : List String :=
  (entries.filter (level.admits ·.level)).map Entry.line

end Lispette
