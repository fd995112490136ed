import Lispette.Token.Scan
import Lispette.Tree.Parser
import Lispette.Value

/-!
What can go wrong, by cause and place, and how it is reported: the line it happened on, a caret
under its column, the kind of failure and a message.
-/

namespace Lispette

inductive EvalCause
  | notDefined (name : String)
  | notCallable (kind : Kind)
  | wrongKind (expected found : Kind)
  | wrongArity (name : String) (expected found : Nat)
  | tooDeep (limit : Nat)
  | notANumber (literal : String)
  deriving DecidableEq

structure EvalError where
  cause : EvalCause
  position : Position
  deriving DecidableEq

/-- A failure inside a called function. Only one that comes from running a body has a place. -/
inductive CallError
  | wrongKind (expected found : Kind)
  | wrongArity (expected found : Nat)
  | inside (e : EvalError)
  deriving DecidableEq

/-- A failure without a place happened at the call. -/
def CallError.at (name : String) (position : Position) : CallError → EvalError
  | .wrongKind expected found => ⟨.wrongKind expected found, position⟩
  | .wrongArity expected found => ⟨.wrongArity name expected found, position⟩
  | .inside e => e

inductive Failure
  | scan (e : ScanError)
  | parse (e : ParseError)
  | eval (e : EvalError)
  deriving DecidableEq

structure Diagnostic where
  title : String
  message : String
  position : Position
  deriving DecidableEq

def ScanError.diagnostic : ScanError → Diagnostic
  | .unexpectedChar c p => ⟨"LexError", s!"unexpected char {c}", p⟩
  | .unexpectedEnd p => ⟨"UnexpectedEndOfInput", "unexpected end of input", p⟩

def ParseError.diagnostic : ParseError → Diagnostic
  | .unexpectedToken t => ⟨"ParseError", s!"unexpected token {t.label}", t.position⟩
  | .unexpectedEnd p => ⟨"UnexpectedEndOfInput", "unexpected end of input", p⟩

namespace EvalCause

def title : EvalCause → String
  | .notDefined _ => "ReferenceError"
  | .notCallable _ => "NotCallableError"
  | .wrongKind .. => "RuntimeTypeError"
  | .wrongArity .. => "ArityError"
  | .tooDeep _ => "StackOverflowError"
  | .notANumber _ => "NumberFormatError"

def message : EvalCause → String
  | .notDefined name => s!"{name} is not defined"
  | .notCallable kind => s!"value of type {kind.name} is not callable"
  | .wrongKind expected found =>
    s!"unexpected value of type {found.name}, expected {expected.name}"
  | .wrongArity name expected found => s!"{name} expects {expected} arguments, got {found}"
  | .tooDeep limit => s!"maximum call depth of {limit} exceeded"
  | .notANumber literal => s!"{literal} is not a number"

end EvalCause

def EvalError.diagnostic (e : EvalError) : Diagnostic :=
  ⟨e.cause.title, e.cause.message, e.position⟩

def CallError.message : CallError → String
  | .wrongKind expected found => (EvalCause.wrongKind expected found).message
  | .wrongArity expected found => s!"expected {expected} arguments, got {found}"
  | .inside e => e.cause.message

def Failure.diagnostic : Failure → Diagnostic
  | .scan e => e.diagnostic
  | .parse e => e.diagnostic
  | .eval e => e.diagnostic

namespace Text

def lines (cs : List Char) : List (List Char) :=
  cs.splitOn '\n'

end Text

namespace Diagnostic

/-- The line of the source that the diagnostic is about; empty if there is none. -/
def sourceLine (d : Diagnostic) (source : String) : List Char :=
  (Text.lines source.toList)[d.position.line]?.getD []

def render (d : Diagnostic) (source : String) : String :=
  String.ofList (d.sourceLine source ++ '\n' :: List.replicate d.position.column ' ') ++
    s!"^ {d.title}: {d.message}"

end Diagnostic
end Lispette
