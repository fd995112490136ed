import Lispette.CommandLine.Workspace

/-!
Scripts: reading one from bytes, running it once, and the exit code it ends with.
-/

namespace Lispette

def decodeText (bytes : List UInt8) : Option String :=
  String.fromUTF8? ⟨bytes.toArray⟩

/-- Why a script could not be read. -/
inductive FileFault
  | missing
  | directory
  | notDirectory
  | notText
  deriving DecidableEq

def FileFault.message : FileFault → String
  | .missing => "No such file or directory (os error 2)"
  | .directory => "Is a directory (os error 21)"
  | .notDirectory => "Not a directory (os error 20)"
  | .notText => "stream did not contain valid UTF-8"

def decodeScript (bytes : List UInt8) : Except FileFault String :=
  match decodeText bytes with
  | some text => .ok text
  | none => .error .notText

namespace ExitCode

def success : Nat := 0
def usage : Nat := 1
def badLimit : Nat := 64
def badSource : Nat := 65
def noInput : Nat := 66
def failed : Nat := 70

def ofFailure : Failure → Nat
  | .scan _ | .parse _ => badSource
  | .eval _ => failed

end ExitCode

/-- The value of a script is not written, only what it prints; a tree is written as asked. -/
def runScript (o : Options) (limit : Nat) (source : String) : Nat × Output :=
  let opened := Workspace.start o limit
  match opened.2.run o source with
  | (.ok (.tree text), output, _) => (ExitCode.success, opened.1 ++ output ++ .outLine text)
  | (.ok (.value _), output, _) => (ExitCode.success, opened.1 ++ output)
  | (.error e, output, _) =>
    (ExitCode.ofFailure e, opened.1 ++ output ++ .errLine (e.diagnostic.render source))

end Lispette
