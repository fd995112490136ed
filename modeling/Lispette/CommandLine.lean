import Lispette.CommandLine.Prompt

/-!
The command: what its arguments ask for, and what it then writes and returns. A limit that is
no number is refused before any file is read, and a script that cannot be read before anything
is run.
-/

namespace Lispette

inductive Plan
  | stop (code : Nat) (output : Output)
  | script (o : Options) (limit : Nat) (name : String)
  | prompt (o : Options) (limit : Nat)

def Plan.ofOptions (o : Options) (limit : Nat) : Plan :=
  match o.script with
  | some name => .script o limit name
  | none => .prompt o limit

def Plan.ofArguments (args : List String) : Plan :=
  match Options.ofArguments args with
  | .error e => .stop ExitCode.usage (.errLine s!"unexpected argument '{e.argument}'")
  | .ok o =>
    match o.maxDepth with
    | none => .ofOptions o defaultLimit
    | some text =>
      match readLimit? text with
      | some limit => .ofOptions o limit
      | none =>
        .stop ExitCode.badLimit (.errLine s!"--max-depth expects a number, got '{text}'")

/-- A script that was read, or could not be. -/
def runScriptFile (o : Options) (limit : Nat) (name : String) :
    Except FileFault String → Nat × Output
  | .ok source => runScript o limit source
  | .error fault => (ExitCode.noInput, .errLine s!"Could not read {name}: {fault.message}")

def runCommand (args : List String) (readScript : String → Except FileFault String)
    (input : List UInt8) : Nat × Output :=
  match Plan.ofArguments args with
  | .stop code output => (code, output)
  | .script o limit name => runScriptFile o limit name (readScript name)
  | .prompt o limit => runPrompt o limit input

end Lispette
