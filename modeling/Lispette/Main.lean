import Lispette.CommandLine

/-!
The program: gives the command its arguments, files and input, and writes its output.
-/

open Lispette

def writeOutput (output : Output) : IO Unit := do
  let out ← IO.getStdout
  out.putStr output.out
  out.flush
  (← IO.getStderr).putStr output.err

def readScriptFile (name : String) : IO (Except FileFault String) := do
  try
    return decodeScript (← IO.FS.readBinFile name).toList
  catch
    | .inappropriateType _ code _ =>
      return .error (if code = 20 then .notDirectory else .directory)
    | _ => return .error .missing

/-- The bytes up to the next line break, with it; none at the end of the input. -/
partial def readInputLine (input : IO.FS.Stream) (line : Array UInt8) : IO (List UInt8) := do
  let bytes ← input.read 1
  match bytes.toList with
  | [b] => if b = 10 then return (line.push b).toList else readInputLine input (line.push b)
  | _ => return line.toList

partial def promptLoop (w : Workspace) (o : Options) : IO Unit := do
  writeOutput Prompt.mark
  let input ← readInputLine (← IO.getStdin) #[]
  if input.isEmpty then return
  if let some source := Prompt.source? input then
    let (output, next) := Prompt.enter w o source
    writeOutput output
    promptLoop next o

def main (args : List String) : IO UInt32 := do
  match Plan.ofArguments args with
  | .stop code output =>
    writeOutput output
    return code.toUInt32
  | .script o limit name =>
    let (code, output) := runScriptFile o limit name (← readScriptFile name)
    writeOutput output
    return code.toUInt32
  | .prompt o limit =>
    let (opening, w) := Workspace.start o limit
    writeOutput opening
    promptLoop w o
    return ExitCode.success.toUInt32
