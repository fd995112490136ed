/-!
The options of the command line: a script to run, a limit on nested calls, trees instead of
values, and how much to tell.
-/

namespace Lispette

structure Options where
  script : Option String := none
  maxDepth : Option String := none
  showTree : Bool := false
  verbosity : Nat := 0
  deriving DecidableEq

/-- The argument that could not be understood. -/
structure UsageError where
  argument : String
  deriving DecidableEq

namespace Options

inductive Argument
  | endOfOptions
  | showTree
  | maxDepth
  | maxDepthValue (text : String)
  | verbose (times : Nat)
  | script (name : String)
  | unknown
  deriving DecidableEq

/-- A lone dash is a name, not an option. -/
def looksLikeOption (arg : String) : Bool :=
  match arg.toList with
  | '-' :: _ :: _ => true
  | _ => false

/-- A long option has a name, and a value if an equals sign follows the name. -/
structure LongOption where
  name : String
  value? : Option String
  deriving DecidableEq

def LongOption.ofChars (cs : List Char) : LongOption where
  name := String.ofList (cs.takeWhile (· ≠ '='))
  value? := match cs.dropWhile (· ≠ '=') with
    | [] => none
    | value => some (String.ofList (value.dropWhile (· = '=')))

/-- Asking for trees needs no value, so one that is given makes no difference. -/
def LongOption.argument (o : LongOption) : Argument :=
  if o.name = "ast" then .showTree
  else if o.name = "max-depth" then
    match o.value? with
    | none => .maxDepth
    | some text => .maxDepthValue text
  else .unknown

/-- Two dashes or more open a long option, one dash opens letters. -/
def classify (arg : String) : Argument :=
  match arg.toList with
  | ['-', '-'] => .endOfOptions
  | '-' :: '-' :: cs => (LongOption.ofChars (cs.dropWhile (· = '-'))).argument
  | '-' :: 'v' :: more => if more.all (· = 'v') then .verbose (more.length + 1) else .unknown
  | '-' :: _ :: _ => .unknown
  | _ => .script arg

example : classify "--ast=x" = .showTree := by decide
example : classify "--max-depth=" = .maxDepthValue "" := by decide
example : classify "--max-depth==a=b" = .maxDepthValue "a=b" := by decide
example : classify "-" = .script "-" := by decide

def setScript (o : Options) (name : String) : Except UsageError Options :=
  match o.script with
  | none => .ok { o with script := some name }
  | some _ => .error ⟨name⟩

def setMaxDepth (o : Options) (text : String) : Except UsageError Options :=
  match o.maxDepth with
  | none => .ok { o with maxDepth := some text }
  | some _ => .error ⟨text⟩

def setShowTree (o : Options) (arg : String) : Except UsageError Options :=
  if o.showTree then .error ⟨arg⟩ else .ok { o with showTree := true }

def readFrom (o : Options) : List String → Except UsageError Options
  | [] => .ok o
  | arg :: args =>
    match classify arg with
    | .endOfOptions => args.foldlM setScript o
    | .showTree => do (← o.setShowTree arg).readFrom args
    | .maxDepthValue text => do (← o.setMaxDepth text).readFrom args
    | .verbose times => { o with verbosity := o.verbosity + times }.readFrom args
    | .script name => do (← o.setScript name).readFrom args
    | .unknown => .error ⟨arg⟩
    | .maxDepth =>
      match args with
      | [] => .error ⟨arg⟩
      | text :: args =>
        if looksLikeOption text then .error ⟨arg⟩ else do (← o.setMaxDepth text).readFrom args

def ofArguments (args : List String) : Except UsageError Options :=
  readFrom {} args

end Options

def largestLimit : Nat := 0xffffffffffffffff

/-- A limit is written in digits, with an optional plus sign, and fits sixty-four bits. -/
def readLimit? (text : String) : Option Nat :=
  let digits := match text.toList with
    | '+' :: cs => cs
    | cs => cs
  let n := digits.foldl (fun n c => 10 * n + (c.toNat - '0'.toNat)) 0
  if !digits.isEmpty && digits.all Char.isDigit && n ≤ largestLimit then some n else none

example : readLimit? "+4" = some 4 := by decide
example : readLimit? "18446744073709551616" = none := by decide
example : readLimit? "" = none := by decide

end Lispette
