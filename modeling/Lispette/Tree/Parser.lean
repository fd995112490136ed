import Lispette.Token
import Lispette.Tree

/-!
Reading trees from tokens, one token at a time. The forms whose closing bracket has not come
are kept innermost first, each named for what it expects next; a token that no open form can
take is refused at once.
-/

namespace Lispette

inductive ParseError
  | unexpectedToken (token : Token)
  | unexpectedEnd (position : Position)
  deriving DecidableEq

/-- A form that is still open. Arguments and parameters are held newest first. -/
inductive OpenForm
  | opened
  | definedName
  | definedValue (name : String) (position : Position)
  | definitionEnd (name : String) (value : Tree) (position : Position)
  | functionName
  | functionParameters (name : String) (position : Position)
  | functionParameter (name : String) (parameters : List String) (position : Position)
  | functionBody (name : String) (parameters : List String) (position : Position)
  | functionEnd (name : String) (parameters : List String) (body : Tree) (position : Position)
  | callArgument (head : String) (arguments : List Tree) (position : Position)

namespace OpenForm

/-- The form after a token that belongs to the form itself and not to a tree inside it. -/
def take? (t : Token) : OpenForm → Option OpenForm
  | .opened =>
    match t.lexeme with
    | .keyword .define => some .definedName
    | .keyword .function => some .functionName
    | .identifier name => some (.callArgument name [] t.position)
    | .operator op => some (.callArgument op.text [] t.position)
    | _ => none
  | .definedName =>
    match t.lexeme with
    | .identifier name => some (.definedValue name t.position)
    | _ => none
  | .functionName =>
    match t.lexeme with
    | .identifier name => some (.functionParameters name t.position)
    | _ => none
  | .functionParameters name p =>
    match t.lexeme with
    | .bracket .openSquare => some (.functionParameter name [] p)
    | _ => none
  | .functionParameter name parameters p =>
    match t.lexeme with
    | .identifier parameter => some (.functionParameter name (parameter :: parameters) p)
    | .bracket .closeSquare => some (.functionBody name parameters.reverse p)
    | _ => none
  | _ => none

/-- The form after a whole tree inside it; nothing if no tree may stand there. -/
def fill? (t : Tree) : OpenForm → Option OpenForm
  | .definedValue name p => some (.definitionEnd name t p)
  | .functionParameters name p => some (.functionEnd name [] t p)
  | .functionBody name parameters p => some (.functionEnd name parameters t p)
  | .callArgument head arguments p => some (.callArgument head (t :: arguments) p)
  | _ => none

def expectsTree : OpenForm → Bool
  | .definedValue .. | .functionParameters .. | .functionBody .. | .callArgument .. => true
  | _ => false

/-- The tree that a closing bracket makes of the form. -/
def close? : OpenForm → Option Tree
  | .definitionEnd name value p => some (.define name value p)
  | .functionEnd name parameters body p => some (.function name parameters body p)
  | .callArgument head arguments p => some (.call head arguments.reverse p)
  | _ => none

theorem isSome_fill? (t : Tree) (form : OpenForm) : (form.fill? t).isSome = form.expectsTree := by
  cases form <;> rfl

end OpenForm

/-- The tree of a token that is a tree by itself. -/
def Token.leaf? (t : Token) : Option Tree :=
  match t.lexeme with
  | .number digits => some (.number digits t.position)
  | .string text => some (.string text t.position)
  | .identifier name => some (.identifier name t.position)
  | _ => none

/-- What has been read: the finished statements, newest first, and the open forms. -/
structure Parse where
  statements : List Tree
  forms : List OpenForm

namespace Parse

def start : Parse := ⟨[], []⟩

def expectsTree (r : Parse) : Bool :=
  match r.forms with
  | [] => true
  | form :: _ => form.expectsTree

def place? (t : Tree) (r : Parse) : Option Parse :=
  match r.forms with
  | [] => some ⟨t :: r.statements, []⟩
  | form :: forms => (form.fill? t).map fun form => ⟨r.statements, form :: forms⟩

def take? (t : Token) (r : Parse) : Option Parse :=
  match r.forms with
  | [] => none
  | form :: forms => (form.take? t).map fun form => ⟨r.statements, form :: forms⟩

def enter? (t : Token) (r : Parse) : Option Parse :=
  if t.lexeme = .bracket .openRound && r.expectsTree then some ⟨r.statements, .opened :: r.forms⟩
  else none

def close? (t : Token) (r : Parse) : Option Parse :=
  match r.forms with
  | [] => none
  | form :: forms =>
    if t.lexeme = .bracket .closeRound then
      form.close?.bind fun tree => place? tree ⟨r.statements, forms⟩
    else none

def step? (t : Token) (r : Parse) : Option Parse :=
  (r.take? t).or <| (t.leaf?.bind r.place?).or <| (r.enter? t).or (r.close? t)

def readAll (r : Parse) : List Token → Except ParseError Parse
  | [] => .ok r
  | t :: ts =>
    match r.step? t with
    | some r => r.readAll ts
    | none => .error (.unexpectedToken t)

theorem readAll_append (r : Parse) (ts us : List Token) :
    r.readAll (ts ++ us) = (r.readAll ts).bind (·.readAll us) := by
  induction ts generalizing r with
  | nil => rfl
  | cons t ts ih =>
    simp only [List.cons_append, readAll]
    cases r.step? t with
    | none => rfl
    | some r => exact ih r

end Parse

namespace Tree

/-- Line breaks mean nothing between tokens. -/
def significant (tokens : List Token) : List Token :=
  tokens.filter (!·.isNewline)

def firstPosition (tokens : List Token) : Position :=
  (tokens.head?.map Token.position).getD {}

def lastPosition (tokens : List Token) : Position :=
  (tokens.getLast?.map Token.position).getD {}

def ofSignificant (tokens : List Token) : Except ParseError Tree :=
  match Parse.start.readAll tokens with
  | .error e => .error e
  | .ok ⟨statements, []⟩ => .ok (.program statements.reverse (firstPosition tokens))
  | .ok ⟨_, _ :: _⟩ => .error (.unexpectedEnd (lastPosition tokens))

def ofTokens (tokens : List Token) : Except ParseError Tree :=
  ofSignificant (significant tokens)

end Tree
end Lispette
