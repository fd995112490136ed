import Lispette.Text.Blank
import Lispette.Token

/-!
Cutting a text into tokens. At each place the front of the remaining text decides what stands
there: a blank, a lexeme and its length, a string without its closing quote, or a character
that starts nothing. Brackets of both shapes share one count of open brackets.
-/

namespace Lispette

inductive ScanError
  | unexpectedChar (char : Char) (position : Position)
  | unexpectedEnd (position : Position)
  deriving DecidableEq

/-- What stands at the front of a text. A lexeme comes with the number of characters after its
first. -/
inductive Front
  | blank
  | lexeme (l : Lexeme) (width : Nat)
  | unclosed
  | stray
  deriving DecidableEq

namespace Front

def isQuote (c : Char) : Bool :=
  c = '"' || c = '\''

def ofDigits (c : Char) (cs : List Char) : Front :=
  let digits := cs.takeWhile Char.isDigit
  .lexeme (.number (String.ofList (c :: digits))) digits.length

def ofLetters (c : Char) (cs : List Char) : Front :=
  let letters := cs.takeWhile Char.isAlphanum
  .lexeme (.ofWord (String.ofList (c :: letters))) letters.length

def ofQuote (quote : Char) (cs : List Char) : Front :=
  let text := cs.takeWhile (· ≠ quote)
  if text.length < cs.length then .lexeme (.string (String.ofList text)) (text.length + 1)
  else .unclosed

def ofSymbol (c : Char) (cs : List Char) : Front :=
  match Bracket.ofChar? c with
  | some b => .lexeme (.bracket b) 0
  | none =>
    match Operator.front? c cs with
    | some (op, width) => .lexeme (.operator op) width
    | none => .stray

def ofChars (c : Char) (cs : List Char) : Front :=
  if c = '\n' then .lexeme .newline 0
  else if Text.isBlank c then .blank
  else if c.isDigit then ofDigits c cs
  else if c.isAlpha then ofLetters c cs
  else if isQuote c then ofQuote c cs
  else ofSymbol c cs

end Front

namespace Token

/-- Scans the rest of a text from a position, with a number of brackets open. -/
def scanFrom (p : Position) (opened : Nat) : List Char → Except ScanError (List Token)
  | [] => if opened = 0 then .ok [] else .error (.unexpectedEnd p)
  | c :: cs =>
    match Front.ofChars c cs with
    | .blank => scanFrom (p.advance c) opened cs
    | .unclosed => .error (.unexpectedEnd (p.advanceAll (c :: cs)))
    | .stray => .error (.unexpectedChar c p)
    | .lexeme l width =>
      match l.opened opened with
      | none => .error (.unexpectedChar c p)
      | some opened => do
        let tokens ← scanFrom (p.advanceAll (c :: cs.take width)) opened (cs.drop width)
        return ⟨l, p⟩ :: tokens
termination_by cs => cs.length

def scan (source : String) : Except ScanError (List Token) :=
  scanFrom {} 0 source.toList

end Token
end Lispette
