import Lispette.Text.Position

/-!
Tokens: the words of a source text and where they start. Numbers keep their digits and strings
their text between the quotes.
-/

namespace Lispette

inductive Operator
  | plus | minus | star | slash
  | greater | less | greaterEqual | lessEqual | equal | notEqual
  deriving DecidableEq, Inhabited

namespace Operator

def all : List Operator :=
  [.plus, .minus, .star, .slash, .greater, .less, .greaterEqual, .lessEqual, .equal, .notEqual]

def chars : Operator → List Char
  | .plus => ['+']
  | .minus => ['-']
  | .star => ['*']
  | .slash => ['/']
  | .greater => ['>']
  | .less => ['<']
  | .greaterEqual => ['>', '=']
  | .lessEqual => ['<', '=']
  | .equal => ['=']
  | .notEqual => ['!', '=']

def text (op : Operator) : String :=
  String.ofList op.chars

def ofChars? (cs : List Char) : Option Operator :=
  all.find? (·.chars = cs)

/-- The operator at the front of a text, two characters before one, and how many characters
follow its first. -/
def front? (c : Char) (cs : List Char) : Option (Operator × Nat) :=
  match ofChars? (c :: cs.take 1) with
  | some op => some (op, (cs.take 1).length)
  | none => (ofChars? [c]).map (·, 0)

@[simp] theorem ofChars?_chars (op : Operator) : ofChars? op.chars = some op := by
  cases op <;> decide

theorem chars_of_ofChars? {cs : List Char} {op : Operator} (h : ofChars? cs = some op) :
    op.chars = cs := by
  simpa using List.find?_some h

end Operator

inductive Bracket
  | openRound | closeRound | openSquare | closeSquare
  deriving DecidableEq, Inhabited

namespace Bracket

def ofChar? : Char → Option Bracket
  | '(' => some .openRound
  | ')' => some .closeRound
  | '[' => some .openSquare
  | ']' => some .closeSquare
  | _ => none

def char : Bracket → Char
  | .openRound => '('
  | .closeRound => ')'
  | .openSquare => '['
  | .closeSquare => ']'

def isOpening : Bracket → Bool
  | .openRound | .openSquare => true
  | .closeRound | .closeSquare => false

@[simp] theorem ofChar?_char (b : Bracket) : ofChar? b.char = some b := by
  cases b <;> rfl

theorem char_of_ofChar? {c : Char} {b : Bracket} (h : ofChar? c = some b) : b.char = c := by
  unfold ofChar? at h
  split at h <;> simp at h <;> subst h <;> rfl

end Bracket

inductive Keyword
  | define | function
  deriving DecidableEq, Inhabited

namespace Keyword

def text : Keyword → String
  | .define => "def"
  | .function => "fn"

def ofText? (word : String) : Option Keyword :=
  if word = Keyword.define.text then some .define
  else if word = Keyword.function.text then some .function
  else none

end Keyword

inductive Lexeme
  | number (digits : String)
  | string (text : String)
  | identifier (name : String)
  | operator (op : Operator)
  | bracket (b : Bracket)
  | keyword (k : Keyword)
  | newline
  deriving DecidableEq, Inhabited

namespace Lexeme

def category : Lexeme → String
  | .number _ => "NUMBER"
  | .string _ => "STRING"
  | .identifier _ => "IDENTIFIER"
  | .operator _ => "OPERATOR"
  | .bracket _ => "PAREN"
  | .keyword _ => "KEYWORD"
  | .newline => "NEWLINE"

def text : Lexeme → String
  | .number digits => digits
  | .string text => text
  | .identifier name => name
  | .operator op => op.text
  | .bracket b => String.singleton b.char
  | .keyword k => k.text
  | .newline => ""

/-- The lexeme as messages show it. -/
def label (l : Lexeme) : String :=
  match l with
  | .newline => l.category
  | .string text => l.category ++ " \"" ++ text ++ "\""
  | _ => l.category ++ " " ++ l.text

/-- Letters and digits that spell a keyword are that keyword. -/
def ofWord (word : String) : Lexeme :=
  match Keyword.ofText? word with
  | some k => .keyword k
  | none => .identifier word

/-- How many brackets are open after the lexeme; nothing if it closes one that is not open. -/
def opened (n : Nat) : Lexeme → Option Nat
  | .bracket b => if b.isOpening then some (n + 1) else if n = 0 then none else some (n - 1)
  | _ => some n

end Lexeme

structure Token where
  lexeme : Lexeme
  position : Position := {}
  deriving DecidableEq, Inhabited

namespace Token

def label (t : Token) : String :=
  t.lexeme.label

def isNewline (t : Token) : Bool :=
  t.lexeme = .newline

end Token
end Lispette
