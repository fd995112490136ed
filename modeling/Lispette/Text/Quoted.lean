import Lispette.Text.Unprintable

/-!
Quoted text for messages. The usual escapes stand for the common control characters, a code
point in braces for any other character without a shape; a single quote needs no escape.
-/

namespace Lispette

namespace Text

def hexDigits (n : Nat) : List Char :=
  Nat.toDigits 16 n

def quotedChar (c : Char) : List Char :=
  match c with
  | '\t' => ['\\', 't']
  | '\r' => ['\\', 'r']
  | '\n' => ['\\', 'n']
  | '\x00' => ['\\', '0']
  | '\\' => ['\\', '\\']
  | '"' => ['\\', '"']
  | c => if isShapeless c then ['\\', 'u', '\x7b'] ++ hexDigits c.toNat ++ ['\x7d'] else [c]

def quoted (s : String) : String :=
  String.ofList ('"' :: s.toList.flatMap quotedChar ++ ['"'])

def quotedList (names : List String) : String :=
  "[" ++ ", ".intercalate (names.map quoted) ++ "]"

example : quotedChar '\n' = ['\\', 'n'] := by decide
example : quotedChar '\'' = ['\''] := by decide
example : quotedChar '\x7f' = ['\\', 'u', '\x7b', '7', 'f', '\x7d'] := by decide +kernel

end Text
end Lispette
