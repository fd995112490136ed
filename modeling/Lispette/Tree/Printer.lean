import Lispette.Tree

/-!
Trees as text. A program has a statement on each line; a string stands between double quotes
unless it holds one, and then between single quotes.
-/

namespace Lispette

namespace Tree

def quoteFor (text : List Char) : Char :=
  if text.contains '"' then '\'' else '"'

def quote (text : List Char) : List Char :=
  quoteFor text :: text ++ [quoteFor text]

def spaced (names : List String) : List Char :=
  [' '].intercalate (names.map String.toList)

mutual

def print : Tree → List Char
  | .program body _ => printLines body
  | .number digits _ => digits.toList
  | .string text _ => quote text.toList
  | .identifier name _ => name.toList
  | .call head arguments _ => '(' :: head.toList ++ printArguments arguments ++ [')']
  | .define name value _ => "(def ".toList ++ name.toList ++ ' ' :: value.print ++ [')']
  | .function name parameters body _ =>
    "(fn ".toList ++ name.toList ++ " [".toList ++ spaced parameters ++ "] ".toList ++
      body.print ++ [')']

def printLines : List Tree → List Char
  | [] => []
  | t :: ts => t.print ++ printFurtherLines ts

def printFurtherLines : List Tree → List Char
  | [] => []
  | t :: ts => '\n' :: t.print ++ printFurtherLines ts

def printArguments : List Tree → List Char
  | [] => []
  | t :: ts => ' ' :: t.print ++ printArguments ts

end

def text (t : Tree) : String :=
  String.ofList t.print

end Tree
end Lispette
