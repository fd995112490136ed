import Lispette.Proofs.Nesting
import Lispette.Proofs.WellFormed
import Lispette.Tree.Printer

/-!
Printing and reading back. A well-formed tree is printed as a text that is cut into the tokens of a
derivation of the same tree, whatever comes before and wherever its nodes stand, as long as no
letter, digit or equals sign follows. So the printed text is read back as the tree.
-/

namespace Lispette

open Grammar

/-- The text is cut into pieces that have these tokens, where it stands. -/
def Spells (before text rest : List Char) (tokens : List Token) : Prop :=
  ∃ ps, Piece.Cuts (text ++ rest) ps rest ∧
    Tree.significant (Piece.tokensAfter before ps) = tokens

/-- What may follow a word, a number or an operator. -/
def Apart (rest : List Char) : Prop :=
  ∀ c ∈ rest.head?, c.isAlphanum = false ∧ c ≠ '='

theorem apart_nil : Apart [] := by
  simp [Apart]

theorem apart_cons {c : Char} (h : c.isAlphanum = false ∧ c ≠ '=') (cs : List Char) :
    Apart (c :: cs) := by
  simpa [Apart] using h

theorem Lexeme.ofWord_text (k : Keyword) : ofWord k.text = .keyword k := by
  cases k <;> decide

theorem Operator.eq_equal_of_longer {op longer : Operator} {c : Char}
    (h : longer.chars = op.chars ++ [c]) : c = '=' := by
  cases longer <;> cases op <;> simp [chars] at h <;> exact h.symm

theorem apart_space (cs : List Char) : Apart (' ' :: cs) :=
  apart_cons (by decide) cs

theorem apart_newline (cs : List Char) : Apart ('\n' :: cs) :=
  apart_cons (by decide) cs

theorem apart_bracket (b : Bracket) (cs : List Char) : Apart (b.char :: cs) :=
  apart_cons (by cases b <;> decide) cs

namespace Spells

variable {before text text' rest : List Char} {tokens tokens' : List Token}

theorem nil (before rest : List Char) : Spells before [] rest [] :=
  ⟨[], .nil rest, rfl⟩

theorem append (first : Spells before text (text' ++ rest) tokens)
    (second : Spells (before ++ text) text' rest tokens') :
    Spells before (text ++ text') rest (tokens ++ tokens') := by
  obtain ⟨ps, cut, rfl⟩ := first
  obtain ⟨qs, cut', rfl⟩ := second
  obtain rfl : text = Piece.join ps := List.append_cancel_right cut.eq_append
  refine ⟨ps ++ qs, ?_, ?_⟩
  · rw [List.append_assoc]
    exact cut.append cut'
  · rw [Piece.tokensAfter_append, Tree.significant, List.filter_append]
    rfl

theorem piece {p : Piece} (fits : p.Fits rest) (before : List Char) :
    Spells before p.chars rest (Tree.significant (p.tokens before)) :=
  ⟨[p], .cons fits (.nil rest), by simp [Piece.tokensAfter]⟩

theorem bracket (b : Bracket) (before rest : List Char) :
    Spells before [b.char] rest [⟨.bracket b, .after before⟩] :=
  piece (p := .bracket b) trivial before

theorem space (before rest : List Char) : Spells before [' '] rest [] :=
  piece (p := .blank ' ') ⟨by decide, by decide⟩ before

theorem append_space (first : Spells before text (' ' :: (text' ++ rest)) tokens)
    (second : Spells (before ++ text ++ [' ']) text' rest tokens') :
    Spells before (text ++ ' ' :: text') rest (tokens ++ tokens') :=
  first.append ((space _ _).append second)

theorem wrap {b c : Bracket} (inner : Spells (before ++ [b.char]) text (c.char :: rest) tokens) :
    Spells before (b.char :: text ++ [c.char]) rest (⟨.bracket b, .after before⟩ :: tokens ++
      [⟨.bracket c, .after (before ++ [b.char] ++ text)⟩]) := by
  have spelled := (bracket b before _).append (inner.append (bracket c _ rest))
  simpa using spelled

theorem newline (before rest : List Char) : Spells before ['\n'] rest [] :=
  piece (p := .newline) trivial before

theorem number {digits : String} (h : IsNumber digits) (apart : Apart rest) (before : List Char) :
    Spells before digits.toList rest [⟨.number digits, .after before⟩] := by
  have stops : ∀ c ∈ rest.head?, c.isDigit = false := fun c next => by
    have := (apart c next).1
    simp_all [Char.isAlphanum]
  have spelled := piece (p := .digits digits.toList) ⟨h.1, h.2, stops⟩ before
  rwa [Piece.tokens, Piece.lexeme?, String.ofList_toList] at spelled

theorem word {w : String} (letter : ∃ c ∈ w.toList.head?, c.isAlpha = true)
    (alphanum : ∀ c ∈ w.toList, c.isAlphanum = true) (apart : Apart rest) (before : List Char) :
    Spells before w.toList rest (Tree.significant [⟨.ofWord w, .after before⟩]) := by
  have spelled := piece (p := .word w.toList)
    ⟨letter, alphanum, fun c next => (apart c next).1⟩ before
  rwa [Piece.tokens, Piece.lexeme?, String.ofList_toList] at spelled

theorem identifier {name : String} (h : IsName name) (apart : Apart rest) (before : List Char) :
    Spells before name.toList rest [⟨.identifier name, .after before⟩] := by
  have spelled := word h.letter h.alphanum apart before
  rwa [Lexeme.ofWord, Keyword.ofText?_eq_none_iff.mpr h.noKeyword] at spelled

theorem keyword (k : Keyword) (apart : Apart rest) (before : List Char) :
    Spells before k.text.toList rest [⟨.keyword k, .after before⟩] := by
  have letter : ∃ c ∈ k.text.toList.head?, c.isAlpha = true := by cases k <;> exact ⟨_, rfl, rfl⟩
  have alphanum : ∀ c ∈ k.text.toList, c.isAlphanum = true := by cases k <;> simp [Keyword.text]
  have spelled := word letter alphanum apart before
  rwa [Lexeme.ofWord_text] at spelled

theorem operator (op : Operator) (apart : Apart rest) (before : List Char) :
    Spells before op.text.toList rest [⟨.operator op, .after before⟩] := by
  have longest : (Piece.operator op).Fits rest := fun c next longer same =>
    (apart c next).2 (Operator.eq_equal_of_longer same)
  rw [Operator.text, String.toList_ofList]
  exact piece longest before

theorem string {text : String} (h : IsQuotable text) (before rest : List Char) :
    Spells before (Tree.quote text.toList) rest [⟨.string text, .after before⟩] := by
  have fits : (Piece.quoted (Tree.quoteFor text.toList) text.toList).Fits rest := by
    rw [Tree.quoteFor]
    split
    next double => exact ⟨by decide, fun single => h ⟨by simpa using double, single⟩⟩
    next single => exact ⟨by decide, by simpa using single⟩
  have spelled := piece fits before
  rwa [Piece.tokens, Piece.lexeme?, String.ofList_toList] at spelled

theorem head {name : String} (h : IsName name ∨ ∃ op : Operator, name = op.text)
    (apart : Apart rest) (before : List Char) :
    ∃ head : Head, head.text = name ∧
      Spells before name.toList rest [⟨head.lexeme, .after before⟩] := by
  rcases h with h | ⟨op, rfl⟩
  · exact ⟨.identifier name, rfl, identifier h apart before⟩
  · exact ⟨.operator op, rfl, operator op apart before⟩

theorem spaced {parameters : List String} (h : ∀ name ∈ parameters, IsName name)
    (apart : Apart rest) (before : List Char) :
    ∃ names : List (String × Position), names.map Prod.fst = parameters ∧
      Spells before (Tree.spaced parameters) rest (Parameters.nameTokens names) := by
  induction parameters generalizing before with
  | nil => exact ⟨[], rfl, nil before rest⟩
  | cons name parameters ih =>
    obtain ⟨first, others⟩ := List.forall_mem_cons.mp h
    cases parameters with
    | nil =>
      refine ⟨[(name, .after before)], rfl, ?_⟩
      simpa [Tree.spaced, Parameters.nameTokens] using identifier first apart before
    | cons next parameters =>
      obtain ⟨names, same, tail⟩ := ih others (before ++ name.toList ++ [' '])
      refine ⟨(name, .after before) :: names, congrArg (name :: ·) same, ?_⟩
      have spelled := (identifier first (apart_space _) before).append_space tail
      simpa [Tree.spaced, Parameters.nameTokens] using spelled

end Spells

namespace Tree

theorem print_define (name : String) (value : Tree) (p : Position) :
    (define name value p).print =
      '(' :: (Keyword.define.text.toList ++ ' ' :: (name.toList ++ ' ' :: value.print)) ++
        [')'] := by
  have opening : "(def ".toList = '(' :: Keyword.define.text.toList ++ [' '] := by decide
  calc (define name value p).print
      = "(def ".toList ++ name.toList ++ ' ' :: value.print ++ [')'] := rfl
    _ = _ := by simp only [opening, List.cons_append, List.append_assoc, List.nil_append]

theorem print_function (name : String) (parameters : List String) (body : Tree) (p : Position) :
    (function name parameters body p).print =
      '(' :: (Keyword.function.text.toList ++ ' ' :: (name.toList ++ ' ' ::
        ('[' :: spaced parameters ++ [']'] ++ ' ' :: body.print))) ++ [')'] := by
  have opening : "(fn ".toList = '(' :: Keyword.function.text.toList ++ [' '] := by decide
  have listing : " [".toList = [' ', '['] := by decide
  have listed : "] ".toList = [']', ' '] := by decide
  calc (function name parameters body p).print
      = "(fn ".toList ++ name.toList ++ " [".toList ++ spaced parameters ++ "] ".toList ++
          body.print ++ [')'] := rfl
    _ = _ := by
      simp only [opening, listing, listed, List.cons_append, List.append_assoc, List.nil_append]

/-- The text spells a derivation of the tree, wherever the nodes of the tree stand. -/
def Says (before text rest : List Char) (t : Tree) : Prop :=
  ∃ e : Expr, e.tree.bare = t.bare ∧ Spells before text rest e.tokens

def SaysAll (before text rest : List Char) (ts : List Tree) : Prop :=
  ∃ es : List Expr, (Expr.treeAll es).map bare = ts.map bare ∧
    Spells before text rest (Expr.tokensAll es)

section Says

variable {before text text' rest : List Char} {t : Tree} {ts : List Tree}

theorem Says.after {c : Char} (blank : Spells before [c] (text ++ rest) [])
    (h : Says (before ++ [c]) text rest t) : Says before (c :: text) rest t := by
  obtain ⟨e, same, spelled⟩ := h
  exact ⟨e, same, blank.append spelled⟩

theorem SaysAll.nil (before rest : List Char) : SaysAll before [] rest [] :=
  ⟨[], rfl, .nil before rest⟩

theorem SaysAll.cons (first : Says before text (text' ++ rest) t)
    (others : SaysAll (before ++ text) text' rest ts) :
    SaysAll before (text ++ text') rest (t :: ts) := by
  obtain ⟨e, one, spelled⟩ := first
  obtain ⟨es, same, tail⟩ := others
  refine ⟨e :: es, ?_, spelled.append tail⟩
  rw [Expr.treeAll, List.map_cons, List.map_cons, one, same]

end Says

theorem apart_printArguments (ts : List Tree) {rest : List Char} (apart : Apart rest) :
    Apart (printArguments ts ++ rest) := by
  cases ts with
  | nil => exact apart
  | cons t ts => exact apart_space _

theorem apart_printFurtherLines (ts : List Tree) {rest : List Char} (apart : Apart rest) :
    Apart (printFurtherLines ts ++ rest) := by
  cases ts with
  | nil => exact apart
  | cons t ts => exact apart_newline _

-- Only the last token of a printed tree depends on what follows. Within a tree that is a space, a
-- bracket or a line break, so every part again stands apart from the text after it.
mutual

/-- A well-formed tree is printed as a derivation of the tree. -/
theorem says_print : ∀ (t : Tree) (before rest : List Char), t.WellFormedWithin → Apart rest →
    Says before t.print rest t
  | .number digits _, before, _, wellFormed, apart =>
    ⟨.number digits (.after before), rfl, .number wellFormed apart before⟩
  | .string text _, before, rest, wellFormed, _ =>
    ⟨.string text (.after before), rfl, .string wellFormed before rest⟩
  | .identifier name _, before, _, wellFormed, apart =>
    ⟨.identifier name (.after before), rfl, .identifier wellFormed apart before⟩
  | .call name arguments _, before, rest, ⟨first, others⟩, _ => by
    have apart := apart_bracket .closeRound rest
    obtain ⟨head, rfl, named⟩ := Spells.head first (apart_printArguments arguments apart)
      (before ++ ['('])
    obtain ⟨es, same, inner⟩ := says_printArguments arguments _ _ others apart
    have spelled := (named.append inner).wrap (b := .openRound)
    refine ⟨.call _ head _ es _, ?_, spelled⟩
    rw [Expr.tree, bare, bare, relocate, relocate, relocateAll_eq_map, relocateAll_eq_map]
    exact congrArg (call head.text · {}) same
  | .define name value _, before, rest, ⟨named, inner⟩, _ => by
    obtain ⟨e, same, valued⟩ := says_print value
      (before ++ ['('] ++ Keyword.define.text.toList ++ [' '] ++ name.toList ++ [' ']) _ inner
      (apart_bracket .closeRound rest)
    have bound := (Spells.identifier named (apart_space _) _).append_space valued
    have inside := (Spells.keyword .define (apart_space _) _).append_space bound
    have spelled := inside.wrap (b := .openRound)
    rw [print_define]
    exact ⟨.define _ _ name _ e _, congrArg (define name · {}) same, spelled⟩
  | .function name parameters body _, before, rest, ⟨named, listed, inner⟩, _ => by
    obtain ⟨names, rfl, list⟩ := Spells.spaced listed (apart_bracket .closeSquare _)
      (before ++ ['('] ++ Keyword.function.text.toList ++ [' '] ++ name.toList ++ [' '] ++ ['['])
    obtain ⟨e, same, bodied⟩ := says_print body _ _ inner (apart_bracket .closeRound rest)
    have taking := (list.wrap (b := .openSquare)).append_space bodied
    have bound := (Spells.identifier named (apart_space _) _).append_space taking
    have inside := (Spells.keyword .function (apart_space _) _).append_space bound
    have spelled := inside.wrap (b := .openRound)
    rw [print_function]
    exact ⟨.function _ _ name _ (some ⟨_, names, _⟩) e _,
      congrArg (function name (names.map Prod.fst) · {}) same, spelled⟩

theorem says_printArguments : ∀ (ts : List Tree) (before rest : List Char), AllWellFormed ts →
    Apart rest → SaysAll before (printArguments ts) rest ts
  | [], before, rest, _, _ => .nil before rest
  | t :: ts, before, _, ⟨first, others⟩, apart =>
    .cons (.after (.space before _) (says_print t _ _ first (apart_printArguments ts apart)))
      (says_printArguments ts _ _ others apart)

end

theorem says_printFurtherLines (ts : List Tree) (before rest : List Char)
    (wellFormed : AllWellFormed ts) (apart : Apart rest) :
    SaysAll before (printFurtherLines ts) rest ts := by
  induction ts generalizing before with
  | nil => exact .nil before rest
  | cons t ts ih =>
    have first := says_print t (before ++ ['\n']) _ wellFormed.1 (apart_printFurtherLines ts apart)
    exact .cons (.after (.newline before _) first) (ih _ wellFormed.2)

theorem says_printLines (ts : List Tree) (before rest : List Char) (wellFormed : AllWellFormed ts)
    (apart : Apart rest) : SaysAll before (printLines ts) rest ts := by
  cases ts with
  | nil => exact .nil before rest
  | cons t ts =>
    have first := says_print t before _ wellFormed.1 (apart_printFurtherLines ts apart)
    exact .cons first (says_printFurtherLines ts _ rest wellFormed.2 apart)

mutual

theorem print_relocate (f : Position → Position) : ∀ t : Tree, (t.relocate f).print = t.print
  | .program body _ => printLines_relocateAll f body
  | .number _ _ | .string _ _ | .identifier _ _ => rfl
  | .call head arguments _ =>
    congrArg (fun inner => '(' :: head.toList ++ inner ++ [')'])
      (printArguments_relocateAll f arguments)
  | .define name value _ => by
    rw [relocate, print_define, print_define, print_relocate f value]
  | .function name parameters body _ => by
    rw [relocate, print_function, print_function, print_relocate f body]

theorem printLines_relocateAll (f : Position → Position) :
    ∀ ts : List Tree, printLines (relocateAll f ts) = printLines ts
  | [] => rfl
  | t :: ts => congrArg₂ (· ++ ·) (print_relocate f t) (printFurtherLines_relocateAll f ts)

theorem printFurtherLines_relocateAll (f : Position → Position) :
    ∀ ts : List Tree, printFurtherLines (relocateAll f ts) = printFurtherLines ts
  | [] => rfl
  | t :: ts => congrArg₂ ('\n' :: · ++ ·) (print_relocate f t) (printFurtherLines_relocateAll f ts)

theorem printArguments_relocateAll (f : Position → Position) :
    ∀ ts : List Tree, printArguments (relocateAll f ts) = printArguments ts
  | [] => rfl
  | t :: ts => congrArg₂ (' ' :: · ++ ·) (print_relocate f t) (printArguments_relocateAll f ts)

end

theorem text_eq_of_bare_eq {t t' : Tree} (h : t.bare = t'.bare) : t.text = t'.text := by
  have printed : t.bare.print = t'.bare.print := congrArg print h
  rw [bare, bare, print_relocate, print_relocate] at printed
  rw [text, text, printed]

theorem exists_scan_text {tree : Tree} (wellFormed : tree.WellFormed) :
    ∃ tokens tree', Token.scan tree.text = .ok tokens ∧ ofTokens tokens = .ok tree' ∧
      tree'.bare = tree.bare := by
  cases tree with
  | program body p =>
    obtain ⟨es, same, ps, cut, spelled⟩ := says_printLines body [] [] wellFormed apart_nil
    have cuts : Piece.Cuts (Tree.program body p).text.toList ps [] := by
      rw [text, String.toList_ofList]
      rwa [List.append_nil] at cut
    refine ⟨_, Grammar.program es, Token.scan_of_sentence cuts ⟨es, spelled.symm⟩, ?_, ?_⟩
    · exact ofSignificant_eq_ok_iff.mpr ⟨es, spelled.symm, rfl⟩
    · rw [Grammar.program, bare, bare, relocate, relocate, relocateAll_eq_map, relocateAll_eq_map]
      exact congrArg (Tree.program · {}) same
  | number | string | identifier | call | define | function => cases wellFormed

/-- What is read from a text is well-formed, and a well-formed program is read back from its text
up to the places of its nodes; so printing what has been read back gives the same text again. -/
theorem print_scan_parse :
    (∀ source tokens tree, Token.scan source = .ok tokens → ofTokens tokens = .ok tree →
      tree.WellFormed) ∧
    (∀ tree : Tree, tree.WellFormed → ∃ tokens tree', Token.scan tree.text = .ok tokens ∧
      ofTokens tokens = .ok tree' ∧ tree'.bare = tree.bare ∧ tree'.text = tree.text) ∧
    (∀ source tokens tree, Token.scan source = .ok tokens → ofTokens tokens = .ok tree →
      ∃ tokens' tree', Token.scan tree.text = .ok tokens' ∧ ofTokens tokens' = .ok tree' ∧
        tree'.text = tree.text) := by
  refine ⟨fun _ _ _ => wellFormed_of_scan, fun tree wellFormed => ?_,
    fun source tokens tree scanned parsed => ?_⟩
  · obtain ⟨tokens, tree', scanned, parsed, same⟩ := exists_scan_text wellFormed
    exact ⟨tokens, tree', scanned, parsed, same, text_eq_of_bare_eq same⟩
  · obtain ⟨tokens', tree', scanned', parsed', same⟩ :=
      exists_scan_text (wellFormed_of_scan scanned parsed)
    exact ⟨tokens', tree', scanned', parsed', text_eq_of_bare_eq same⟩

end Tree

end Lispette
