import Mathlib.Data.List.Infix
import Lispette.Proofs.Places
import Lispette.Proofs.Reading

/-!
Where the nodes of a program are in its text. Each node below the root stands at a token of its own,
behind the bracket and the keyword of its form, and the text has there what the node says; the nodes
stand in the text in the order of the outline.
-/

namespace Lispette

/-- A run of digits that no digit stands next to. -/
structure Text.DigitRun (front run back : List Char) : Prop where
  filled : run ≠ []
  digits : ∀ c ∈ run, c.isDigit = true
  starts : ∀ c ∈ front.getLast?, c.isDigit = false
  ends : ∀ c ∈ back.head?, c.isDigit = false

namespace Tree

/-- The nodes below the root, in the order of the outline. -/
def nodes (t : Tree) : List Tree :=
  (t.outline 0).tail.map Prod.snd

/-- The lexemes that a node begins with; it stands at the token of the last of them. -/
inductive Opens : Tree → List Lexeme → Prop
  | number (digits : String) (p : Position) : Opens (.number digits p) [.number digits]
  | string (text : String) (p : Position) : Opens (.string text p) [.string text]
  | identifier (name : String) (p : Position) : Opens (.identifier name p) [.identifier name]
  | call (head : Grammar.Head) (arguments : List Tree) (p : Position) :
    Opens (.call head.text arguments p) [.bracket .openRound, head.lexeme]
  | define (name : String) (value : Tree) (p : Position) :
    Opens (.define name value p) [.bracket .openRound, .keyword .define, .identifier name]
  | function (name : String) (parameters : List String) (body : Tree) (p : Position) :
    Opens (.function name parameters body p)
      [.bracket .openRound, .keyword .function, .identifier name]

/-- What is written between the front and the back of a text is what the node says: a number with
all its digits, a text between two quotes, a name or an operator. -/
def Written (front written back : List Char) : Tree → Prop
  | .program _ _ => False
  | .number digits _ => written = digits.toList ∧ Text.DigitRun front written back
  | .string text _ => ∃ quote, Front.isQuote quote = true ∧ quote ∉ text.toList ∧
      written = quote :: (text.toList ++ [quote])
  | .identifier name _ | .call name _ _ | .define name _ _ | .function name _ _ _ =>
    written = name.toList

/-- The node stands at a token of the source, the last of those that it begins with, and the text
has there what the node says. -/
structure LocatedIn (source : String) (tokens : List Token) (node : Tree) : Prop where
  opens : ∃ (before : List Token) (t : Token), before ++ [t] <:+: significant tokens ∧
    t.position = node.position ∧ node.Opens ((before ++ [t]).map Token.lexeme)
  written : ∃ front written back, source.toList = front ++ (written ++ back) ∧
    node.position = .after front ∧ node.Written front written back

end Tree

namespace Piece

variable {p : Piece} {ps : List Piece} {text rest : List Char}

theorem eq_digits {digits : String} (lexeme : p.lexeme? = some (.number digits)) :
    p = .digits digits.toList := by
  cases p with
  | digits run =>
    cases lexeme
    rw [String.toList_ofList]
  | word run =>
    rw [lexeme?, Lexeme.ofWord] at lexeme
    cases keyword : Keyword.ofText? (String.ofList run) <;> simp [keyword] at lexeme
  | newline | blank | quoted | bracket | operator => cases lexeme

theorem eq_quoted {said : String} (lexeme : p.lexeme? = some (.string said)) :
    ∃ quote, p = .quoted quote said.toList := by
  cases p with
  | quoted quote inner =>
    cases lexeme
    exact ⟨quote, by rw [String.toList_ofList]⟩
  | word run =>
    rw [lexeme?, Lexeme.ofWord] at lexeme
    cases keyword : Keyword.ofText? (String.ofList run) <;> simp [keyword] at lexeme
  | newline | blank | digits | bracket | operator => cases lexeme

/-- No piece in front of a digit ends in one: it would have gone on. -/
theorem isDigit_getLast? (fits : p.Fits rest) {d : Char} (next : d ∈ rest.head?)
    (digit : d.isDigit = true) : ∀ c ∈ p.chars.getLast?, c.isDigit = false := by
  cases p with
  | digits run => exact absurd digit (by simp [fits.2.2 d next])
  | word run =>
    have alphanum : d.isAlphanum = true := by simp [Char.isAlphanum, digit]
    exact absurd alphanum (by simp [fits.2.2 d next])
  | blank b =>
    intro c last
    obtain rfl : b = c := by simpa [chars] using last
    cases other : b.isDigit with
    | false => rfl
    | true =>
      have alphanum : b.isAlphanum = true := by simp [Char.isAlphanum, other]
      exact absurd fits.1 (by simp [Text.isBlank_of_isAlphanum alphanum])
  | quoted quote inner =>
    intro c last
    obtain rfl : quote = c := by simpa [chars, List.getLast?_cons] using last
    rcases (by simpa [Front.isQuote] using fits.1 : quote = '"' ∨ quote = '\'') with rfl | rfl <;>
      decide
  | newline =>
    rintro c ⟨⟩
    rfl
  | bracket b => cases b <;> (rintro c ⟨⟩; rfl)
  | operator op => cases op <;> (rintro c ⟨⟩; rfl)

theorem Cuts.isDigit_getLast? (cut : Cuts text ps rest) {d : Char} (next : d ∈ rest.head?)
    (digit : d.isDigit = true) : ∀ c ∈ (join ps).getLast?, c.isDigit = false := by
  rcases List.eq_nil_or_concat ps with rfl | ⟨qs, p, rfl⟩
  · intro c last
    cases last
  · rw [List.concat_eq_append] at cut ⊢
    obtain ⟨middle, -, last⟩ := cut.split
    obtain ⟨back, -, fits, rest⟩ := Cuts.cons_iff.mp last
    obtain rfl := Cuts.nil_iff.mp rest
    obtain ⟨c, cs, chars⟩ := exists_chars_eq_cons fits
    have ends : (join (qs ++ [p])).getLast? = p.chars.getLast? := by
      rw [join, List.flatMap_append, List.flatMap_singleton, List.getLast?_append_of_ne_nil]
      simp [chars]
    rw [ends]
    exact Piece.isDigit_getLast? fits next digit

end Piece

namespace Token

variable {source : String} {tokens : List Token} {p : Position}

/-- A number token stands at a whole run of digits. -/
theorem digitRun_of_scan (scanned : scan source = .ok tokens) {digits : String}
    (mem : ⟨.number digits, p⟩ ∈ tokens) : ∃ front back,
      source.toList = front ++ (digits.toList ++ back) ∧ p = .after front ∧
      Text.DigitRun front digits.toList back := by
  obtain ⟨ps, cut, -, rfl⟩ := scan_eq_ok_iff.mp scanned
  obtain ⟨qs, piece, rs, rfl, lexeme, rfl⟩ := Piece.exists_split_of_mem_tokensAfter mem
  obtain rfl := Piece.eq_digits lexeme
  obtain ⟨middle, first, second⟩ := cut.split
  obtain ⟨back, rfl, fits, -⟩ := Piece.Cuts.cons_iff.mp second
  obtain ⟨filled, run, ends⟩ := fits
  obtain ⟨d, ds, chars⟩ := List.exists_cons_of_ne_nil filled
  refine ⟨Piece.join qs, back, first.eq_append, rfl, filled, run, ?_, ends⟩
  exact first.isDigit_getLast? (d := d) (by simp [Piece.chars, chars]) (run d (by simp [chars]))

/-- A string token stands at its first quote, the text and the same quote. -/
theorem quoted_of_scan (scanned : scan source = .ok tokens) {said : String}
    (mem : ⟨.string said, p⟩ ∈ tokens) : ∃ front back quote,
      source.toList = front ++ (quote :: (said.toList ++ [quote]) ++ back) ∧ p = .after front ∧
      Front.isQuote quote = true ∧ quote ∉ said.toList := by
  obtain ⟨front, piece, back, split, fits, lexeme, position⟩ := exists_piece scanned mem
  obtain ⟨quote, rfl⟩ := Piece.eq_quoted lexeme
  exact ⟨front, back, quote, split, position, fits⟩

/-- The token of a name or an operator stands at what it is called. -/
theorem spelled_of_scan (scanned : scan source = .ok tokens) {t : Token} (mem : t ∈ tokens)
    (spelled : (∃ name, t.lexeme = .identifier name) ∨ ∃ op, t.lexeme = .operator op) :
    ∃ front back, source.toList = front ++ (t.lexeme.text.toList ++ back) ∧
      t.position = .after front := by
  obtain ⟨front, piece, back, split, -, lexeme, position⟩ := exists_piece scanned mem
  rw [Piece.chars_of_lexeme? lexeme spelled] at split
  exact ⟨front, back, split, position⟩

end Token

namespace Tree

variable {P : Tree → Prop}

/-- The trees right below the root. -/
def children : Tree → List Tree
  | .program body _ => body
  | .number _ _ | .string _ _ | .identifier _ _ => []
  | .call _ arguments _ => arguments
  | .define _ value _ => [value]
  | .function _ _ body _ => [body]

mutual

/-- What is handed down from each tree to the trees right below it holds of all nodes. -/
theorem of_mem_outline (inherited : ∀ t, P t → ∀ child ∈ t.children, P child) :
    ∀ (t : Tree) (depth : Nat), P t → ∀ node ∈ t.outline depth, P node.2
  | .program body p, depth, h => List.forall_mem_cons.mpr
    ⟨h, of_mem_outlineAll inherited body (depth + 1) (inherited (.program body p) h)⟩
  | .number _ _, _, h | .string _ _, _, h | .identifier _ _, _, h =>
    List.forall_mem_singleton.mpr h
  | .call head arguments p, depth, h => List.forall_mem_cons.mpr
    ⟨h, of_mem_outlineAll inherited arguments (depth + 1) (inherited (.call head arguments p) h)⟩
  | .define name value p, depth, h => List.forall_mem_cons.mpr
    ⟨h, of_mem_outline inherited value (depth + 1)
      (inherited (.define name value p) h value List.mem_cons_self)⟩
  | .function name parameters body p, depth, h => List.forall_mem_cons.mpr
    ⟨h, of_mem_outline inherited body (depth + 1)
      (inherited (.function name parameters body p) h body List.mem_cons_self)⟩

theorem of_mem_outlineAll (inherited : ∀ t, P t → ∀ child ∈ t.children, P child) :
    ∀ (ts : List Tree) (depth : Nat), (∀ t ∈ ts, P t) → ∀ node ∈ outlineAll depth ts, P node.2
  | [], _, _ => fun _ member => absurd member List.not_mem_nil
  | t :: ts, depth, h => by
    obtain ⟨first, others⟩ := List.forall_mem_cons.mp h
    exact List.forall_mem_append.mpr
      ⟨of_mem_outline inherited t depth first, of_mem_outlineAll inherited ts depth others⟩

end

theorem standsOn_children {ts : List Token} : ∀ t : Tree, t.StandsOn ts →
    ∀ child ∈ t.children, child.StandsOn ts
  | .program _ _, h => allStandOn_iff.mp h
  | .number _ _, _ | .string _ _, _ | .identifier _ _, _ =>
    fun _ member => absurd member List.not_mem_nil
  | .call _ _ _, h => allStandOn_iff.mp h.2
  | .define _ _ _, h | .function _ _ _ _, h => List.forall_mem_singleton.mpr h.2

theorem allWellFormed_iff {ts : List Tree} :
    AllWellFormed ts ↔ ∀ t ∈ ts, t.WellFormedWithin := by
  induction ts with
  | nil => simp [AllWellFormed]
  | cons t ts ih => simp [AllWellFormed, ih]

theorem wellFormedWithin_children : ∀ t : Tree, t.WellFormedWithin →
    ∀ child ∈ t.children, child.WellFormedWithin
  | .number _ _, _ | .string _ _, _ | .identifier _ _, _ =>
    fun _ member => absurd member List.not_mem_nil
  | .call _ _ _, h => allWellFormed_iff.mp h.2
  | .define _ _ _, h => List.forall_mem_singleton.mpr h.2
  | .function _ _ _ _, h => List.forall_mem_singleton.mpr h.2.2

variable {source : String} {tokens : List Token} {tree : Tree}

theorem locatedIn_of_standsOn (scanned : Token.scan source = .ok tokens) :
    ∀ node : Tree, node.WellFormedWithin → node.StandsOn (significant tokens) →
      node.LocatedIn source tokens
  | .number digits p, _, stands => by
    obtain ⟨front, back, split, position, run⟩ :=
      Token.digitRun_of_scan scanned (Token.mem_of_mem_significant stands)
    exact ⟨⟨[], _, (List.singleton_infix_iff ..).mpr stands, rfl, .number digits p⟩,
      front, _, back, split, position, rfl, run⟩
  | .string text p, _, stands => by
    obtain ⟨front, back, quote, split, position, opens, inside⟩ :=
      Token.quoted_of_scan scanned (Token.mem_of_mem_significant stands)
    exact ⟨⟨[], _, (List.singleton_infix_iff ..).mpr stands, rfl, .string text p⟩,
      front, _, back, split, position, quote, opens, inside, rfl⟩
  | .identifier name p, _, stands => by
    obtain ⟨front, back, split, position⟩ := Token.spelled_of_scan scanned
      (Token.mem_of_mem_significant stands) (.inl ⟨name, rfl⟩)
    exact ⟨⟨[], _, (List.singleton_infix_iff ..).mpr stands, rfl, .identifier name p⟩,
      front, _, back, split, position, rfl⟩
  | .call head arguments p, _, stands => by
    obtain ⟨⟨opening, head, rfl, form⟩, -⟩ := stands
    have spelled : (∃ name, head.lexeme = .identifier name) ∨
        ∃ op, head.lexeme = .operator op := by
      cases head with
      | identifier name => exact .inl ⟨name, rfl⟩
      | operator op => exact .inr ⟨op, rfl⟩
    have text : head.lexeme.text = head.text := by cases head <;> rfl
    obtain ⟨front, back, split, position⟩ := Token.spelled_of_scan scanned
      (Token.mem_of_mem_significant (form.subset (by simp))) (t := ⟨head.lexeme, p⟩) spelled
    exact ⟨⟨[_], _, form, rfl, .call head arguments p⟩, front, _, back, split, position,
      congrArg String.toList text⟩
  | .define name value p, _, stands => by
    obtain ⟨⟨opening, keyword, form⟩, -⟩ := stands
    obtain ⟨front, back, split, position⟩ := Token.spelled_of_scan scanned
      (Token.mem_of_mem_significant (form.subset (by simp))) (t := ⟨.identifier name, p⟩)
      (.inl ⟨name, rfl⟩)
    exact ⟨⟨[_, _], _, form, rfl, .define name value p⟩, front, _, back, split, position, rfl⟩
  | .function name parameters body p, _, stands => by
    obtain ⟨⟨opening, keyword, form⟩, -⟩ := stands
    obtain ⟨front, back, split, position⟩ := Token.spelled_of_scan scanned
      (Token.mem_of_mem_significant (form.subset (by simp))) (t := ⟨.identifier name, p⟩)
      (.inl ⟨name, rfl⟩)
    exact ⟨⟨[_, _], _, form, rfl, .function name parameters body p⟩, front, _, back, split,
      position, rfl⟩

end Tree

namespace Grammar

open Lispette.Tree

mutual

/-- The nodes of an expression stand at some of its tokens, in their order. -/
theorem Expr.outline_sublist : ∀ (e : Expr) (depth : Nat),
    ((e.tree.outline depth).map (·.2.position)).Sublist (e.tokens.map Token.position)
  | .number _ _, _ | .string _ _, _ | .identifier _ _, _ => List.Sublist.refl _
  | .define opening keyword name p value closing, depth => by
    have inner := outline_sublist value (depth + 1)
    simp only [tree, outline, tokens, List.map_cons, List.map_append, List.cons_append]
    exact .cons _ <| .cons _ <| .cons_cons _ <| inner.trans (List.sublist_append_left ..)
  | .function opening keyword name p parameters body closing, depth => by
    have inner := outline_sublist body (depth + 1)
    simp only [tree, outline, tokens, List.map_cons, List.map_append, List.cons_append,
      List.append_assoc]
    exact .cons _ <| .cons _ <| .cons_cons _ <|
      (inner.trans (List.sublist_append_left ..)).trans (List.sublist_append_right ..)
  | .call opening head p arguments closing, depth => by
    have inner := outlineAll_sublist arguments (depth + 1)
    simp only [tree, outline, tokens, List.map_cons, List.map_append, List.cons_append]
    exact .cons _ <| .cons_cons _ <| inner.trans (List.sublist_append_left ..)

theorem Expr.outlineAll_sublist : ∀ (es : List Expr) (depth : Nat),
    ((outlineAll depth (treeAll es)).map (·.2.position)).Sublist
      ((tokensAll es).map Token.position)
  | [], _ => List.Sublist.refl _
  | e :: es, depth => by
    rw [treeAll, outlineAll, tokensAll, List.map_append, List.map_append]
    exact (outline_sublist e depth).append (outlineAll_sublist es depth)

end

end Grammar

namespace Tree

open Grammar

variable {source : String} {tree : Tree}

/-- Each node below the root of a program stands at a token of its source, where the text has what
the node says, and each node stands further on than those before it in the outline. -/
theorem nodes_located (said : ofSource source = .ok tree) :
    ∃ tokens, Token.scan source = .ok tokens ∧
      (∀ node ∈ tree.nodes, node.LocatedIn source tokens) ∧
      (tree.nodes.map (·.position.offset)).Pairwise (· < ·) := by
  obtain ⟨tokens, scanned, parsed⟩ := ofSource_eq_ok_iff.mp said
  have stands := standsOn_of_ofTokens parsed
  have wellFormed := wellFormed_of_scan scanned parsed
  obtain ⟨es, derived, rfl⟩ := ofSignificant_eq_ok_iff.mp parsed
  refine ⟨tokens, scanned, fun node member => ?_, ?_⟩
  · obtain ⟨⟨depth, _⟩, listed, rfl⟩ := List.mem_map.mp member
    have within : ∀ t ∈ Expr.treeAll es, t.WellFormedWithin ∧ t.StandsOn (significant tokens) :=
      fun t given => ⟨allWellFormed_iff.mp wellFormed t given, allStandOn_iff.mp stands t given⟩
    obtain ⟨formed, located⟩ := of_mem_outlineAll
      (P := fun t => t.WellFormedWithin ∧ t.StandsOn (significant tokens))
      (fun t h child right => ⟨wellFormedWithin_children t h.1 child right,
        standsOn_children t h.2 child right⟩) _ 1 within _ listed
    exact locatedIn_of_standsOn scanned _ formed located
  · have sublist := Expr.outlineAll_sublist es 1
    rw [derived] at sublist
    have ordered : ((significant tokens).map Token.position).Pairwise (·.offset < ·.offset) :=
      List.pairwise_map.mpr ((Token.pairwise_of_scan scanned).sublist List.filter_sublist)
    have ascending := ordered.sublist sublist
    rw [List.pairwise_map] at ascending
    simpa only [Tree.nodes, Grammar.program, outline, List.tail_cons, List.pairwise_map]
      using ascending

/-- A function whose body is a call on another line, with a string and a number. -/
theorem nodes_located_lines : ∃ tokens,
    Token.scan "(fn f [a]\n(+ 'b' 12))" = .ok tokens ∧
    (Tree.call "+" [.string "b" ⟨13, 3, 1⟩, .number "12" ⟨17, 7, 1⟩] ⟨11, 1, 1⟩).LocatedIn
      "(fn f [a]\n(+ 'b' 12))" tokens ∧
    [4, 11, 13, 17].Pairwise (· < ·) := by
  have scanned : Token.scan "(fn f [a]\n(+ 'b' 12))" = .ok [⟨.bracket .openRound, ⟨0, 0, 0⟩⟩,
      ⟨.keyword .function, ⟨1, 1, 0⟩⟩, ⟨.identifier "f", ⟨4, 4, 0⟩⟩,
      ⟨.bracket .openSquare, ⟨6, 6, 0⟩⟩, ⟨.identifier "a", ⟨7, 7, 0⟩⟩,
      ⟨.bracket .closeSquare, ⟨8, 8, 0⟩⟩, ⟨.newline, ⟨9, 9, 0⟩⟩,
      ⟨.bracket .openRound, ⟨10, 0, 1⟩⟩, ⟨.operator .plus, ⟨11, 1, 1⟩⟩,
      ⟨.string "b", ⟨13, 3, 1⟩⟩, ⟨.number "12", ⟨17, 7, 1⟩⟩,
      ⟨.bracket .closeRound, ⟨19, 9, 1⟩⟩, ⟨.bracket .closeRound, ⟨20, 10, 1⟩⟩] := by
    decide +kernel
  obtain ⟨tokens, same, located, ordered⟩ := nodes_located (ofSource_of_read scanned rfl)
  exact ⟨tokens, same, located _ (.tail _ (.head _)), ordered⟩

end Tree

end Lispette
