import Lispette.Proofs.Cutting
import Lispette.Proofs.Viability

/-!
One count against nesting. The scanner counts round and square brackets together, the grammar nests
them by kind. A program is nested, and what is nested is balanced; tokens that end within a form
have opened more brackets than they have closed, so no balanced text makes the reader run out.
-/

namespace Lispette

open Grammar

namespace Bracket

/-- Every bracket is closed by one of its own kind, within the brackets around it. -/
inductive Nested : List Bracket → Prop
  | nil : Nested []
  | append {bs cs : List Bracket} (left : Nested bs) (right : Nested cs) : Nested (bs ++ cs)
  | round {bs : List Bracket} (inner : Nested bs) : Nested (.openRound :: bs ++ [.closeRound])
  | square {bs : List Bracket} (inner : Nested bs) : Nested (.openSquare :: bs ++ [.closeSquare])

variable {bs cs : List Bracket} {n : Nat}

@[simp] theorem openings_append (bs cs : List Bracket) :
    openings (bs ++ cs) = openings bs + openings cs := List.countP_append

@[simp] theorem closings_append (bs cs : List Bracket) :
    closings (bs ++ cs) = closings bs + closings cs := List.countP_append

theorem Covered.append (left : Covered n bs)
    (right : Covered (n + openings bs - closings bs) cs) : Covered n (bs ++ cs) := by
  intro before h
  rcases List.prefix_or_prefix_of_prefix h (List.prefix_append bs cs) with h' | ⟨tail, rfl⟩
  · exact left before h'
  · have whole := left bs List.prefix_rfl
    have ends := right tail ((List.prefix_append_right_inj bs).mp h)
    simp only [closings_append, openings_append]
    omega

theorem Covered.mono {m : Nat} (h : Covered n bs) (le : n ≤ m) : Covered m bs := fun before hb => by
  have := h before hb
  omega

theorem Balanced.append (left : Balanced bs) (right : Balanced cs) : Balanced (bs ++ cs) := by
  constructor
  · exact left.1.append (right.1.mono (Nat.zero_le _))
  · rw [openings_append, closings_append, left.2, right.2]

theorem Balanced.wrap {b c : Bracket} (opening : b.isOpening = true) (closing : c.isOpening = false)
    (h : Balanced bs) : Balanced (b :: bs ++ [c]) := by
  have level : 1 + openings bs - closings bs = 1 := by rw [h.2]; omega
  constructor
  · rw [List.cons_append, covered_cons_of_opening opening]
    refine (h.1.mono (Nat.zero_le _)).append ?_
    rw [level, covered_cons_of_closing closing]
    exact ⟨Nat.one_pos, covered_nil 0⟩
  · have same := h.2
    simp [openings, closings, opening, closing] at same ⊢
    omega

theorem Nested.balanced (h : Nested bs) : Balanced bs := by
  induction h with
  | nil => exact ⟨covered_nil 0, rfl⟩
  | append left right ihl ihr => exact ihl.append ihr
  | round inner ih => exact ih.wrap rfl rfl
  | square inner ih => exact ih.wrap rfl rfl

end Bracket

namespace Token

def brackets (ts : List Token) : List Bracket :=
  ts.filterMap (·.lexeme.bracket?)

@[simp] theorem brackets_nil : brackets [] = [] := rfl

@[simp] theorem brackets_cons (t : Token) (ts : List Token) :
    brackets (t :: ts) = t.lexeme.bracket?.toList ++ brackets ts := by
  cases h : t.lexeme.bracket? <;> simp [brackets, h]

@[simp] theorem brackets_append (ts us : List Token) :
    brackets (ts ++ us) = brackets ts ++ brackets us :=
  List.filterMap_append

theorem brackets_significant (ts : List Token) : brackets (Tree.significant ts) = brackets ts := by
  induction ts with
  | nil => rfl
  | cons t ts ih =>
    by_cases newline : t.lexeme = .newline
    · simp_all [Tree.significant, isNewline, Lexeme.bracket?]
    · simp_all [Tree.significant, isNewline]

theorem brackets_tokensAfter (before : List Char) (ps : List Piece) :
    brackets (Piece.tokensAfter before ps) = Piece.brackets ps := by
  induction ps generalizing before with
  | nil => rfl
  | cons p ps ih =>
    rw [Piece.tokensAfter, brackets_append, ih, Piece.brackets_cons, Piece.bracket?, Piece.tokens]
    cases p.lexeme? <;> simp

end Token

namespace Grammar

open Lispette.Token Lispette.Bracket

theorem Parameters.brackets_nameTokens (names : List (String × Position)) :
    brackets (nameTokens names) = [] := by
  induction names with
  | nil => rfl
  | cons n names ih => simpa [nameTokens, Lexeme.bracket?] using ih

theorem Parameters.nested_tokens (ps : Option Parameters) :
    Nested (brackets (ps.elim [] tokens)) := by
  cases ps with
  | none => exact .nil
  | some ps => simpa [tokens, brackets_nameTokens, Lexeme.bracket?] using Nested.square .nil

mutual

theorem Expr.nested_tokens : ∀ e : Expr, Nested (brackets e.tokens)
  | .number _ _ | .string _ _ | .identifier _ _ => .nil
  | .define _ _ _ _ value _ => by
    simpa [tokens, Lexeme.bracket?] using Nested.round (nested_tokens value)
  | .function _ _ _ _ parameters body _ => by
    simpa [tokens, Lexeme.bracket?] using
      Nested.round ((Parameters.nested_tokens parameters).append (nested_tokens body))
  | .call _ head _ arguments _ => by
    cases head <;>
      simpa [tokens, Head.lexeme, Lexeme.bracket?] using Nested.round (nested_tokensAll arguments)

theorem Expr.nested_tokensAll : ∀ es : List Expr, Nested (brackets (tokensAll es))
  | [] => .nil
  | e :: es => by
    simpa [tokensAll] using (nested_tokens e).append (nested_tokensAll es)

end

variable {ts us : List Token} {form : OpenForm} {r : Parse}

theorem closings_lt_of_nested {bs : List Bracket} (nested : Nested bs) :
    closings (.openRound :: bs) < openings (.openRound :: bs) := by
  have level := nested.balanced.2
  have opening : Bracket.openRound.isOpening = true := rfl
  simp [openings, closings, opening] at level ⊢
  omega

theorem FormRead.closings_lt (read : FormRead us form) :
    closings (brackets us) < openings (brackets us) := by
  cases read with
  | opened | definedName | definedValue | functionName | functionParameters =>
    exact closings_lt_of_nested .nil
  | definitionEnd opening keyword name p value =>
    simpa [Lexeme.bracket?] using closings_lt_of_nested value.nested_tokens
  | functionParameter opening keyword name p square names =>
    simp [Lexeme.bracket?, Parameters.brackets_nameTokens, openings, closings, isOpening]
  | functionBody opening keyword name p parameters =>
    simpa [Lexeme.bracket?] using
      closings_lt_of_nested (Parameters.nested_tokens (some parameters))
  | functionEnd opening keyword name p parameters body =>
    simpa [Lexeme.bracket?] using closings_lt_of_nested
      ((Parameters.nested_tokens parameters).append body.nested_tokens)
  | callArgument opening head p arguments =>
    cases head <;> simpa [Lexeme.bracket?, Head.lexeme] using
      closings_lt_of_nested (Expr.nested_tokensAll arguments)

/-- Each open form holds a bracket open. -/
theorem Read.closings_le (read : Read ts r) :
    closings (brackets ts) + r.forms.length ≤ openings (brackets ts) := by
  induction read with
  | statements es => exact (Expr.nested_tokensAll es).balanced.2.ge
  | form outer expects inner ih =>
    have := inner.closings_lt
    simp only [brackets_append, closings_append, openings_append, List.length_cons] at ih ⊢
    omega

theorem Read.forms_eq_nil (read : Read ts r) (balanced : Balanced (brackets ts)) :
    r.forms = [] := by
  have total := read.closings_le
  have level := balanced.2
  exact List.eq_nil_of_length_eq_zero (by omega)

theorem nested_of_ofTokens {tree : Tree} (parsed : Tree.ofTokens ts = .ok tree) :
    Nested (brackets ts) := by
  obtain ⟨es, derived, -⟩ := ofSignificant_eq_ok_iff.mp parsed
  rw [← brackets_significant, ← derived]
  exact Expr.nested_tokensAll es

theorem ofTokens_ne_unexpectedEnd (balanced : Balanced (brackets ts)) (p : Position) :
    Tree.ofTokens ts ≠ .error (.unexpectedEnd p) := by
  intro ended
  obtain ⟨viable, underived, -⟩ := ofSignificant_eq_unexpectedEnd_iff.mp ended
  obtain ⟨⟨statements, forms⟩, run⟩ := exists_readAll_iff.mpr viable
  obtain rfl : forms = [] :=
    (Read.start run).forms_eq_nil (by rwa [brackets_significant])
  obtain ⟨es, derived, -⟩ := readAll_eq_ok_iff.mp run
  exact underived ⟨es, derived⟩

end Grammar

namespace Token

open Piece

variable {source : String} {tokens : List Token} {ps : List Piece}

theorem balanced_of_scan (scanned : scan source = .ok tokens) :
    Bracket.Balanced (brackets tokens) := by
  obtain ⟨ps, -, balanced, rfl⟩ := scan_eq_ok_iff.mp scanned
  rwa [brackets_tokensAfter]

theorem scan_of_sentence (cut : Cuts source.toList ps [])
    (sentence : Sentence (Tree.significant (tokensAfter [] ps))) :
    scan source = .ok (tokensAfter [] ps) := by
  obtain ⟨es, derived⟩ := sentence
  refine scan_of_balanced cut ?_
  rw [← brackets_tokensAfter [], ← brackets_significant, ← derived]
  exact (Expr.nested_tokensAll es).balanced

/-- The tokens of a scanned text never run out within a form: it is the scanner that reports a text
which ends too early, at its end. A text that scans and parses has its brackets nested by kind; and
a text whose pieces make a program is never refused for its brackets. -/
theorem scan_nesting (source : String) :
    (∀ tokens, scan source = .ok tokens →
      ∀ p, Tree.ofTokens tokens ≠ .error (.unexpectedEnd p)) ∧
    (∀ p, scan source = .error (.unexpectedEnd p) → p = .after source.toList) ∧
    (∀ tokens tree, scan source = .ok tokens → Tree.ofTokens tokens = .ok tree →
      Bracket.Nested (brackets tokens)) ∧
    (∀ ps, Cuts source.toList ps [] → Sentence (Tree.significant (tokensAfter [] ps)) →
      scan source = .ok (tokensAfter [] ps)) :=
  ⟨fun _ scanned => ofTokens_ne_unexpectedEnd (balanced_of_scan scanned),
    fun _ ended => (scan_eq_unexpectedEnd_iff.mp ended).1,
    fun _ _ _ parsed => nested_of_ofTokens parsed,
    fun _ cut sentence => scan_of_sentence cut sentence⟩

end Token

end Lispette
