import Lispette.Proofs.Cutting
import Lispette.Proofs.Viability

/-!
Well-formed trees: those that a text can say. Their numbers are runs of digits, their strings leave
one kind of quote free, their names are words that spell no keyword, and only the outermost node is
a program. Every tree that is read from a scanned text is well-formed.
-/

namespace Lispette

open Grammar

/-- A letter, then letters and digits, that spell no keyword. -/
structure IsName (name : String) : Prop where
  letter : ∃ c ∈ name.toList.head?, c.isAlpha = true
  alphanum : ∀ c ∈ name.toList, c.isAlphanum = true
  noKeyword : ∀ k : Keyword, name ≠ k.text

def IsNumber (digits : String) : Prop :=
  digits.toList ≠ [] ∧ ∀ c ∈ digits.toList, c.isDigit = true

/-- A text that some quote does not occur in. -/
def IsQuotable (text : String) : Prop :=
  ¬ ('"' ∈ text.toList ∧ '\'' ∈ text.toList)

namespace Tree

mutual

def WellFormedWithin : Tree → Prop
  | .program _ _ => False
  | .number digits _ => IsNumber digits
  | .string text _ => IsQuotable text
  | .identifier name _ => IsName name
  | .call head arguments _ =>
    (IsName head ∨ ∃ op : Operator, head = op.text) ∧ AllWellFormed arguments
  | .define name value _ => IsName name ∧ value.WellFormedWithin
  | .function name parameters body _ =>
    IsName name ∧ (∀ parameter ∈ parameters, IsName parameter) ∧ body.WellFormedWithin

def AllWellFormed : List Tree → Prop
  | [] => True
  | t :: ts => t.WellFormedWithin ∧ AllWellFormed ts

end

def WellFormed : Tree → Prop
  | .program body _ => AllWellFormed body
  | _ => False

end Tree

theorem Keyword.ofText?_eq_none_iff {word : String} :
    ofText? word = none ↔ ∀ k : Keyword, word ≠ k.text := by
  constructor
  · intro h k same
    have distinct : function.text ≠ define.text := by decide
    cases k <;> simp [ofText?, same, distinct] at h
  · intro h
    simp [ofText?, h .define, h .function]

namespace Lexeme

def WellFormed : Lexeme → Prop
  | .number digits => IsNumber digits
  | .string text => IsQuotable text
  | .identifier name => IsName name
  | .operator _ | .bracket _ | .keyword _ | .newline => True

end Lexeme

namespace Piece

variable {p : Piece} {ps : List Piece} {rest text before : List Char} {l : Lexeme} {t : Token}

theorem wellFormed_of_fits (fits : p.Fits rest) (lexeme : p.lexeme? = some l) :
    l.WellFormed := by
  cases p with
  | digits run =>
    cases lexeme
    simpa [Lexeme.WellFormed, IsNumber] using ⟨fits.1, fits.2.1⟩
  | word run =>
    obtain ⟨letter, alphanum, -⟩ := fits
    cases lexeme
    rw [Lexeme.ofWord]
    cases keyword : Keyword.ofText? (String.ofList run) with
    | some k => trivial
    | none => exact ⟨by simpa using letter, by simpa using alphanum,
        Keyword.ofText?_eq_none_iff.mp keyword⟩
  | quoted quote text =>
    obtain ⟨opens, inside⟩ := fits
    cases lexeme
    intro both
    obtain ⟨double, single⟩ := both
    rw [String.toList_ofList] at double single
    rcases (by simpa [Front.isQuote] using opens : quote = '"' ∨ quote = '\'') with rfl | rfl
    · exact inside double
    · exact inside single
  | newline | bracket | operator => cases lexeme; trivial
  | blank => cases lexeme

theorem wellFormed_of_mem_tokensAfter (cut : Cuts text ps rest) (mem : t ∈ tokensAfter before ps) :
    t.lexeme.WellFormed := by
  induction cut generalizing before with
  | nil => simp [tokensAfter] at mem
  | @cons p ps text rest fits cut ih =>
    rcases List.mem_append.mp mem with here | later
    · rw [tokens] at here
      cases lexeme : p.lexeme? with
      | none => simp [lexeme] at here
      | some l =>
        obtain rfl : t = ⟨l, .after before⟩ := by simpa [lexeme] using here
        exact wellFormed_of_fits fits lexeme
    · exact ih later

end Piece

namespace Grammar

open Lispette.Tree

theorem Parameters.wellFormed_texts (parameters : Option Parameters)
    (tokens : ∀ t ∈ parameters.elim [] tokens, t.lexeme.WellFormed) :
    ∀ name ∈ parameters.elim [] texts, IsName name := by
  cases parameters with
  | none => simp
  | some ps =>
    intro name mem
    obtain ⟨n, within, rfl⟩ := List.mem_map.mp mem
    refine tokens ⟨.identifier n.1, n.2⟩ ?_
    simpa [Parameters.tokens, nameTokens] using within

theorem Head.wellFormed_text {head : Head} (lexeme : head.lexeme.WellFormed) :
    IsName head.text ∨ ∃ op : Operator, head.text = op.text := by
  cases head with
  | identifier name => exact .inl lexeme
  | operator op => exact .inr ⟨op, rfl⟩

mutual

theorem Expr.wellFormedWithin_tree : ∀ e : Expr, (∀ t ∈ e.tokens, t.lexeme.WellFormed) →
    e.tree.WellFormedWithin
  | .number _ _, h => h _ (List.mem_singleton_self _)
  | .string _ _, h => h _ (List.mem_singleton_self _)
  | .identifier _ _, h => h _ (List.mem_singleton_self _)
  | .define _ _ _ _ value _, h => by
    simp only [tokens, List.cons_append, List.forall_mem_cons, List.forall_mem_append] at h
    obtain ⟨-, -, name, inner, -⟩ := h
    exact ⟨name, wellFormedWithin_tree value inner⟩
  | .function _ _ _ _ parameters body _, h => by
    simp only [tokens, List.cons_append, List.forall_mem_cons, List.forall_mem_append] at h
    obtain ⟨-, -, name, ⟨list, inner⟩, -⟩ := h
    exact ⟨name, Parameters.wellFormed_texts parameters list, wellFormedWithin_tree body inner⟩
  | .call _ head _ arguments _, h => by
    simp only [tokens, List.cons_append, List.forall_mem_cons, List.forall_mem_append] at h
    obtain ⟨-, first, inner, -⟩ := h
    exact ⟨Head.wellFormed_text first, allWellFormed_treeAll arguments inner⟩

theorem Expr.allWellFormed_treeAll : ∀ es : List Expr,
    (∀ t ∈ tokensAll es, t.lexeme.WellFormed) → AllWellFormed (treeAll es)
  | [], _ => trivial
  | e :: es, h => by
    obtain ⟨first, others⟩ := List.forall_mem_append.mp h
    exact ⟨wellFormedWithin_tree e first, allWellFormed_treeAll es others⟩

end

end Grammar

theorem Token.wellFormed_of_scan {source : String} {tokens : List Token}
    (scanned : scan source = .ok tokens) : ∀ t ∈ tokens, t.lexeme.WellFormed := by
  obtain ⟨ps, cut, -, rfl⟩ := scan_eq_ok_iff.mp scanned
  exact fun t mem => Piece.wellFormed_of_mem_tokensAfter cut mem

theorem Tree.wellFormed_of_scan {source : String} {tokens : List Token} {tree : Tree}
    (scanned : Token.scan source = .ok tokens) (parsed : ofTokens tokens = .ok tree) :
    tree.WellFormed := by
  obtain ⟨es, derived, rfl⟩ := ofSignificant_eq_ok_iff.mp parsed
  refine Expr.allWellFormed_treeAll es fun t mem => ?_
  rw [derived] at mem
  exact Token.wellFormed_of_scan scanned t (List.mem_filter.mp mem).1

end Lispette
