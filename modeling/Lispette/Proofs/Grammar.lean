import Lispette.Tree.Parser

/-!
The grammar of programs, over the tokens that are no line breaks. A derivation of an expression
has one constructor for each production and keeps the tokens it takes, so that its tokens and its
tree can be read off. The grammar is unambiguous: the tokens determine the derivation.
-/

namespace Lispette

namespace Grammar

inductive Head
  | identifier (name : String)
  | operator (op : Operator)
  deriving Inhabited

structure Parameters where
  opening : Position
  names : List (String × Position)
  closing : Position

/-- A derivation of an expression: a number, a string, a name, `( def name expr )`,
`( fn name [ name* ] expr )` with or without the list, or `( head expr* )`. -/
inductive Expr
  | number (digits : String) (p : Position)
  | string (text : String) (p : Position)
  | identifier (name : String) (p : Position)
  | define (opening keyword : Position) (name : String) (p : Position) (value : Expr)
      (closing : Position)
  | function (opening keyword : Position) (name : String) (p : Position)
      (parameters : Option Parameters) (body : Expr) (closing : Position)
  | call (opening : Position) (head : Head) (p : Position) (arguments : List Expr)
      (closing : Position)
  deriving Inhabited

namespace Head

def lexeme : Head → Lexeme
  | .identifier name => .identifier name
  | .operator op => .operator op

def text : Head → String
  | .identifier name => name
  | .operator op => op.text

theorem lexeme_inj {h h' : Head} (same : h.lexeme = h'.lexeme) : h = h' := by
  cases h <;> cases h' <;> simp_all [lexeme]

end Head

namespace Parameters

def nameTokens (names : List (String × Position)) : List Token :=
  names.map fun n => ⟨.identifier n.1, n.2⟩

def tokens (ps : Parameters) : List Token :=
  ⟨.bracket .openSquare, ps.opening⟩ :: nameTokens ps.names ++ [⟨.bracket .closeSquare, ps.closing⟩]

def texts (ps : Parameters) : List String :=
  ps.names.map Prod.fst

end Parameters

namespace Expr

mutual

def tokens : Expr → List Token
  | .number digits p => [⟨.number digits, p⟩]
  | .string text p => [⟨.string text, p⟩]
  | .identifier name p => [⟨.identifier name, p⟩]
  | .define opening keyword name p value closing =>
    ⟨.bracket .openRound, opening⟩ :: ⟨.keyword .define, keyword⟩ :: ⟨.identifier name, p⟩ ::
      value.tokens ++ [⟨.bracket .closeRound, closing⟩]
  | .function opening keyword name p parameters body closing =>
    ⟨.bracket .openRound, opening⟩ :: ⟨.keyword .function, keyword⟩ :: ⟨.identifier name, p⟩ ::
      parameters.elim [] Parameters.tokens ++ body.tokens ++ [⟨.bracket .closeRound, closing⟩]
  | .call opening head p arguments closing =>
    ⟨.bracket .openRound, opening⟩ :: ⟨head.lexeme, p⟩ ::
      tokensAll arguments ++ [⟨.bracket .closeRound, closing⟩]

def tokensAll : List Expr → List Token
  | [] => []
  | e :: es => e.tokens ++ tokensAll es

end

mutual

def tree : Expr → Tree
  | .number digits p => .number digits p
  | .string text p => .string text p
  | .identifier name p => .identifier name p
  | .define _ _ name p value _ => .define name value.tree p
  | .function _ _ name p parameters body _ =>
    .function name (parameters.elim [] Parameters.texts) body.tree p
  | .call _ head p arguments _ => .call head.text (treeAll arguments) p

def treeAll : List Expr → List Tree
  | [] => []
  | e :: es => e.tree :: treeAll es

end

theorem tokensAll_append (es fs : List Expr) :
    tokensAll (es ++ fs) = tokensAll es ++ tokensAll fs := by
  induction es with
  | nil => rfl
  | cons e es ih => simp [tokensAll, ih]

theorem treeAll_append (es fs : List Expr) : treeAll (es ++ fs) = treeAll es ++ treeAll fs := by
  induction es with
  | nil => rfl
  | cons e es ih => simp [treeAll, ih]

def opens : Lexeme → Bool
  | .number _ | .string _ | .identifier _ | .bracket .openRound => true
  | _ => false

def Stops (rest : List Token) : Prop :=
  ∀ t ∈ rest.head?, opens t.lexeme = false

theorem exists_tokens_eq_cons (e : Expr) :
    ∃ t ts, e.tokens = t :: ts ∧ opens t.lexeme = true := by
  cases e <;> exact ⟨_, _, rfl, rfl⟩

theorem not_stops_tokens_append (e : Expr) (rest : List Token) :
    ¬ Stops (e.tokens ++ rest) := by
  obtain ⟨t, ts, tokens, opening⟩ := exists_tokens_eq_cons e
  simp [Stops, tokens, opening]

theorem stops_closeRound (p : Position) (rest : List Token) :
    Stops (⟨.bracket .closeRound, p⟩ :: rest) := by
  simp [Stops, opens]

theorem stops_nil : Stops [] := by
  simp [Stops]

end Expr

namespace Parameters

theorem nameTokens_append_inj {names names' : List (String × Position)} {rest rest' : List Token}
    {p p' : Position} (h : nameTokens names ++ ⟨.bracket .closeSquare, p⟩ :: rest =
      nameTokens names' ++ ⟨.bracket .closeSquare, p'⟩ :: rest') :
    names = names' ∧ p = p' ∧ rest = rest' := by
  induction names generalizing names' with
  | nil =>
    cases names' with
    | nil => simpa [nameTokens] using h
    | cons n names' => simp [nameTokens] at h
  | cons n names ih =>
    cases names' with
    | nil => simp [nameTokens] at h
    | cons n' names' =>
      simp only [nameTokens, List.map_cons, List.cons_append, List.cons.injEq, Token.mk.injEq,
        Lexeme.identifier.injEq] at h
      obtain ⟨⟨name, position⟩, tail⟩ := h
      obtain ⟨rfl, ends⟩ := ih tail
      exact ⟨by rw [Prod.ext name position], ends⟩

theorem elim_tokens_append_inj {ps ps' : Option Parameters} {e e' : Expr}
    {rest rest' : List Token}
    (h : ps.elim [] tokens ++ (e.tokens ++ rest) = ps'.elim [] tokens ++ (e'.tokens ++ rest')) :
    ps = ps' ∧ e.tokens ++ rest = e'.tokens ++ rest' := by
  -- The first token tells whether there is a list: no expression starts with a square bracket.
  obtain ⟨t, ts, tokens, opening⟩ := e.exists_tokens_eq_cons
  obtain ⟨t', ts', tokens', opening'⟩ := e'.exists_tokens_eq_cons
  cases ps with
  | none =>
    cases ps' with
    | none => exact ⟨rfl, h⟩
    | some ps' =>
      simp [tokens, Parameters.tokens] at h
      simp [h.1, Expr.opens] at opening
  | some ps =>
    cases ps' with
    | none =>
      simp [tokens', Parameters.tokens] at h
      simp [← h.1, Expr.opens] at opening'
    | some ps' =>
      simp only [Option.elim_some, Parameters.tokens, List.cons_append, List.append_assoc,
        List.cons.injEq, Token.mk.injEq, true_and, List.nil_append] at h
      obtain ⟨opening, closed⟩ := h
      obtain ⟨names, closing, tail⟩ := nameTokens_append_inj closed
      cases ps
      cases ps'
      simp only [Option.some.injEq, Parameters.mk.injEq]
      exact ⟨⟨opening, names, closing⟩, tail⟩

end Parameters

namespace Expr

mutual

theorem tokens_append_inj : ∀ (e e' : Expr) {rest rest' : List Token},
    e.tokens ++ rest = e'.tokens ++ rest' → e = e' ∧ rest = rest'
  | .number _ _, e', _, _, h => by
    cases e' <;> simp [tokens] at h ⊢
    exact ⟨h.1, h.2⟩
  | .string _ _, e', _, _, h => by
    cases e' <;> simp [tokens] at h ⊢
    exact ⟨h.1, h.2⟩
  | .identifier _ _, e', _, _, h => by
    cases e' <;> simp [tokens] at h ⊢
    exact ⟨h.1, h.2⟩
  | .define _ _ _ _ value _, e', _, _, h => by
    cases e' with
    | define _ _ _ _ value' _ =>
      simp only [tokens, List.cons_append, List.append_assoc, List.cons.injEq, Token.mk.injEq,
        Lexeme.identifier.injEq, true_and, List.nil_append] at h
      obtain ⟨rfl, rfl, ⟨rfl, rfl⟩, tail⟩ := h
      obtain ⟨rfl, ends⟩ := tokens_append_inj value value' tail
      simpa using ends
    | call _ head => cases head <;> simp [tokens, Head.lexeme] at h
    | number | string | identifier | function => simp [tokens] at h
  | .function _ _ _ _ parameters body _, e', _, _, h => by
    cases e' with
    | function _ _ _ _ parameters' body' _ =>
      simp only [tokens, List.cons_append, List.append_assoc, List.cons.injEq, Token.mk.injEq,
        Lexeme.identifier.injEq, true_and, List.nil_append] at h
      obtain ⟨rfl, rfl, ⟨rfl, rfl⟩, tail⟩ := h
      obtain ⟨rfl, inner⟩ := Parameters.elim_tokens_append_inj tail
      obtain ⟨rfl, ends⟩ := tokens_append_inj body body' inner
      simpa using ends
    | call _ head => cases head <;> simp [tokens, Head.lexeme] at h
    | number | string | identifier | define => simp [tokens] at h
  | .call _ head _ arguments _, e', _, _, h => by
    cases e' with
    | call _ head' _ arguments' _ =>
      simp only [tokens, List.cons_append, List.append_assoc, List.cons.injEq, Token.mk.injEq,
        true_and, List.nil_append] at h
      obtain ⟨rfl, ⟨heads, rfl⟩, tail⟩ := h
      obtain ⟨rfl, ends⟩ := tokensAll_append_inj arguments arguments' (stops_closeRound _ _)
        (stops_closeRound _ _) tail
      simpa [Head.lexeme_inj heads] using ends
    | define | function => cases head <;> simp [tokens, Head.lexeme] at h
    | number | string | identifier => simp [tokens] at h

theorem tokensAll_append_inj : ∀ (es es' : List Expr) {rest rest' : List Token},
    Stops rest → Stops rest' → tokensAll es ++ rest = tokensAll es' ++ rest' →
      es = es' ∧ rest = rest'
  | [], [], _, _, _, _, h => ⟨rfl, h⟩
  | [], e' :: es', _, rest', stops, _, h => by
    rw [tokensAll, tokensAll, List.nil_append, List.append_assoc] at h
    exact absurd (h ▸ stops) (not_stops_tokens_append e' _)
  | e :: es, [], rest, _, _, stops, h => by
    rw [tokensAll, tokensAll, List.nil_append, List.append_assoc] at h
    exact absurd (h ▸ stops) (not_stops_tokens_append e _)
  | e :: es, e' :: es', _, _, stops, stops', h => by
    rw [tokensAll, tokensAll, List.append_assoc, List.append_assoc] at h
    obtain ⟨rfl, tail⟩ := tokens_append_inj e e' h
    obtain ⟨rfl, ends⟩ := tokensAll_append_inj es es' stops stops' tail
    exact ⟨rfl, ends⟩

end

/-- The grammar is unambiguous. -/
theorem tokensAll_injective : Function.Injective tokensAll := fun es es' h =>
  (tokensAll_append_inj es es' stops_nil stops_nil (by simpa using h)).1

end Expr

/-- The tokens derive a program. -/
def Sentence (ts : List Token) : Prop :=
  ∃ es : List Expr, Expr.tokensAll es = ts

/-- The tokens are the front of some program. -/
def Viable (ts : List Token) : Prop :=
  ∃ rest, Sentence (ts ++ rest)

theorem Sentence.viable {ts : List Token} (h : Sentence ts) : Viable ts :=
  ⟨[], by rwa [List.append_nil]⟩

theorem Viable.of_append {ts us : List Token} (h : Viable (ts ++ us)) : Viable ts := by
  obtain ⟨rest, sentence⟩ := h
  exact ⟨us ++ rest, by rwa [← List.append_assoc]⟩

end Grammar
end Lispette
