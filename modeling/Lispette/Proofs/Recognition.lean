import Lispette.Proofs.Grammar

/-!
What a token does to the reader. It belongs to the innermost open form, is a tree by itself, opens a
form or closes one; so the tokens of an expression put its tree where a tree is expected.
-/

namespace Lispette

open Grammar

namespace OpenForm

variable {t : Token} {tree : Tree} {form next : OpenForm}

theorem take?_of_expectsTree (expects : form.expectsTree = true)
    (noList : t.lexeme ≠ .bracket .openSquare) : form.take? t = none := by
  cases form with
  | functionParameters => simp only [take?]
  | definedValue | functionBody | callArgument => rfl
  | opened | definedName | definitionEnd | functionName | functionParameter | functionEnd =>
    cases expects

theorem take?_of_close? (closed : form.close? = some tree) : form.take? t = none := by
  cases form with
  | definitionEnd | functionEnd | callArgument => rfl
  | opened | definedName | definedValue | functionName | functionParameters | functionParameter
  | functionBody => cases closed

end OpenForm

namespace Parse

variable {r r' : Parse} {t : Token} {tree : Tree} {statements : List Tree} {form form' : OpenForm}
  {forms : List OpenForm}

theorem isSome_place? (tree : Tree) (r : Parse) : (r.place? tree).isSome = r.expectsTree := by
  rw [place?, expectsTree]
  split
  · rfl
  · rw [Option.isSome_map, OpenForm.isSome_fill?]

theorem expectsTree_of_place? (placed : r.place? tree = some r') : r.expectsTree = true := by
  rw [← isSome_place? tree, placed, Option.isSome_some]

theorem take?_of_expectsTree (expects : r.expectsTree = true)
    (noList : t.lexeme ≠ .bracket .openSquare) : r.take? t = none := by
  rw [take?]
  rw [expectsTree] at expects
  split
  · rfl
  next form forms h =>
    rw [h] at expects
    rw [OpenForm.take?_of_expectsTree expects noList, Option.map_none]

theorem step?_of_take (h : form.take? t = some form') :
    step? t ⟨statements, form :: forms⟩ = some ⟨statements, form' :: forms⟩ := by
  simp [step?, take?, h]

theorem step?_of_leaf (leaf : t.leaf? = some tree) (placed : r.place? tree = some r') :
    r.step? t = some r' := by
  have noList : t.lexeme ≠ .bracket .openSquare := fun same => by
    simp [Token.leaf?, same] at leaf
  simp [step?, take?_of_expectsTree (expectsTree_of_place? placed) noList, leaf, placed]

theorem step?_of_enter (opening : t.lexeme = .bracket .openRound)
    (expects : r.expectsTree = true) :
    r.step? t = some ⟨r.statements, .opened :: r.forms⟩ := by
  have noTake := take?_of_expectsTree expects (t := t) (by simp [opening])
  simp [step?, noTake, Token.leaf?, opening, enter?, expects]

theorem step?_of_close (closing : t.lexeme = .bracket .closeRound)
    (closed : form.close? = some tree) (placed : place? tree ⟨statements, forms⟩ = some r') :
    step? t ⟨statements, form :: forms⟩ = some r' := by
  simp [step?, take?, OpenForm.take?_of_close? closed, Token.leaf?, enter?, close?, closing, closed,
    placed]

theorem step?_cases (h : r.step? t = some r') :
    (∃ form form' forms, r.forms = form :: forms ∧ form.take? t = some form' ∧
      r' = ⟨r.statements, form' :: forms⟩) ∨
    (∃ tree, t.leaf? = some tree ∧ r.place? tree = some r') ∨
    (t.lexeme = .bracket .openRound ∧ r.expectsTree = true ∧
      r' = ⟨r.statements, .opened :: r.forms⟩) ∨
    (∃ form forms tree, r.forms = form :: forms ∧ t.lexeme = .bracket .closeRound ∧
      form.close? = some tree ∧ place? tree ⟨r.statements, forms⟩ = some r') := by
  simp only [step?, Option.or_eq_some_iff, Option.bind_eq_some_iff] at h
  rcases h with taken | ⟨-, leaf | ⟨-, entered | ⟨-, closed⟩⟩⟩
  · rw [take?] at taken
    split at taken
    · cases taken
    next form forms shape =>
      obtain ⟨form', step, rfl⟩ := Option.map_eq_some_iff.mp taken
      exact .inl ⟨form, form', forms, shape, step, rfl⟩
  · exact .inr (.inl leaf)
  · rw [enter?] at entered
    split at entered
    next cond =>
      obtain ⟨opening, expects⟩ : t.lexeme = .bracket .openRound ∧ r.expectsTree = true := by
        simpa using cond
      cases entered
      exact .inr (.inr (.inl ⟨opening, expects, rfl⟩))
    · cases entered
  · rw [close?] at closed
    split at closed
    · cases closed
    next form forms shape =>
      split at closed
      next closing =>
        obtain ⟨tree, closed, placed⟩ := Option.bind_eq_some_iff.mp closed
        exact .inr (.inr (.inr ⟨form, forms, tree, shape, closing, closed, placed⟩))
      · cases closed

theorem readAll_cons_of_step (h : r.step? t = some r') (ts : List Token) :
    r.readAll (t :: ts) = r'.readAll ts := by
  simp [readAll, h]

theorem readAll_nameTokens (name : String) (p : Position) (parameters : List String)
    (names : List (String × Position)) (rest : List Token) :
    readAll ⟨statements, .functionParameter name parameters p :: forms⟩
        (Parameters.nameTokens names ++ rest) =
      readAll ⟨statements, .functionParameter name ((names.map Prod.fst).reverse ++ parameters) p ::
        forms⟩ rest := by
  induction names generalizing parameters with
  | nil => rfl
  | cons n names ih =>
    rw [Parameters.nameTokens, List.map_cons, List.cons_append,
      readAll_cons_of_step (step?_of_take rfl)]
    simpa [Parameters.nameTokens] using ih (n.1 :: parameters)

mutual

/-- The tokens of an expression put its tree where a tree is expected. -/
theorem readAll_tokens : ∀ (e : Expr) {r r' : Parse} (rest : List Token),
    r.place? e.tree = some r' → r.readAll (e.tokens ++ rest) = r'.readAll rest
  | .number _ _, _, _, rest, placed => readAll_cons_of_step (step?_of_leaf rfl placed) rest
  | .string _ _, _, _, rest, placed => readAll_cons_of_step (step?_of_leaf rfl placed) rest
  | .identifier _ _, _, _, rest, placed => readAll_cons_of_step (step?_of_leaf rfl placed) rest
  | .define _ _ name p value closing, r, r', rest, placed => by
    simp only [Expr.tokens, List.cons_append, List.append_assoc, List.nil_append]
    rw [readAll_cons_of_step (step?_of_enter rfl (expectsTree_of_place? placed)),
      readAll_cons_of_step (step?_of_take rfl), readAll_cons_of_step (step?_of_take rfl),
      readAll_tokens value _ rfl, readAll_cons_of_step (step?_of_close rfl rfl placed)]
  | .function _ _ name p parameters body closing, r, r', rest, placed => by
    simp only [Expr.tokens, List.cons_append, List.append_assoc, List.nil_append]
    rw [readAll_cons_of_step (step?_of_enter rfl (expectsTree_of_place? placed)),
      readAll_cons_of_step (step?_of_take rfl), readAll_cons_of_step (step?_of_take rfl)]
    cases parameters with
    | none =>
      simp only [Option.elim_none, List.nil_append]
      rw [readAll_tokens body _ rfl, readAll_cons_of_step (step?_of_close rfl rfl placed)]
    | some ps =>
      simp only [Option.elim_some, Parameters.tokens, List.cons_append, List.append_assoc,
        List.nil_append]
      rw [readAll_cons_of_step (step?_of_take rfl), readAll_nameTokens,
        readAll_cons_of_step (step?_of_take rfl), readAll_tokens body _ rfl,
        readAll_cons_of_step (step?_of_close rfl rfl _)]
      simpa [Expr.tree, Parameters.texts] using placed
  | .call _ head p arguments closing, r, r', rest, placed => by
    simp only [Expr.tokens, List.cons_append, List.append_assoc, List.nil_append]
    have headed : OpenForm.opened.take? ⟨head.lexeme, p⟩ =
        some (.callArgument head.text [] p) := by
      cases head <;> rfl
    rw [readAll_cons_of_step (step?_of_enter rfl (expectsTree_of_place? placed)),
      readAll_cons_of_step (step?_of_take headed), readAll_tokensAll arguments,
      readAll_cons_of_step (step?_of_close rfl rfl _)]
    simpa [Expr.tree] using placed

theorem readAll_tokensAll : ∀ (es : List Expr) {statements : List Tree} {forms : List OpenForm}
    {head : String} {arguments : List Tree} {p : Position} (rest : List Token),
    readAll ⟨statements, .callArgument head arguments p :: forms⟩ (Expr.tokensAll es ++ rest) =
      readAll ⟨statements, .callArgument head ((Expr.treeAll es).reverse ++ arguments) p :: forms⟩
        rest
  | [], _, _, _, _, _, _ => rfl
  | e :: es, _, _, _, _, _, rest => by
    rw [Expr.tokensAll, List.append_assoc, readAll_tokens e _ rfl, readAll_tokensAll es]
    simp [Expr.treeAll]

end

theorem readAll_program (es : List Expr) (statements : List Tree) :
    readAll ⟨statements, []⟩ (Expr.tokensAll es) =
      .ok ⟨(Expr.treeAll es).reverse ++ statements, []⟩ := by
  induction es generalizing statements with
  | nil => rfl
  | cons e es ih =>
    rw [Expr.tokensAll, readAll_tokens e _ rfl, ih]
    simp [Expr.treeAll]

end Parse

end Lispette
