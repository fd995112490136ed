import Lispette.Proofs.Recognition

/-!
Reading tokens against the grammar. After every token the reader holds the finished statements
and the open forms of the derivations that the tokens begin, and each open form can be finished. So
the reader fails exactly where no program goes on, and what it returns is the tree of the one
derivation of its tokens.
-/

namespace Lispette

open Grammar

namespace Grammar

/-- The tokens that have been read into an open form, as the derivation goes on from them. -/
inductive FormRead : List Token → OpenForm → Prop
  | opened (opening : Position) : FormRead [⟨.bracket .openRound, opening⟩] .opened
  | definedName (opening keyword : Position) :
    FormRead [⟨.bracket .openRound, opening⟩, ⟨.keyword .define, keyword⟩] .definedName
  | definedValue (opening keyword : Position) (name : String) (p : Position) :
    FormRead [⟨.bracket .openRound, opening⟩, ⟨.keyword .define, keyword⟩, ⟨.identifier name, p⟩]
      (.definedValue name p)
  | definitionEnd (opening keyword : Position) (name : String) (p : Position) (value : Expr) :
    FormRead (⟨.bracket .openRound, opening⟩ :: ⟨.keyword .define, keyword⟩ ::
      ⟨.identifier name, p⟩ :: value.tokens) (.definitionEnd name value.tree p)
  | functionName (opening keyword : Position) :
    FormRead [⟨.bracket .openRound, opening⟩, ⟨.keyword .function, keyword⟩] .functionName
  | functionParameters (opening keyword : Position) (name : String) (p : Position) :
    FormRead [⟨.bracket .openRound, opening⟩, ⟨.keyword .function, keyword⟩, ⟨.identifier name, p⟩]
      (.functionParameters name p)
  | functionParameter (opening keyword : Position) (name : String) (p square : Position)
      (names : List (String × Position)) :
    FormRead (⟨.bracket .openRound, opening⟩ :: ⟨.keyword .function, keyword⟩ ::
      ⟨.identifier name, p⟩ :: ⟨.bracket .openSquare, square⟩ :: Parameters.nameTokens names)
      (.functionParameter name (names.map Prod.fst).reverse p)
  | functionBody (opening keyword : Position) (name : String) (p : Position)
      (parameters : Parameters) :
    FormRead (⟨.bracket .openRound, opening⟩ :: ⟨.keyword .function, keyword⟩ ::
      ⟨.identifier name, p⟩ :: parameters.tokens) (.functionBody name parameters.texts p)
  | functionEnd (opening keyword : Position) (name : String) (p : Position)
      (parameters : Option Parameters) (body : Expr) :
    FormRead (⟨.bracket .openRound, opening⟩ :: ⟨.keyword .function, keyword⟩ ::
      ⟨.identifier name, p⟩ :: parameters.elim [] Parameters.tokens ++ body.tokens)
      (.functionEnd name (parameters.elim [] Parameters.texts) body.tree p)
  | callArgument (opening : Position) (head : Head) (p : Position) (arguments : List Expr) :
    FormRead (⟨.bracket .openRound, opening⟩ :: ⟨head.lexeme, p⟩ :: Expr.tokensAll arguments)
      (.callArgument head.text (Expr.treeAll arguments).reverse p)

/-- The tokens that have been read: finished statements, then the open forms from the outermost
inwards. A form within another stands where that one expects a tree. -/
inductive Read : List Token → Parse → Prop
  | statements (es : List Expr) : Read (Expr.tokensAll es) ⟨(Expr.treeAll es).reverse, []⟩
  | form {ts us : List Token} {statements : List Tree} {forms : List OpenForm} {form : OpenForm}
      (outer : Read ts ⟨statements, forms⟩)
      (expects : (⟨statements, forms⟩ : Parse).expectsTree = true) (inner : FormRead us form) :
    Read (ts ++ us) ⟨statements, form :: forms⟩

variable {ts us : List Token} {t : Token} {form form' : OpenForm} {r r' : Parse} {tree : Tree}

theorem FormRead.take (read : FormRead us form) (taken : form.take? t = some form') :
    FormRead (us ++ [t]) form' := by
  obtain ⟨l, q⟩ := t
  cases read with
  | opened opening =>
    simp only [OpenForm.take?] at taken
    split at taken <;> cases taken
    next => exact .definedName opening q
    next => exact .functionName opening q
    next name => exact .callArgument opening (.identifier name) q []
    next op => exact .callArgument opening (.operator op) q []
  | definedName opening keyword =>
    simp only [OpenForm.take?] at taken
    split at taken <;> cases taken
    next name => exact .definedValue opening keyword name q
  | functionName opening keyword =>
    simp only [OpenForm.take?] at taken
    split at taken <;> cases taken
    next name => exact .functionParameters opening keyword name q
  | functionParameters opening keyword name p =>
    simp only [OpenForm.take?] at taken
    split at taken <;> cases taken
    next => exact .functionParameter opening keyword name p q []
  | functionParameter opening keyword name p square names =>
    simp only [OpenForm.take?] at taken
    split at taken <;> cases taken
    next parameter =>
      simpa [Parameters.nameTokens] using
        FormRead.functionParameter opening keyword name p square (names ++ [(parameter, q)])
    next =>
      simpa [Parameters.tokens, Parameters.texts] using
        FormRead.functionBody opening keyword name p ⟨square, names, q⟩
  | definedValue | definitionEnd | functionBody | functionEnd | callArgument => cases taken

theorem FormRead.fill (read : FormRead us form) (e : Expr)
    (filled : form.fill? e.tree = some form') : FormRead (us ++ e.tokens) form' := by
  cases read with
  | definedValue opening keyword name p =>
    cases filled
    exact .definitionEnd opening keyword name p e
  | functionParameters opening keyword name p =>
    cases filled
    exact .functionEnd opening keyword name p none e
  | functionBody opening keyword name p parameters =>
    cases filled
    exact .functionEnd opening keyword name p (some parameters) e
  | callArgument opening head p arguments =>
    cases filled
    simpa [Expr.tokensAll_append, Expr.treeAll_append, Expr.tokensAll, Expr.treeAll] using
      FormRead.callArgument opening head p (arguments ++ [e])
  | opened | definedName | definitionEnd | functionName | functionParameter | functionEnd =>
    cases filled

theorem FormRead.close (read : FormRead us form) (closed : form.close? = some tree)
    (closing : t.lexeme = .bracket .closeRound) :
    ∃ e : Expr, e.tokens = us ++ [t] ∧ e.tree = tree := by
  obtain ⟨l, q⟩ := t
  obtain rfl : l = .bracket .closeRound := closing
  cases read with
  | definitionEnd opening keyword name p value =>
    cases closed
    exact ⟨.define opening keyword name p value q, rfl, rfl⟩
  | functionEnd opening keyword name p parameters body =>
    cases closed
    exact ⟨.function opening keyword name p parameters body q, rfl, rfl⟩
  | callArgument opening head p arguments =>
    cases closed
    exact ⟨.call opening head p arguments q, rfl, by simp [Expr.tree]⟩
  | opened | definedName | definedValue | functionName | functionParameters | functionParameter
  | functionBody => cases closed

theorem FormRead.finish (read : FormRead us form) :
    ∃ (rest : List Token) (e : Expr), e.tokens = us ++ rest := by
  cases read with
  | opened opening => exact ⟨_, .call opening default {} [] {}, rfl⟩
  | definedName opening keyword => exact ⟨_, .define opening keyword "" {} default {}, rfl⟩
  | definedValue opening keyword bound p =>
    exact ⟨_, .define opening keyword bound p default {}, rfl⟩
  | definitionEnd opening keyword bound p value =>
    exact ⟨_, .define opening keyword bound p value {}, rfl⟩
  | functionName opening keyword =>
    exact ⟨_, .function opening keyword "" {} none default {}, rfl⟩
  | functionParameters opening keyword bound p =>
    exact ⟨_, .function opening keyword bound p none default {}, rfl⟩
  | functionParameter opening keyword bound p square names =>
    exact ⟨⟨.bracket .closeSquare, {}⟩ :: (default : Expr).tokens ++ [⟨.bracket .closeRound, {}⟩],
      .function opening keyword bound p (some ⟨square, names, {}⟩) default {},
      by simp [Expr.tokens, Parameters.tokens]⟩
  | functionBody opening keyword bound p parameters =>
    exact ⟨(default : Expr).tokens ++ [⟨.bracket .closeRound, {}⟩],
      .function opening keyword bound p (some parameters) default {}, by simp [Expr.tokens]⟩
  | functionEnd opening keyword bound p parameters body =>
    exact ⟨_, .function opening keyword bound p parameters body {}, rfl⟩
  | callArgument opening head p arguments => exact ⟨_, .call opening head p arguments {}, rfl⟩

theorem Read.place (read : Read ts r) (e : Expr) (placed : r.place? e.tree = some r') :
    Read (ts ++ e.tokens) r' := by
  cases read with
  | statements es =>
    cases placed
    simpa [Expr.tokensAll_append, Expr.treeAll_append, Expr.tokensAll, Expr.treeAll] using
      Read.statements (es ++ [e])
  | form outer expects inner =>
    obtain ⟨form', filled, rfl⟩ := Option.map_eq_some_iff.mp placed
    rw [List.append_assoc]
    exact .form outer expects (inner.fill e filled)

theorem exists_leaf (leaf : t.leaf? = some tree) : ∃ e : Expr, e.tokens = [t] ∧ e.tree = tree := by
  obtain ⟨l, q⟩ := t
  cases l with
  | number digits => cases leaf; exact ⟨.number digits q, rfl, rfl⟩
  | string text => cases leaf; exact ⟨.string text q, rfl, rfl⟩
  | identifier name => cases leaf; exact ⟨.identifier name q, rfl, rfl⟩
  | operator | bracket | keyword | newline => cases leaf

theorem Read.step (read : Read ts r) (step : r.step? t = some r') : Read (ts ++ [t]) r' := by
  obtain ⟨statements, forms⟩ := r
  rcases Parse.step?_cases step with ⟨form, form', forms', rfl, taken, rfl⟩ |
    ⟨tree, leaf, placed⟩ | ⟨opening, expects, rfl⟩ |
    ⟨form, forms', tree, rfl, closing, closed, placed⟩
  · cases read with
    | form outer expects inner =>
      rw [List.append_assoc]
      exact .form outer expects (inner.take taken)
  · obtain ⟨e, tokens, rfl⟩ := exists_leaf leaf
    rw [← tokens]
    exact read.place e placed
  · obtain ⟨l, q⟩ := t
    obtain rfl : l = .bracket .openRound := opening
    exact .form read expects (.opened q)
  · cases read with
    | form outer expects inner =>
      obtain ⟨e, tokens, rfl⟩ := inner.close closed closing
      rw [List.append_assoc, ← tokens]
      exact outer.place e placed

theorem Read.readAll (read : Read ts r) (run : r.readAll us = .ok r') : Read (ts ++ us) r' := by
  induction us generalizing ts r with
  | nil =>
    cases run
    rwa [List.append_nil]
  | cons t us ih =>
    rw [Parse.readAll] at run
    split at run
    next r'' step =>
      have tail := ih (read.step step) run
      rwa [List.append_assoc] at tail
    next => cases run

theorem Read.start (run : Parse.start.readAll ts = .ok r) : Read ts r :=
  Read.readAll (.statements []) run

theorem length_forms_of_place? (placed : r.place? tree = some r') :
    r'.forms.length = r.forms.length := by
  rw [Parse.place?] at placed
  split at placed
  next shape => cases placed; rw [shape]
  next form forms shape =>
    obtain ⟨form', -, rfl⟩ := Option.map_eq_some_iff.mp placed
    rw [shape, List.length_cons, List.length_cons]

/-- What has been read can go on: the open forms are finished from the innermost outwards. -/
theorem Read.viable (read : Read ts r) : Viable ts := by
  -- Finishing the innermost form is placing a tree in the one around it, which stays open.
  induction hn : r.forms.length generalizing ts r with
  | zero =>
    cases read with
    | statements es => exact Sentence.viable ⟨es, rfl⟩
    | form => simp at hn
  | succ n ih =>
    cases read with
    | statements => simp at hn
    | @form ts us statements forms form outer expects inner =>
      obtain ⟨rest, e, tokens⟩ := inner.finish
      rw [← Parse.isSome_place? e.tree, Option.isSome_iff_exists] at expects
      obtain ⟨r', placed⟩ := expects
      have shorter : r'.forms.length = n := by
        simpa [length_forms_of_place? placed] using hn
      have finished := ih (outer.place e placed) shorter
      rw [tokens, ← List.append_assoc] at finished
      exact finished.of_append

theorem readAll_start_of_sentence (es : List Expr) :
    Parse.start.readAll (Expr.tokensAll es) = .ok ⟨(Expr.treeAll es).reverse, []⟩ := by
  simpa [Parse.start] using Parse.readAll_program es []

theorem exists_readAll_iff : (∃ r, Parse.start.readAll ts = .ok r) ↔ Viable ts := by
  constructor
  · intro h
    obtain ⟨r, run⟩ := h
    exact (Read.start run).viable
  · intro h
    obtain ⟨rest, es, tokens⟩ := h
    have run := readAll_start_of_sentence es
    rw [tokens, Parse.readAll_append] at run
    cases front : Parse.start.readAll ts with
    | ok r => exact ⟨r, rfl⟩
    | error e => simp [front, Except.bind] at run

theorem readAll_eq_ok_iff {statements : List Tree} :
    Parse.start.readAll ts = .ok ⟨statements, []⟩ ↔
      ∃ es, Expr.tokensAll es = ts ∧ (Expr.treeAll es).reverse = statements := by
  constructor
  · intro run
    cases Read.start run with
    | statements es => exact ⟨es, rfl, rfl⟩
  · intro h
    obtain ⟨es, rfl, rfl⟩ := h
    exact readAll_start_of_sentence es

end Grammar

namespace Parse

theorem readAll_eq_error_iff {r : Parse} {ts : List Token} {e : ParseError} :
    r.readAll ts = .error e ↔ ∃ before t after r', ts = before ++ t :: after ∧
      r.readAll before = .ok r' ∧ r'.step? t = none ∧ e = .unexpectedToken t := by
  constructor
  · intro stopped
    induction ts generalizing r with
    | nil => cases stopped
    | cons t ts ih =>
      rw [readAll] at stopped
      split at stopped
      next r' step =>
        obtain ⟨before, u, after, r'', rfl, run, stuck, rfl⟩ := ih stopped
        exact ⟨t :: before, u, after, r'', rfl, by rw [readAll_cons_of_step step, run], stuck, rfl⟩
      next stuck =>
        cases stopped
        exact ⟨[], t, ts, r, rfl, rfl, stuck, rfl⟩
  · intro h
    obtain ⟨before, t, after, r', rfl, run, stuck, rfl⟩ := h
    rw [readAll_append, run]
    simp [Except.bind, readAll, stuck]

end Parse

namespace Grammar

variable {ts : List Token} {t : Token}

theorem not_viable_iff {before : List Token} {r : Parse}
    (run : Parse.start.readAll before = .ok r) :
    ¬ Viable (before ++ [t]) ↔ r.step? t = none := by
  rw [← exists_readAll_iff, Parse.readAll_append, run]
  simp only [Except.bind, Parse.readAll]
  cases r.step? t <;> simp

theorem readAll_eq_unexpectedToken_iff :
    Parse.start.readAll ts = .error (.unexpectedToken t) ↔
      ∃ before after, ts = before ++ t :: after ∧ Viable before ∧ ¬ Viable (before ++ [t]) := by
  rw [Parse.readAll_eq_error_iff]
  constructor
  · intro h
    obtain ⟨before, t, after, r, rfl, run, stuck, ⟨⟩⟩ := h
    exact ⟨before, after, rfl, exists_readAll_iff.mp ⟨r, run⟩, (not_viable_iff run).mpr stuck⟩
  · intro h
    obtain ⟨before, after, rfl, viable, dead⟩ := h
    obtain ⟨r, run⟩ := exists_readAll_iff.mpr viable
    exact ⟨before, t, after, r, rfl, run, (not_viable_iff run).mp dead, rfl⟩

def program (es : List Expr) : Tree :=
  .program (Expr.treeAll es) (Tree.firstPosition (Expr.tokensAll es))

theorem ofSignificant_eq_ok_iff {tree : Tree} : Tree.ofSignificant ts = .ok tree ↔
    ∃ es, Expr.tokensAll es = ts ∧ tree = program es := by
  constructor
  · intro h
    rw [Tree.ofSignificant] at h
    split at h
    next => cases h
    next statements run =>
      cases h
      obtain ⟨es, rfl, rfl⟩ := readAll_eq_ok_iff.mp run
      exact ⟨es, rfl, by simp [program]⟩
    next => cases h
  · intro h
    obtain ⟨es, rfl, rfl⟩ := h
    simp [Tree.ofSignificant, readAll_start_of_sentence, program]

theorem ofSignificant_eq_unexpectedToken_iff :
    Tree.ofSignificant ts = .error (.unexpectedToken t) ↔
      Parse.start.readAll ts = .error (.unexpectedToken t) := by
  rw [Tree.ofSignificant]
  split
  next e run => simp [run]
  next run => simp [run]
  next run => simp [run]

theorem ofSignificant_eq_unexpectedEnd_iff {p : Position} :
    Tree.ofSignificant ts = .error (.unexpectedEnd p) ↔
      Viable ts ∧ ¬ Sentence ts ∧ ∃ t, ts.getLast? = some t ∧ p = t.position := by
  constructor
  · intro h
    obtain ⟨statements, form, forms, run, rfl⟩ : ∃ statements form forms,
        Parse.start.readAll ts = .ok ⟨statements, form :: forms⟩ ∧ p = Tree.lastPosition ts := by
      rw [Tree.ofSignificant] at h
      split at h
      next e run =>
        obtain ⟨_, _, _, _, -, -, -, rfl⟩ := Parse.readAll_eq_error_iff.mp run
        cases h
      next => cases h
      next statements form forms run =>
        cases h
        exact ⟨statements, form, forms, run, rfl⟩
    have underived : ¬ Sentence ts := by
      intro h
      obtain ⟨es, rfl⟩ := h
      rw [readAll_start_of_sentence] at run
      cases run
    refine ⟨exists_readAll_iff.mp ⟨_, run⟩, underived, ?_⟩
    cases last : ts.getLast? with
    | none =>
      rw [List.getLast?_eq_none_iff] at last
      exact absurd ⟨[], last.symm⟩ underived
    | some t => exact ⟨t, rfl, by simp [Tree.lastPosition, last]⟩
  · intro h
    obtain ⟨viable, underived, t, last, rfl⟩ := h
    obtain ⟨⟨statements, forms⟩, run⟩ := exists_readAll_iff.mpr viable
    cases forms with
    | nil =>
      obtain ⟨es, derived, -⟩ := readAll_eq_ok_iff.mp run
      exact absurd ⟨es, derived⟩ underived
    | cons form forms => simp [Tree.ofSignificant, run, Tree.lastPosition, last]

end Grammar

namespace Tree

/-- A program is read exactly if its tokens derive it, in one way, and as the tree of that
derivation. The token that is blamed is the first after which no program goes on; the end is blamed
if some program goes on but none ends. -/
theorem ofTokens_grammar (tokens : List Token) :
    (∀ tree, ofTokens tokens = .ok tree ↔
      ∃ es, Expr.tokensAll es = significant tokens ∧
        (∀ es', Expr.tokensAll es' = significant tokens → es' = es) ∧ tree = Grammar.program es) ∧
    (∀ t, ofTokens tokens = .error (.unexpectedToken t) ↔
      ∃ before after, significant tokens = before ++ t :: after ∧ Viable before ∧
        ¬ Viable (before ++ [t])) ∧
    (∀ p, ofTokens tokens = .error (.unexpectedEnd p) ↔
      Viable (significant tokens) ∧ ¬ Sentence (significant tokens) ∧
        ∃ t, (significant tokens).getLast? = some t ∧ p = t.position) := by
  refine ⟨fun tree => ?_, fun t => ?_, fun p => ofSignificant_eq_unexpectedEnd_iff⟩
  · rw [ofTokens, ofSignificant_eq_ok_iff]
    constructor
    · intro h
      obtain ⟨es, derived, rfl⟩ := h
      exact ⟨es, derived, fun es' h => Expr.tokensAll_injective (h.trans derived.symm), rfl⟩
    · intro h
      obtain ⟨es, derived, -, rfl⟩ := h
      exact ⟨es, derived, rfl⟩
  · rw [ofTokens, ofSignificant_eq_unexpectedToken_iff, readAll_eq_unexpectedToken_iff]

end Tree

end Lispette
