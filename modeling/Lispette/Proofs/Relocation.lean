import Lispette.Tree.Parser

/-!
Reading tokens that stand elsewhere. No step of the reader looks at where a token stands, so tokens
that are moved are read as the moved tree, or refused at the same one of them.
-/

namespace Lispette

variable (f : Position → Position)

def Token.relocate (t : Token) : Token :=
  { t with position := f t.position }

def OpenForm.relocate : OpenForm → OpenForm
  | .opened => .opened
  | .definedName => .definedName
  | .definedValue name p => .definedValue name (f p)
  | .definitionEnd name value p => .definitionEnd name (value.relocate f) (f p)
  | .functionName => .functionName
  | .functionParameters name p => .functionParameters name (f p)
  | .functionParameter name parameters p => .functionParameter name parameters (f p)
  | .functionBody name parameters p => .functionBody name parameters (f p)
  | .functionEnd name parameters body p => .functionEnd name parameters (body.relocate f) (f p)
  | .callArgument head arguments p => .callArgument head (arguments.map (Tree.relocate f)) (f p)

def Parse.relocate (r : Parse) : Parse :=
  ⟨r.statements.map (Tree.relocate f), r.forms.map (OpenForm.relocate f)⟩

def ParseError.relocate : ParseError → ParseError
  | .unexpectedToken t => .unexpectedToken (t.relocate f)
  | .unexpectedEnd p => .unexpectedEnd (f p)

theorem Token.leaf?_relocate (t : Token) :
    (t.relocate f).leaf? = t.leaf?.map (Tree.relocate f) := by
  obtain ⟨lexeme, p⟩ := t
  cases lexeme <;> rfl

namespace OpenForm

theorem take?_relocate (t : Token) (form : OpenForm) :
    (form.relocate f).take? (t.relocate f) = (form.take? t).map (relocate f) := by
  obtain ⟨lexeme, p⟩ := t
  cases form with
  | opened | definedName | functionName => cases lexeme with
    | keyword k => cases k <;> rfl
    | _ => rfl
  | functionParameters | functionParameter => cases lexeme with
    | bracket b => cases b <;> rfl
    | _ => rfl
  | definedValue | definitionEnd | functionBody | functionEnd | callArgument => rfl

theorem fill?_relocate (t : Tree) (form : OpenForm) :
    (form.relocate f).fill? (t.relocate f) = (form.fill? t).map (relocate f) := by
  cases form <;> rfl

theorem expectsTree_relocate (form : OpenForm) :
    (form.relocate f).expectsTree = form.expectsTree := by
  cases form <;> rfl

theorem close?_relocate (form : OpenForm) :
    (form.relocate f).close? = form.close?.map (Tree.relocate f) := by
  cases form with
  | callArgument head arguments p =>
    simp only [relocate, close?, Option.map_some, Tree.relocate, Tree.relocateAll_eq_map,
      List.map_reverse]
  | _ => rfl

end OpenForm

namespace Parse

theorem place?_relocate (t : Tree) (r : Parse) :
    (r.relocate f).place? (t.relocate f) = (r.place? t).map (relocate f) := by
  obtain ⟨statements, _ | ⟨form, forms⟩⟩ := r
  · rfl
  · show ((form.relocate f).fill? (t.relocate f)).map _ = ((form.fill? t).map _).map _
    rw [OpenForm.fill?_relocate, Option.map_map, Option.map_map]
    rfl

theorem take?_relocate (t : Token) (r : Parse) :
    (r.relocate f).take? (t.relocate f) = (r.take? t).map (relocate f) := by
  obtain ⟨statements, _ | ⟨form, forms⟩⟩ := r
  · rfl
  · show ((form.relocate f).take? (t.relocate f)).map _ = ((form.take? t).map _).map _
    rw [OpenForm.take?_relocate, Option.map_map, Option.map_map]
    rfl

theorem enter?_relocate (t : Token) (r : Parse) :
    (r.relocate f).enter? (t.relocate f) = (r.enter? t).map (relocate f) := by
  have expects : (r.relocate f).expectsTree = r.expectsTree := by
    obtain ⟨statements, _ | ⟨form, forms⟩⟩ := r
    · rfl
    · exact form.expectsTree_relocate f
  have same : (t.relocate f).lexeme = t.lexeme := rfl
  unfold enter?
  rw [expects, same]
  split <;> rfl

theorem close?_relocate (t : Token) (r : Parse) :
    (r.relocate f).close? (t.relocate f) = (r.close? t).map (relocate f) := by
  obtain ⟨statements, _ | ⟨form, forms⟩⟩ := r
  · rfl
  · show (if t.lexeme = .bracket .closeRound then (form.relocate f).close?.bind fun tree =>
        place? tree (relocate f ⟨statements, forms⟩) else none) =
      (if t.lexeme = .bracket .closeRound then form.close?.bind fun tree =>
        place? tree ⟨statements, forms⟩ else none).map (relocate f)
    rw [OpenForm.close?_relocate]
    split
    · cases form.close? with
      | none => rfl
      | some tree => exact place?_relocate f tree _
    · rfl

theorem step?_relocate (t : Token) (r : Parse) :
    (r.relocate f).step? (t.relocate f) = (r.step? t).map (relocate f) := by
  have leaf : (t.relocate f).leaf?.bind (r.relocate f).place? =
      (t.leaf?.bind r.place?).map (relocate f) := by
    rw [Token.leaf?_relocate]
    cases t.leaf? with
    | none => rfl
    | some tree => exact place?_relocate f tree r
  rw [step?, step?, take?_relocate, leaf, enter?_relocate, close?_relocate, Option.map_or,
    Option.map_or, Option.map_or]

theorem readAll_relocate (ts : List Token) (r : Parse) :
    (r.relocate f).readAll (ts.map (Token.relocate f)) =
      ((r.readAll ts).map (relocate f)).mapError (ParseError.relocate f) := by
  induction ts generalizing r with
  | nil => rfl
  | cons t ts ih =>
    rw [List.map_cons, readAll, readAll, step?_relocate]
    cases r.step? t with
    | none => rfl
    | some r' => exact ih r'

end Parse

namespace Tree

variable {ts us : List Token}

theorem firstPosition_relocate (fixed : ts = [] → f {} = {}) :
    firstPosition (ts.map (Token.relocate f)) = f (firstPosition ts) := by
  cases ts with
  | nil => exact (fixed rfl).symm
  | cons t ts => rfl

theorem lastPosition_relocate (fixed : ts = [] → f {} = {}) :
    lastPosition (ts.map (Token.relocate f)) = f (lastPosition ts) := by
  rw [lastPosition, lastPosition, List.getLast?_map]
  cases last : ts.getLast? with
  | none => exact (fixed (List.getLast?_eq_none_iff.mp last)).symm
  | some t => rfl

theorem ofSignificant_relocate (fixed : ts = [] → f {} = {}) :
    ofSignificant (ts.map (Token.relocate f)) =
      ((ofSignificant ts).map (relocate f)).mapError (ParseError.relocate f) := by
  have read := Parse.readAll_relocate f ts .start
  have started : Parse.start.relocate f = .start := rfl
  rw [started] at read
  rw [ofSignificant, ofSignificant, read, firstPosition_relocate f fixed,
    lastPosition_relocate f fixed]
  cases Parse.start.readAll ts with
  | error e => rfl
  | ok r =>
    obtain ⟨statements, _ | ⟨form, forms⟩⟩ := r
    · show Except.ok (Tree.program (statements.map (relocate f)).reverse (f (firstPosition ts))) =
        .ok (relocate f (.program statements.reverse (firstPosition ts)))
      rw [relocate, relocateAll_eq_map, List.map_reverse]
    · rfl

/-- Tokens that are moved, line breaks apart, are read as the moved tree, or refused at the same one
of them. -/
theorem ofTokens_relocate (moved : significant us = (significant ts).map (Token.relocate f))
    (fixed : significant ts = [] → f {} = {}) :
    ofTokens us = ((ofTokens ts).map (relocate f)).mapError (ParseError.relocate f) := by
  rw [ofTokens, moved, ofSignificant_relocate f fixed, ofTokens]

end Tree

end Lispette
