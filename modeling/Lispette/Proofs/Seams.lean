import Lispette.Proofs.Printing
import Lispette.Proofs.Reading
import Lispette.Proofs.Relocation

/-!
Texts that are joined by a line break. What ends a text may stand in front of a line break, and no
token reaches across it; so from the joined text the two programs are read one after the other, the
second as it is read alone, and moved.
-/

namespace Lispette

/-- The place behind a text and a line break. -/
def Position.behind (text : List Char) (p : Position) : Position :=
  ⟨p.offset + text.length + 1, p.column, p.line + text.count '\n' + 1⟩

theorem Position.after_behind (text before : List Char) :
    after (text ++ '\n' :: before) = (after before).behind text := by
  have column : ((text ++ '\n' :: before).reverse.takeWhile (· ≠ '\n')).length =
      (before.reverse.takeWhile (· ≠ '\n')).length := by
    rw [List.reverse_append, List.reverse_cons, List.append_assoc, List.takeWhile_append]
    split
    · next whole => simpa using whole.symm
    · rfl
  have offset : (text ++ '\n' :: before).length = before.length + text.length + 1 := by
    rw [List.length_append, List.length_cons]
    omega
  have line : (text ++ '\n' :: before).count '\n' =
      before.count '\n' + text.count '\n' + 1 := by
    rw [List.count_append, List.count_cons_self]
    omega
  rw [after, column, offset, line, after, behind]

namespace Piece

variable {p : Piece} {ps : List Piece} {text middle rest : List Char}

theorem Fits.append (fits : p.Fits middle) (apart : Apart rest) : p.Fits (middle ++ rest) := by
  cases middle with
  | cons c middle => cases p <;> exact fits
  | nil =>
    cases p with
    | newline | blank | quoted | bracket => exact fits
    | digits run =>
      obtain ⟨nonempty, digits, -⟩ := fits
      refine ⟨nonempty, digits, fun c first => ?_⟩
      have other := (apart c first).1
      rw [Char.isAlphanum, Bool.or_eq_false_iff] at other
      exact other.2
    | word run => exact ⟨fits.1, fits.2.1, fun c first => (apart c first).1⟩
    | operator op =>
      exact fun c first longer same => (apart c first).2 (Operator.eq_equal_of_longer same)

theorem Cuts.append_apart (cut : Cuts text ps []) (apart : Apart rest) :
    Cuts (text ++ rest) ps rest := by
  induction ps generalizing text with
  | nil =>
    obtain rfl := nil_iff.mp cut
    exact .nil rest
  | cons p ps ih =>
    obtain ⟨middle, rfl, fits, cut⟩ := cons_iff.mp cut
    rw [List.append_assoc]
    exact .cons (fits.append apart) (ih cut)

theorem tokensAfter_behind (text before : List Char) (ps : List Piece) :
    tokensAfter (text ++ '\n' :: before) ps =
      (tokensAfter before ps).map (Token.relocate (Position.behind text)) := by
  induction ps generalizing before with
  | nil => rfl
  | cons p ps ih =>
    have further : text ++ '\n' :: before ++ p.chars = text ++ '\n' :: (before ++ p.chars) := by
      simp
    have here : p.tokens (text ++ '\n' :: before) =
        (p.tokens before).map (Token.relocate (Position.behind text)) := by
      rw [tokens, tokens, Position.after_behind]
      cases p.lexeme? <;> rfl
    rw [tokensAfter, tokensAfter, List.map_append, further, ih, here]

end Piece

variable {source source' : String} {ts us : List Token}

/-- Two texts that scan do so joined, the second as it does alone, and moved. -/
theorem Token.scan_joined (scanned : scan source = .ok ts) (scanned' : scan source' = .ok us) :
    scan (source ++ "\n" ++ source') = .ok (ts ++ ⟨.newline, .after source.toList⟩ ::
      us.map (relocate (Position.behind source.toList))) := by
  obtain ⟨ps, cut, balanced, rfl⟩ := scan_eq_ok_iff.mp scanned
  obtain ⟨qs, cut', balanced', rfl⟩ := scan_eq_ok_iff.mp scanned'
  have joined : (source ++ "\n" ++ source').toList = source.toList ++ '\n' :: source'.toList := by
    simp
  have text : Piece.join ps = source.toList := by simpa using cut.eq_append.symm
  refine scan_eq_ok_iff.mpr ⟨ps ++ .newline :: qs, ?_, ?_, ?_⟩
  · rw [joined]
    have seam : Piece.Cuts ('\n' :: source'.toList) (.newline :: qs) [] :=
      .cons (p := .newline) trivial cut'
    exact (cut.append_apart (apart_newline _)).append seam
  · have brackets : Piece.brackets (ps ++ .newline :: qs) =
        Piece.brackets ps ++ Piece.brackets qs := List.filterMap_append
    rw [brackets]
    exact balanced.append balanced'
  · have seam : Piece.tokens source.toList .newline = [⟨.newline, .after source.toList⟩] := rfl
    have moved := Piece.tokensAfter_behind source.toList [] qs
    rw [Piece.tokensAfter_append, List.nil_append, text, Piece.tokensAfter, seam, ← moved]
    rfl

namespace Tree

variable {body body' : List Tree} {t : Tree} {p p' : Position}

/-- The statements of a program. -/
def statements : Tree → List Tree
  | .program body _ => body
  | _ => []

theorem exists_eq_program (parsed : ofTokens ts = .ok t) : ∃ p, t = .program t.statements p := by
  obtain ⟨es, -, rfl⟩ := Grammar.ofSignificant_eq_ok_iff.mp parsed
  exact ⟨_, rfl⟩

theorem exists_eq_program_of_ofSource (said : ofSource source = .ok t) :
    ∃ p, t = .program t.statements p := by
  obtain ⟨ts, -, parsed⟩ := ofSource_eq_ok_iff.mp said
  exact exists_eq_program parsed

theorem significant_map (f : Position → Position) (ts : List Token) :
    significant (ts.map (Token.relocate f)) = (significant ts).map (Token.relocate f) := by
  rw [significant, List.filter_map]
  rfl

/-- The place of an empty program is not moved with its tokens, as it has none. -/
theorem ofTokens_moved (parsed : ofTokens ts = .ok (.program body p)) (f : Position → Position) :
    ∃ p', ofTokens (ts.map (Token.relocate f)) = .ok (.program (relocateAll f body) p') := by
  by_cases empty : significant ts = []
  · rw [ofTokens, empty] at parsed
    cases parsed
    rw [ofTokens, significant_map, empty]
    exact ⟨{}, rfl⟩
  · have moved := ofTokens_relocate f (significant_map f ts) (fun none => absurd none empty)
    rw [parsed] at moved
    exact ⟨f p, moved⟩

theorem ofTokens_append (parsed : ofTokens ts = .ok (.program body p))
    (parsed' : ofTokens us = .ok (.program body' p')) :
    ∃ p'', ofTokens (ts ++ us) = .ok (.program (body ++ body') p'') := by
  obtain ⟨es, derived, same⟩ := Grammar.ofSignificant_eq_ok_iff.mp parsed
  obtain ⟨fs, derived', same'⟩ := Grammar.ofSignificant_eq_ok_iff.mp parsed'
  cases same
  cases same'
  have both : Grammar.Expr.tokensAll (es ++ fs) = significant (ts ++ us) := by
    rw [Grammar.Expr.tokensAll_append, derived, derived', significant, significant, significant,
      List.filter_append]
  have read := Grammar.ofSignificant_eq_ok_iff.mpr ⟨es ++ fs, both, rfl⟩
  rw [Grammar.program, Grammar.Expr.treeAll_append] at read
  exact ⟨_, read⟩

/-- From two texts that are joined by a line break the statements of both are read. -/
theorem ofSource_joined (said : ofSource source = .ok (.program body p))
    (said' : ofSource source' = .ok (.program body' p')) :
    ∃ p'', ofSource (source ++ "\n" ++ source') =
      .ok (.program (body ++ relocateAll (Position.behind source.toList) body') p'') := by
  obtain ⟨ts, scanned, parsed⟩ := ofSource_eq_ok_iff.mp said
  obtain ⟨us, scanned', parsed'⟩ := ofSource_eq_ok_iff.mp said'
  obtain ⟨q, moved⟩ := ofTokens_moved parsed' (Position.behind source.toList)
  -- The line break between the two texts is a token that means nothing.
  have further : ofTokens (⟨.newline, .after source.toList⟩ ::
      us.map (Token.relocate (Position.behind source.toList))) = _ := moved
  obtain ⟨p'', read⟩ := ofTokens_append parsed further
  exact ⟨p'', ofSource_of_read (Token.scan_joined scanned scanned') read⟩

end Tree

end Lispette
