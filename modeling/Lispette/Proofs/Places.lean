import Lispette.Proofs.Nesting
import Lispette.Proofs.WellFormed

/-!
Where tokens and trees stand. A token stands in front of its piece of the text, and later tokens
stand further on. A tree that is read from tokens stands on them: each of its nodes is at the token
that says what the node says, behind the bracket and the keyword of its form.
-/

namespace Lispette

open Grammar

namespace Position

/-- The place after so many characters of the text. -/
structure Within (text : List Char) (p : Position) : Prop where
  offset_le : p.offset ≤ text.length
  reached : p = advanceAll {} (text.take p.offset)

theorem after_eq (before : List Char) : after before = advanceAll {} before := by
  simpa using after_append [] before

theorem within_after (before rest : List Char) : (after before).Within (before ++ rest) where
  offset_le := by simp [after]
  reached := by
    have front : (before ++ rest).take (after before).offset = before := List.take_left
    rw [front, after_eq]

theorem within_end (text : List Char) : (after text).Within text := by
  simpa using within_after text []

end Position

namespace Piece

variable {p : Piece} {ps : List Piece} {text rest before : List Char} {t : Token}

/-- Each token is that of one of the pieces and stands behind those before it. -/
theorem exists_split_of_mem_tokensAfter (mem : t ∈ tokensAfter before ps) :
    ∃ qs, ∃ p : Piece, ∃ rs, ps = qs ++ p :: rs ∧ p.lexeme? = some t.lexeme ∧
      t.position = .after (before ++ join qs) := by
  induction ps generalizing before with
  | nil => cases mem
  | cons p ps ih =>
    rcases List.mem_append.mp mem with here | later
    · obtain ⟨l, lexeme, rfl⟩ := Option.map_eq_some_iff.mp (Option.mem_toList.mp here)
      exact ⟨[], p, ps, rfl, lexeme, by simp⟩
    · obtain ⟨qs, p', rs, rfl, lexeme, position⟩ := ih later
      exact ⟨p :: qs, p', rs, rfl, lexeme, by rw [position, join_cons, List.append_assoc]⟩

/-- A token stands in front of a piece that says its lexeme. -/
theorem exists_of_mem_tokensAfter (cut : Cuts text ps rest) (mem : t ∈ tokensAfter before ps) :
    ∃ front, ∃ p : Piece, ∃ back, before ++ text = front ++ (p.chars ++ back) ∧ p.Fits back ∧
      p.lexeme? = some t.lexeme ∧ t.position = .after front := by
  obtain ⟨qs, p, rs, rfl, lexeme, position⟩ := exists_split_of_mem_tokensAfter mem
  obtain ⟨middle, first, second⟩ := cut.split
  obtain ⟨back, rfl, fits, -⟩ := Cuts.cons_iff.mp second
  exact ⟨before ++ join qs, p, back, by rw [first.eq_append, List.append_assoc], fits, lexeme,
    position⟩

theorem length_le_of_mem_tokensAfter (mem : t ∈ tokensAfter before ps) :
    before.length ≤ t.position.offset := by
  induction ps generalizing before with
  | nil => cases mem
  | cons p ps ih =>
    rcases List.mem_append.mp mem with here | later
    · obtain ⟨l, -, rfl⟩ := Option.map_eq_some_iff.mp (Option.mem_toList.mp here)
      exact Nat.le_refl _
    · have further := ih later
      rw [List.length_append] at further
      omega

/-- Each token stands further on than those before it. -/
theorem pairwise_tokensAfter (cut : Cuts text ps rest) (before : List Char) :
    (tokensAfter before ps).Pairwise (·.position.offset < ·.position.offset) := by
  induction cut generalizing before with
  | nil => exact .nil
  | @cons p ps text rest fits cut ih =>
    obtain ⟨c, cs, chars⟩ := exists_chars_eq_cons fits
    refine List.pairwise_append.mpr ⟨?_, ih _, fun t here u later => ?_⟩
    · rw [tokens]
      cases p.lexeme? <;> simp
    · obtain ⟨l, -, rfl⟩ := Option.map_eq_some_iff.mp (Option.mem_toList.mp here)
      have further := length_le_of_mem_tokensAfter later
      rw [List.length_append, chars, List.length_cons] at further
      show before.length < u.position.offset
      omega

/-- A name or an operator is spelled as it is written. -/
theorem chars_of_lexeme? {l : Lexeme} (lexeme : p.lexeme? = some l)
    (spelled : (∃ name, l = .identifier name) ∨ ∃ op, l = .operator op) :
    p.chars = l.text.toList := by
  cases p with
  | word run =>
    rw [lexeme?, Lexeme.ofWord] at lexeme
    cases keyword : Keyword.ofText? (String.ofList run) with
    | some k => rcases spelled with ⟨_, rfl⟩ | ⟨_, rfl⟩ <;> simp [keyword] at lexeme
    | none =>
      obtain rfl : Lexeme.identifier (String.ofList run) = l := by simpa [keyword] using lexeme
      exact String.toList_ofList.symm
  | operator op =>
    cases lexeme
    exact String.toList_ofList.symm
  | newline | digits | quoted | bracket =>
    cases lexeme
    rcases spelled with ⟨_, h⟩ | ⟨_, h⟩ <;> cases h
  | blank => cases lexeme

end Piece

namespace Token

variable {source : String} {tokens : List Token} {t : Token}

theorem mem_of_mem_significant (member : t ∈ Tree.significant tokens) : t ∈ tokens :=
  (List.mem_filter.mp member).1

theorem exists_piece (scanned : scan source = .ok tokens) (mem : t ∈ tokens) :
    ∃ front, ∃ p : Piece, ∃ back, source.toList = front ++ (p.chars ++ back) ∧ p.Fits back ∧
      p.lexeme? = some t.lexeme ∧ t.position = .after front := by
  obtain ⟨ps, cut, -, rfl⟩ := scan_eq_ok_iff.mp scanned
  exact Piece.exists_of_mem_tokensAfter cut mem

theorem within (scanned : scan source = .ok tokens) (mem : t ∈ tokens) :
    t.position.Within source.toList := by
  obtain ⟨front, p, back, split, -, -, position⟩ := exists_piece scanned mem
  rw [split, position]
  exact Position.within_after front _

theorem pairwise_of_scan (scanned : scan source = .ok tokens) :
    tokens.Pairwise (·.position.offset < ·.position.offset) := by
  obtain ⟨ps, cut, -, rfl⟩ := scan_eq_ok_iff.mp scanned
  exact Piece.pairwise_tokensAfter cut []

end Token

namespace Tree

mutual

/-- Every node of the tree stands at the token that says what it says, in the form that it makes:
`( head`, `( def name` or `( fn name`. -/
def StandsOn (ts : List Token) : Tree → Prop
  | .program body _ => AllStandOn ts body
  | .number digits p => ⟨.number digits, p⟩ ∈ ts
  | .string text p => ⟨.string text, p⟩ ∈ ts
  | .identifier name p => ⟨.identifier name, p⟩ ∈ ts
  | .call head arguments p =>
    (∃ (opening : Position) (h : Grammar.Head), h.text = head ∧
      [⟨.bracket .openRound, opening⟩, ⟨h.lexeme, p⟩] <:+: ts) ∧ AllStandOn ts arguments
  | .define name value p =>
    (∃ opening keyword : Position, [⟨.bracket .openRound, opening⟩, ⟨.keyword .define, keyword⟩,
      ⟨.identifier name, p⟩] <:+: ts) ∧ value.StandsOn ts
  | .function name _ body p =>
    (∃ opening keyword : Position, [⟨.bracket .openRound, opening⟩, ⟨.keyword .function, keyword⟩,
      ⟨.identifier name, p⟩] <:+: ts) ∧ body.StandsOn ts

def AllStandOn (ts : List Token) : List Tree → Prop
  | [] => True
  | t :: us => t.StandsOn ts ∧ AllStandOn ts us

end

theorem allStandOn_iff {ts : List Token} {us : List Tree} :
    AllStandOn ts us ↔ ∀ t ∈ us, t.StandsOn ts := by
  induction us with
  | nil => simp [AllStandOn]
  | cons t us ih => simp [AllStandOn, ih]

end Tree

namespace Grammar

open Lispette.Tree

variable {ts : List Token}

mutual

theorem Expr.standsOn_tree : ∀ e : Expr, e.tokens <:+: ts → e.tree.StandsOn ts
  | .number _ _, h | .string _ _, h | .identifier _ _, h =>
    h.subset (List.mem_singleton_self _)
  | .define opening keyword name p value closing, h => by
    refine ⟨⟨opening, keyword, .trans ⟨[], _, rfl⟩ h⟩, standsOn_tree value (.trans ?_ h)⟩
    exact ⟨[⟨.bracket .openRound, opening⟩, ⟨.keyword .define, keyword⟩, ⟨.identifier name, p⟩], _,
      rfl⟩
  | .function opening keyword name p parameters body closing, h => by
    refine ⟨⟨opening, keyword, .trans ⟨[], _, rfl⟩ h⟩, standsOn_tree body (.trans ?_ h)⟩
    exact ⟨⟨.bracket .openRound, opening⟩ :: ⟨.keyword .function, keyword⟩ ::
      ⟨.identifier name, p⟩ :: parameters.elim [] Parameters.tokens, _, rfl⟩
  | .call opening head p arguments closing, h => by
    refine ⟨⟨opening, head, rfl, .trans ⟨[], _, rfl⟩ h⟩,
      allStandOn_treeAll arguments (.trans ?_ h)⟩
    exact ⟨[⟨.bracket .openRound, opening⟩, ⟨head.lexeme, p⟩], _, rfl⟩

theorem Expr.allStandOn_treeAll : ∀ es : List Expr, tokensAll es <:+: ts →
    AllStandOn ts (treeAll es)
  | [], _ => trivial
  | e :: es, h =>
    ⟨standsOn_tree e (.trans (List.prefix_append _ _).isInfix h),
      allStandOn_treeAll es (.trans (List.suffix_append _ _).isInfix h)⟩

end

end Grammar

/-- The token that is refused is one of those that were to be read. -/
theorem Tree.mem_of_unexpectedToken {tokens : List Token} {t : Token}
    (unread : ofTokens tokens = .error (.unexpectedToken t)) : t ∈ significant tokens := by
  rw [ofTokens, ofSignificant_eq_unexpectedToken_iff, readAll_eq_unexpectedToken_iff] at unread
  obtain ⟨before, after, split, -⟩ := unread
  rw [split]
  simp

theorem Tree.standsOn_of_ofTokens {tokens : List Token} {tree : Tree}
    (parsed : ofTokens tokens = .ok tree) : tree.StandsOn (significant tokens) := by
  obtain ⟨es, derived, rfl⟩ := ofSignificant_eq_ok_iff.mp parsed
  exact Expr.allStandOn_treeAll es (derived ▸ List.infix_rfl)

end Lispette
