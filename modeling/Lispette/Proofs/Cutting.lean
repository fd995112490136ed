import Lispette.Proofs.Piece

/-!
Scanning as cutting. A text that is cut into pieces, none of which closes a bracket that is not
open and which close all they open, scans to the tokens of the pieces. Any other text is refused,
at the first character that is no piece or closes no bracket, or else at its end.
-/

namespace Lispette

namespace Lexeme

def bracket? : Lexeme → Option Bracket
  | .bracket b => some b
  | _ => none

end Lexeme

namespace Bracket

def openings (bs : List Bracket) : Nat :=
  bs.countP isOpening

def closings (bs : List Bracket) : Nat :=
  bs.countP (!·.isOpening)

/-- At no place are more brackets closed than were open at first and opened since. -/
def Covered (opened : Nat) (bs : List Bracket) : Prop :=
  ∀ before, before <+: bs → closings before ≤ opened + openings before

def Balanced (bs : List Bracket) : Prop :=
  Covered 0 bs ∧ openings bs = closings bs

theorem covered_nil (n : Nat) : Covered n [] := fun before h => by
  rw [List.prefix_nil.mp h]
  simp [closings]

theorem covered_cons_of_opening {b : Bracket} (opening : b.isOpening = true) (n : Nat)
    (bs : List Bracket) : Covered n (b :: bs) ↔ Covered (n + 1) bs := by
  constructor
  · intro h before hb
    have := h (b :: before) (by simpa using hb)
    simp [closings, openings, opening] at this ⊢
    omega
  · intro h before hb
    rcases List.prefix_cons_iff.mp hb with rfl | ⟨tail, rfl, ht⟩
    · simp [closings]
    · have := h tail ht
      simp [closings, openings, opening] at this ⊢
      omega

theorem covered_cons_of_closing {b : Bracket} (closing : b.isOpening = false) (n : Nat)
    (bs : List Bracket) : Covered n (b :: bs) ↔ 0 < n ∧ Covered (n - 1) bs := by
  constructor
  · intro h
    have first := h [b] (by simp)
    simp [closings, openings, closing] at first
    refine ⟨first, fun before hb => ?_⟩
    have := h (b :: before) (by simpa using hb)
    simp [closings, openings, closing] at this ⊢
    omega
  · intro closed before hb
    obtain ⟨positive, h⟩ := closed
    rcases List.prefix_cons_iff.mp hb with rfl | ⟨tail, rfl, ht⟩
    · simp [closings]
    · have := h tail ht
      simp [closings, openings, closing] at this ⊢
      omega

/-- Brackets that are not covered have a first one that closes none. -/
theorem covered_or (n : Nat) (bs : List Bracket) :
    Covered n bs ∨ ∃ before b rest, bs = before ++ b :: rest ∧ Covered n before ∧
      b.isOpening = false ∧ n + openings before = closings before := by
  induction bs generalizing n with
  | nil => exact .inl (covered_nil n)
  | cons b bs ih =>
    cases opening : b.isOpening with
    | true =>
      rw [covered_cons_of_opening opening]
      rcases ih (n + 1) with h | ⟨before, b', rest, rfl, covered, closing, level⟩
      · exact .inl h
      · refine .inr ⟨b :: before, b', rest, rfl, ?_, closing, ?_⟩
        · rwa [covered_cons_of_opening opening]
        · simp [openings, closings, opening] at level ⊢
          omega
    | false =>
      rw [covered_cons_of_closing opening]
      by_cases positive : 0 < n
      · rcases ih (n - 1) with h | ⟨before, b', rest, rfl, covered, closing, level⟩
        · exact .inl ⟨positive, h⟩
        · refine .inr ⟨b :: before, b', rest, rfl, ?_, closing, ?_⟩
          · rw [covered_cons_of_closing opening]
            exact ⟨positive, covered⟩
          · simp [openings, closings, opening] at level ⊢
            omega
      · refine .inr ⟨[], b, bs, rfl, covered_nil n, opening, ?_⟩
        simp [openings, closings]
        omega

end Bracket

namespace Piece

def join (ps : List Piece) : List Char :=
  ps.flatMap chars

def bracket? (p : Piece) : Option Bracket :=
  p.lexeme?.bind Lexeme.bracket?

def brackets (ps : List Piece) : List Bracket :=
  ps.filterMap bracket?

def opened (n : Nat) (p : Piece) : Option Nat :=
  p.lexeme?.elim (some n) (Lexeme.opened n)

def tokens (before : List Char) (p : Piece) : List Token :=
  (p.lexeme?.map fun l => ⟨l, Position.after before⟩).toList

/-- The tokens of pieces that stand after a text. -/
def tokensAfter (before : List Char) : List Piece → List Token
  | [] => []
  | p :: ps => p.tokens before ++ tokensAfter (before ++ p.chars) ps

/-- The front of the text is cut into pieces, each of which fits where it stands. -/
inductive Cuts : List Char → List Piece → List Char → Prop
  | nil (text : List Char) : Cuts text [] text
  | cons {p : Piece} {ps : List Piece} {text rest : List Char} (fits : p.Fits text)
      (cut : Cuts text ps rest) : Cuts (p.chars ++ text) (p :: ps) rest

@[simp] theorem join_nil : join [] = [] := rfl

@[simp] theorem join_cons (p : Piece) (ps : List Piece) : join (p :: ps) = p.chars ++ join ps := rfl

namespace Cuts

variable {text middle rest : List Char} {p : Piece} {ps qs : List Piece}

theorem nil_iff : Cuts text [] rest ↔ text = rest := by
  constructor
  · intro cut
    cases cut
    rfl
  · intro same
    subst same
    exact .nil text

theorem cons_iff : Cuts text (p :: ps) rest ↔
    ∃ middle, text = p.chars ++ middle ∧ p.Fits middle ∧ Cuts middle ps rest := by
  constructor
  · intro cut
    cases cut
    next middle fits cut => exact ⟨middle, rfl, fits, cut⟩
  · intro h
    obtain ⟨middle, rfl, fits, cut⟩ := h
    exact .cons fits cut

theorem eq_append (cut : Cuts text ps rest) : text = join ps ++ rest := by
  induction cut with
  | nil text => rfl
  | cons fits cut ih => rw [ih, join_cons, List.append_assoc]

theorem append (first : Cuts text ps middle) (second : Cuts middle qs rest) :
    Cuts text (ps ++ qs) rest := by
  induction first with
  | nil text => exact second
  | cons fits cut ih => exact .cons fits (ih second)

theorem split (cut : Cuts text (ps ++ qs) rest) : ∃ middle, Cuts text ps middle ∧
    Cuts middle qs rest := by
  induction ps generalizing text with
  | nil => exact ⟨text, .nil text, cut⟩
  | cons p ps ih =>
    obtain ⟨middle, rfl, fits, cut⟩ := cons_iff.mp cut
    obtain ⟨middle, first, second⟩ := ih cut
    exact ⟨middle, .cons fits first, second⟩

theorem eq_nil_of_nil (cut : Cuts [] ps rest) : ps = [] := by
  cases ps with
  | nil => rfl
  | cons p ps =>
    obtain ⟨middle, empty, fits, -⟩ := cons_iff.mp cut
    obtain ⟨c, cs, chars⟩ := exists_chars_eq_cons fits
    simp [chars] at empty

theorem unique (first : Cuts text ps []) (second : Cuts text qs []) : ps = qs := by
  induction ps generalizing text qs with
  | nil =>
    obtain rfl := nil_iff.mp first
    exact (eq_nil_of_nil second).symm
  | cons p ps ih =>
    obtain ⟨middle, rfl, fits, cut⟩ := cons_iff.mp first
    obtain ⟨c, cs, chars⟩ := exists_chars_eq_cons fits
    cases qs with
    | nil => simp [chars] at second; cases nil_iff.mp second
    | cons q qs =>
      obtain ⟨middle', same, fits', cut'⟩ := cons_iff.mp second
      obtain ⟨rfl, rfl⟩ := eq_of_fits fits fits' same
      rw [ih cut cut']

theorem exists_cuts (text : List Char) : ∃ ps rest, Cuts text ps rest ∧ ¬ Starts rest := by
  -- A piece can be of any length but none is empty, so the length of the text decreases.
  induction hn : text.length using Nat.strong_induction_on generalizing text with
  | _ n ih =>
    by_cases starts : Starts text
    · obtain ⟨p, middle, rfl, fits⟩ := starts
      obtain ⟨c, cs, chars⟩ := exists_chars_eq_cons fits
      have shorter : middle.length < n := by
        simp [chars] at hn
        omega
      obtain ⟨ps, rest, cut, stuck⟩ := ih _ shorter middle rfl
      exact ⟨p :: ps, rest, .cons fits cut, stuck⟩
    · exact ⟨[], text, .nil text, starts⟩

end Cuts

theorem tokensAfter_append (before : List Char) (ps qs : List Piece) :
    tokensAfter before (ps ++ qs) =
      tokensAfter before ps ++ tokensAfter (before ++ join ps) qs := by
  induction ps generalizing before with
  | nil => simp [tokensAfter]
  | cons p ps ih => simp [tokensAfter, ih]

theorem brackets_cons (p : Piece) (ps : List Piece) :
    brackets (p :: ps) = p.bracket?.toList ++ brackets ps := by
  cases h : p.bracket? <;> simp [brackets, h]

variable {p : Piece} {b : Bracket}

theorem opened_of_none (h : p.bracket? = none) (n : Nat) : p.opened n = some n := by
  rw [bracket?] at h
  rw [opened]
  cases lexeme : p.lexeme? with
  | none => rfl
  | some l =>
    cases l with
    | bracket b => simp [lexeme, Lexeme.bracket?] at h
    | number | string | identifier | operator | keyword | newline => rfl

theorem eq_bracket (h : p.bracket? = some b) : p = .bracket b := by
  cases p with
  | bracket b' => simpa [bracket?, lexeme?, Lexeme.bracket?] using h
  | word run =>
    rw [bracket?, lexeme?, Lexeme.ofWord] at h
    cases keyword : Keyword.ofText? (String.ofList run) <;> simp [keyword, Lexeme.bracket?] at h
  | newline | blank | digits | quoted | operator => cases h

theorem opened_of_opening (opening : b.isOpening = true) (n : Nat) :
    (bracket b).opened n = some (n + 1) := by
  simp [opened, lexeme?, Lexeme.opened, opening]

theorem opened_of_closing (closing : b.isOpening = false) (n : Nat) :
    (bracket b).opened n = if n = 0 then none else some (n - 1) := by
  simp [opened, lexeme?, Lexeme.opened, closing]

/-- A piece moves the count of open brackets so that the pieces after it stay covered and the count
at the end is the same. -/
theorem opened_of_covered {ps : List Piece} {n : Nat}
    (covered : Bracket.Covered n (brackets (p :: ps))) :
    ∃ m, p.opened n = some m ∧ Bracket.Covered m (brackets ps) ∧
      m + Bracket.openings (brackets ps) - Bracket.closings (brackets ps) =
        n + Bracket.openings (brackets (p :: ps)) - Bracket.closings (brackets (p :: ps)) := by
  rw [brackets_cons] at covered ⊢
  cases bracket : p.bracket? with
  | none =>
    rw [bracket] at covered
    exact ⟨n, opened_of_none bracket n, covered, rfl⟩
  | some b =>
    obtain rfl := eq_bracket bracket
    rw [bracket] at covered
    cases opening : b.isOpening with
    | true =>
      refine ⟨n + 1, opened_of_opening opening n, ?_, ?_⟩
      · simpa [Bracket.covered_cons_of_opening opening] using covered
      · simp [Bracket.openings, Bracket.closings, opening]
        omega
    | false =>
      obtain ⟨positive, covered⟩ : 0 < n ∧ Bracket.Covered (n - 1) (brackets ps) := by
        simpa [Bracket.covered_cons_of_closing opening] using covered
      refine ⟨n - 1, ?_, covered, ?_⟩
      · rw [opened_of_closing opening, if_neg (by omega)]
      · simp [Bracket.openings, Bracket.closings, opening]
        omega

end Piece

namespace Token

open Piece

variable {source : String} {text rest before : List Char} {p : Piece} {ps : List Piece} {n m : Nat}

theorem scanFrom_of_opened (fits : p.Fits rest) (level : p.opened n = some m)
    (before : List Char) :
    scanFrom (.after before) n (p.chars ++ rest) =
      (scanFrom (.after (before ++ p.chars)) m rest).map (p.tokens before ++ ·) := by
  obtain ⟨c, cs, chars⟩ := exists_chars_eq_cons fits
  have front := Front.ofChars_of_fits chars fits
  rw [chars, List.cons_append, scanFrom, front, Piece.front]
  cases lexeme : p.lexeme? with
  | none =>
    obtain ⟨d, rfl⟩ := exists_eq_blank lexeme
    obtain rfl : n = m := by simpa [Piece.opened, lexeme] using level
    obtain ⟨rfl, rfl⟩ : d = c ∧ [] = cs := by simpa [Piece.chars] using chars
    rw [Position.after_append_singleton]
    cases scanned : scanFrom ((Position.after before).advance d) n rest <;>
      simp [scanned, Except.map, Piece.tokens, Piece.lexeme?]
  | some l =>
    replace level : l.opened n = some m := by simpa [Piece.opened, lexeme] using level
    have width : p.chars.length - 1 = cs.length := by simp [chars]
    simp only [level, width, List.take_left, List.drop_left, ← Position.after_append]
    cases scanFrom (.after (before ++ c :: cs)) m rest <;>
      simp [Except.map, Piece.tokens, lexeme, bind, Except.bind, pure, Except.pure]

theorem scanFrom_of_unopened {c : Char} {cs : List Char} (chars : p.chars = c :: cs)
    (fits : p.Fits rest) (level : p.opened n = none) (before : List Char) :
    scanFrom (.after before) n (p.chars ++ rest) = .error (.unexpectedChar c (.after before)) := by
  have front := Front.ofChars_of_fits chars fits
  rw [chars, List.cons_append, scanFrom, front, Piece.front]
  cases lexeme : p.lexeme? with
  | none => simp [Piece.opened, lexeme] at level
  | some l =>
    replace level : l.opened n = none := by simpa [Piece.opened, lexeme] using level
    simp only [level]

theorem scanFrom_of_covered (cut : Cuts text ps rest)
    (covered : Bracket.Covered n (brackets ps)) (before : List Char) :
    scanFrom (.after before) n text =
      (scanFrom (.after (before ++ join ps))
        (n + Bracket.openings (brackets ps) - Bracket.closings (brackets ps)) rest).map
          (tokensAfter before ps ++ ·) := by
  induction cut generalizing n before with
  | nil text =>
    simp only [join_nil, List.append_nil, tokensAfter, List.nil_append]
    cases h : scanFrom (.after before) n text <;>
      simp [brackets, Bracket.openings, Bracket.closings, h, Except.map]
  | @cons p ps text rest fits cut ih =>
    obtain ⟨m, level, covered, total⟩ := opened_of_covered covered
    rw [scanFrom_of_opened fits level, ih covered, total, join_cons, ← List.append_assoc]
    cases scanFrom (.after (before ++ p.chars ++ join ps)) _ rest <;>
      simp [Except.map, tokensAfter]

/-- The scanner stops at the character: no piece starts with it, or it closes a bracket and none is
open. The text before it is cut into pieces. -/
def Refused (text : List Char) (c : Char) (p : Position) : Prop :=
  ∃ before rest ps, text = before ++ c :: rest ∧ p = .after before ∧ Cuts text ps (c :: rest) ∧
    Bracket.Covered 0 (brackets ps) ∧
    (¬ Starts (c :: rest) ∧ Front.isQuote c = false ∨
      ∃ b : Bracket, b.char = c ∧ b.isOpening = false ∧
        Bracket.openings (brackets ps) = Bracket.closings (brackets ps))

/-- The text ends too early: within a string, or with brackets open. -/
def Unended (text : List Char) : Prop :=
  ∃ ps rest, Cuts text ps rest ∧ Bracket.Covered 0 (brackets ps) ∧
    (rest = [] ∧ Bracket.closings (brackets ps) < Bracket.openings (brackets ps) ∨
      ∃ quote cs, rest = quote :: cs ∧ Front.isQuote quote = true ∧ quote ∉ cs)

theorem scan_eq (cut : Cuts source.toList ps rest)
    (covered : Bracket.Covered 0 (brackets ps)) :
    scan source = (scanFrom (.after (join ps))
      (Bracket.openings (brackets ps) - Bracket.closings (brackets ps)) rest).map
        (tokensAfter [] ps ++ ·) := by
  simpa [scan] using scanFrom_of_covered cut covered []

theorem scan_of_balanced (cut : Cuts source.toList ps [])
    (balanced : Bracket.Balanced (brackets ps)) : scan source = .ok (tokensAfter [] ps) := by
  rw [scan_eq cut balanced.1, balanced.2, Nat.sub_self, scanFrom]
  simp [Except.map]

theorem scan_of_refused {c : Char} {p : Position} (refused : Refused source.toList c p) :
    scan source = .error (.unexpectedChar c p) := by
  obtain ⟨before, rest, ps, split, rfl, cut, covered, reason⟩ := refused
  obtain rfl : before = join ps := by simpa [split] using cut.eq_append
  have stops : scanFrom (.after (join ps))
      (Bracket.openings (brackets ps) - Bracket.closings (brackets ps)) (c :: rest) =
        .error (.unexpectedChar c (.after (join ps))) := by
    rcases reason with ⟨noPiece, noQuote⟩ | ⟨b, rfl, closing, level⟩
    · rcases Front.starts_or c rest with starts | ⟨quote, -⟩ | ⟨stray, -⟩
      · exact absurd starts noPiece
      · simp [noQuote] at quote
      · rw [scanFrom, stray]
    · rw [level, Nat.sub_self]
      have unopened : (bracket b).opened 0 = none := by simp [opened_of_closing closing]
      exact scanFrom_of_unopened (p := .bracket b) rfl trivial unopened _
  rw [scan_eq cut covered, stops]
  rfl

theorem scan_of_unended (unended : Unended source.toList) :
    scan source = .error (.unexpectedEnd (.after source.toList)) := by
  obtain ⟨ps, rest, cut, covered, reason⟩ := unended
  have stops : scanFrom (.after (join ps))
      (Bracket.openings (brackets ps) - Bracket.closings (brackets ps)) rest =
        .error (.unexpectedEnd (.after source.toList)) := by
    rw [cut.eq_append]
    rcases reason with ⟨rfl, short⟩ | ⟨quote, cs, rfl, opens, missing⟩
    · rw [scanFrom, if_neg (by omega), List.append_nil]
    · rw [scanFrom, Front.ofChars_of_isQuote opens, Front.ofQuote_of_not_mem missing,
        Position.after_append]
  rw [scan_eq cut covered, stops]
  rfl

theorem exists_of_brackets_eq {bs bs' : List Bracket} {b : Bracket}
    (h : brackets ps = bs ++ b :: bs') : ∃ qs qs', ps = qs ++ .bracket b :: qs' ∧
      brackets qs = bs := by
  obtain ⟨front, back, rfl, rfl, tail⟩ := List.filterMap_eq_append_iff.mp h
  obtain ⟨blanks, p, qs', rfl, noBrackets, bracket, -⟩ := List.filterMap_eq_cons_iff.mp tail
  obtain rfl := eq_bracket bracket
  refine ⟨front ++ blanks, qs', by simp, ?_⟩
  rw [brackets, List.filterMap_append, List.filterMap_eq_nil_iff.mpr noBrackets, List.append_nil]

theorem balanced_or (text : List Char) :
    (∃ ps, Cuts text ps [] ∧ Bracket.Balanced (brackets ps)) ∨ (∃ c p, Refused text c p) ∨
      Unended text := by
  obtain ⟨ps, rest, cut, stuck⟩ := Cuts.exists_cuts text
  rcases Bracket.covered_or 0 (brackets ps) with
    covered | ⟨bs, b, bs', split, covered, closing, level⟩
  · cases rest with
    | nil =>
      have total := covered (brackets ps) List.prefix_rfl
      by_cases level : Bracket.openings (brackets ps) = Bracket.closings (brackets ps)
      · exact .inl ⟨ps, cut, covered, level⟩
      · exact .inr (.inr ⟨ps, [], cut, covered, .inl ⟨rfl, by omega⟩⟩)
    | cons c rest =>
      rcases Front.starts_or c rest with starts | ⟨opens, missing⟩ | ⟨-, noQuote⟩
      · exact absurd starts stuck
      · exact .inr (.inr ⟨ps, c :: rest, cut, covered, .inr ⟨c, rest, rfl, opens, missing⟩⟩)
      · exact .inr (.inl ⟨c, _, join ps, rest, ps, cut.eq_append, rfl, cut, covered,
          .inl ⟨stuck, noQuote⟩⟩)
  · obtain ⟨qs, qs', rfl, rfl⟩ := exists_of_brackets_eq split
    obtain ⟨middle, first, second⟩ := cut.split
    obtain ⟨tail, rfl, -⟩ := Cuts.cons_iff.mp second
    exact .inr (.inl ⟨b.char, _, join qs, tail, qs, first.eq_append, rfl, first, covered,
      .inr ⟨b, rfl, closing, by omega⟩⟩)

theorem scan_eq_ok_iff {tokens : List Token} : scan source = .ok tokens ↔
    ∃ ps, Cuts source.toList ps [] ∧ Bracket.Balanced (brackets ps) ∧
      tokens = tokensAfter [] ps := by
  constructor
  · intro scanned
    rcases balanced_or source.toList with ⟨ps, cut, balanced⟩ | ⟨c, p, refused⟩ | unended
    · rw [scan_of_balanced cut balanced] at scanned
      cases scanned
      exact ⟨ps, cut, balanced, rfl⟩
    · simp [scan_of_refused refused] at scanned
    · simp [scan_of_unended unended] at scanned
  · intro h
    obtain ⟨ps, cut, balanced, rfl⟩ := h
    exact scan_of_balanced cut balanced

theorem scan_eq_unexpectedChar_iff {c : Char} {p : Position} :
    scan source = .error (.unexpectedChar c p) ↔ Refused source.toList c p := by
  refine ⟨fun scanned => ?_, scan_of_refused⟩
  rcases balanced_or source.toList with ⟨ps, cut, balanced⟩ | ⟨c', p', refused⟩ | unended
  · simp [scan_of_balanced cut balanced] at scanned
  · rw [scan_of_refused refused] at scanned
    cases scanned
    exact refused
  · simp [scan_of_unended unended] at scanned

theorem scan_eq_unexpectedEnd_iff {p : Position} :
    scan source = .error (.unexpectedEnd p) ↔
      p = .after source.toList ∧ Unended source.toList := by
  constructor
  · intro scanned
    rcases balanced_or source.toList with ⟨ps, cut, balanced⟩ | ⟨c, p', refused⟩ | unended
    · simp [scan_of_balanced cut balanced] at scanned
    · simp [scan_of_refused refused] at scanned
    · rw [scan_of_unended unended] at scanned
      cases scanned
      exact ⟨rfl, unended⟩
  · intro h
    obtain ⟨rfl, unended⟩ := h
    exact scan_of_unended unended

/-- A text scans exactly if it is cut into pieces with balanced brackets, to the tokens of the
pieces; the cutting is unique. Otherwise it is refused at the one character where the scanner
stops, or at its end if there is no such character. -/
theorem scan_cutting (source : String) :
    (∀ tokens, scan source = .ok tokens ↔
      ∃ ps, Cuts source.toList ps [] ∧ Bracket.Balanced (brackets ps) ∧
        tokens = tokensAfter [] ps) ∧
    (∀ ps qs, Cuts source.toList ps [] → Cuts source.toList qs [] → ps = qs) ∧
    (∀ c p, scan source = .error (.unexpectedChar c p) ↔ Refused source.toList c p) ∧
    (∀ p, scan source = .error (.unexpectedEnd p) ↔
      p = .after source.toList ∧ Unended source.toList) ∧
    (Unended source.toList ↔
      (¬ ∃ ps, Cuts source.toList ps [] ∧ Bracket.Balanced (brackets ps)) ∧
        ¬ ∃ c p, Refused source.toList c p) := by
  refine ⟨fun tokens => scan_eq_ok_iff, fun ps qs => Cuts.unique,
    fun c p => scan_eq_unexpectedChar_iff, fun p => scan_eq_unexpectedEnd_iff, ?_, ?_⟩
  · intro unended
    constructor
    · intro h
      obtain ⟨ps, cut, balanced⟩ := h
      simpa [scan_of_unended unended] using scan_of_balanced cut balanced
    · intro h
      obtain ⟨c, p, refused⟩ := h
      simpa [scan_of_unended unended] using scan_of_refused refused
  · intro h
    obtain ⟨unbalanced, unrefused⟩ := h
    rcases balanced_or source.toList with balanced | refused | unended
    · exact absurd balanced unbalanced
    · exact absurd refused unrefused
    · exact unended

end Token

end Lispette
