import Mathlib.Data.List.TakeWhile
import Lispette.Token.Scan

/-!
The pieces of a text: a line break, a blank, a run of digits, a word, a quoted string, a bracket
or an operator. Whether a piece may stand at a place depends on the text that follows: a run is as
long as it can be, and so is an operator. At most one piece stands at the front of a text, and the
front of the text tells which.
-/

namespace Lispette

namespace Position

/-- The position after a text: its characters, those since its last line break, its line breaks. -/
def after (before : List Char) : Position :=
  ⟨before.length, (before.reverse.takeWhile (· ≠ '\n')).length, before.count '\n'⟩

@[simp] theorem after_nil : after [] = {} := rfl

theorem after_append_singleton (before : List Char) (c : Char) :
    after (before ++ [c]) = (after before).advance c := by
  by_cases h : c = '\n' <;> simp [after, advance, h, List.count_append]

theorem after_append (before cs : List Char) :
    after (before ++ cs) = (after before).advanceAll cs := by
  induction cs generalizing before with
  | nil => simp
  | cons c cs ih =>
    have split : before ++ c :: cs = (before ++ [c]) ++ cs := by simp
    rw [split, ih, after_append_singleton, advanceAll_cons]

end Position

namespace Text

theorem isDigit_iff (c : Char) : c.isDigit = true ↔ 48 ≤ c.toNat ∧ c.toNat ≤ 57 :=
  Bool.and_eq_true_iff.trans (and_congr decide_eq_true_iff decide_eq_true_iff)

theorem isAlpha_iff (c : Char) : c.isAlpha = true ↔
    65 ≤ c.toNat ∧ c.toNat ≤ 90 ∨ 97 ≤ c.toNat ∧ c.toNat ≤ 122 := by
  have upper : c.isUpper = true ↔ 65 ≤ c.toNat ∧ c.toNat ≤ 90 := decide_eq_true_iff
  have lower : c.isLower = true ↔ 97 ≤ c.toNat ∧ c.toNat ≤ 122 :=
    Bool.and_eq_true_iff.trans (and_congr decide_eq_true_iff decide_eq_true_iff)
  exact Bool.or_eq_true_iff.trans (or_congr upper lower)

theorem isBlank_of_isAlphanum {c : Char} (h : c.isAlphanum = true) : isBlank c = false := by
  have range : (65 ≤ c.toNat ∧ c.toNat ≤ 90 ∨ 97 ≤ c.toNat ∧ c.toNat ≤ 122) ∨
      48 ≤ c.toNat ∧ c.toNat ≤ 57 :=
    (Bool.or_eq_true_iff.mp h).imp (isAlpha_iff c).mp (isDigit_iff c).mp
  simp only [isBlank, blankRanges, List.any_cons, List.any_nil, Bool.or_false,
    Bool.or_eq_false_iff, Bool.and_eq_false_iff, decide_eq_false_iff_not]
  omega

theorem ne_newline_of_isAlphanum {c : Char} (h : c.isAlphanum = true) : c ≠ '\n' := by
  intro same
  subst same
  exact absurd h (by decide)

theorem isDigit_of_isAlpha {c : Char} (h : c.isAlpha = true) : c.isDigit = false := by
  have range := (isAlpha_iff c).mp h
  rw [← Bool.not_eq_true, isDigit_iff]
  omega

end Text

inductive Piece
  | newline
  | blank (c : Char)
  | digits (run : List Char)
  | word (run : List Char)
  | quoted (quote : Char) (text : List Char)
  | bracket (b : Bracket)
  | operator (op : Operator)

namespace Piece

def chars : Piece → List Char
  | .newline => ['\n']
  | .blank c => [c]
  | .digits run => run
  | .word run => run
  | .quoted quote text => quote :: text ++ [quote]
  | .bracket b => [b.char]
  | .operator op => op.chars

/-- A blank means nothing; a word that spells a keyword is that keyword. -/
def lexeme? : Piece → Option Lexeme
  | .newline => some .newline
  | .blank _ => none
  | .digits run => some (.number (String.ofList run))
  | .word run => some (.ofWord (String.ofList run))
  | .quoted _ text => some (.string (String.ofList text))
  | .bracket b => some (.bracket b)
  | .operator op => some (.operator op)

/-- The piece may stand in front of the text that follows it. -/
def Fits (rest : List Char) : Piece → Prop
  | .newline => True
  | .blank c => Text.isBlank c = true ∧ c ≠ '\n'
  | .digits run => run ≠ [] ∧ (∀ c ∈ run, c.isDigit = true) ∧ ∀ c ∈ rest.head?, c.isDigit = false
  | .word run => (∃ c ∈ run.head?, c.isAlpha = true) ∧ (∀ c ∈ run, c.isAlphanum = true) ∧
      ∀ c ∈ rest.head?, c.isAlphanum = false
  | .quoted quote text => Front.isQuote quote = true ∧ quote ∉ text
  | .bracket _ => True
  | .operator op => ∀ c ∈ rest.head?, ∀ longer : Operator, longer.chars ≠ op.chars ++ [c]

def Starts (text : List Char) : Prop :=
  ∃ (p : Piece) (rest : List Char), text = p.chars ++ rest ∧ p.Fits rest

def front (p : Piece) : Front :=
  match p.lexeme? with
  | none => .blank
  | some l => .lexeme l (p.chars.length - 1)

end Piece

namespace Operator

theorem ofChars?_eq_none {cs : List Char} (h : ∀ op : Operator, op.chars ≠ cs) :
    ofChars? cs = none := by
  cases found : ofChars? cs with
  | none => rfl
  | some op => exact absurd (chars_of_ofChars? found) (h op)

theorem chars_cases (op : Operator) :
    (∃ c, op.chars = [c]) ∨ ∃ c d, op.chars = [c, d] := by
  cases op <;> simp [chars]

theorem front?_of_fits {op : Operator} {c : Char} {cs rest : List Char}
    (split : op.chars = c :: cs) (fits : (Piece.operator op).Fits rest) :
    front? c (cs ++ rest) = some (op, cs.length) := by
  have whole : ofChars? (c :: cs) = some op := by rw [← split, ofChars?_chars]
  rcases op.chars_cases with ⟨_, one⟩ | ⟨_, d, two⟩
  · obtain ⟨-, rfl⟩ : _ = c ∧ cs = [] := by simpa [one, eq_comm] using split
    cases rest with
    | nil => simp [front?, whole]
    | cons d rest =>
      have longer : ofChars? [c, d] = none :=
        ofChars?_eq_none fun op' h => fits d (by simp) op' (by rw [h, split]; rfl)
      simp [front?, longer, whole]
  · obtain ⟨-, rfl⟩ : _ = c ∧ cs = [d] := by simpa [two, eq_comm] using split
    simp [front?, whole]

theorem starts_of_front? {c : Char} {cs : List Char} (h : (front? c cs).isSome) :
    Piece.Starts (c :: cs) := by
  cases longest : ofChars? (c :: cs.take 1) with
  | some op =>
    have whole := chars_of_ofChars? longest
    refine ⟨.operator op, cs.drop 1, ?_, fun d next longer same => ?_⟩
    · rw [Piece.chars, whole, List.cons_append, List.take_append_drop]
    · cases cs with
      | nil => simp at next
      | cons e cs =>
        rcases longer.chars_cases with ⟨_, eq⟩ | ⟨_, _, eq⟩ <;> simp [eq, whole] at same
  | none =>
    obtain ⟨op, found⟩ : ∃ op, ofChars? [c] = some op := by
      simpa [front?, longest, Option.isSome_iff_exists] using h
    have one := chars_of_ofChars? found
    refine ⟨.operator op, cs, by simp [Piece.chars, one], fun d next longer same => ?_⟩
    have two : c :: cs.take 1 = longer.chars := by
      cases cs with
      | nil => simp at next
      | cons e cs => simpa [same, one] using next
    rw [two, ofChars?_chars] at longest
    cases longest

end Operator

namespace Front

theorem takeWhile_run {P : Char → Bool} {run rest : List Char} (all : ∀ c ∈ run, P c = true)
    (stops : ∀ c ∈ rest.head?, P c = false) : (run ++ rest).takeWhile P = run := by
  rw [List.takeWhile_append_of_pos all]
  cases rest with
  | nil => simp
  | cons c rest => simp [stops c (by simp)]

theorem dropWhile_stops (P : Char → Bool) (cs : List Char) :
    ∀ c ∈ (cs.dropWhile P).head?, P c = false := by
  intro c first
  have stop := List.head?_dropWhile_not P cs
  rw [first] at stop
  exact stop

theorem ofChars_of_isQuote {c : Char} (h : isQuote c = true) (cs : List Char) :
    ofChars c cs = ofQuote c cs := by
  rcases (by simpa [isQuote] using h : c = '"' ∨ c = '\'') with rfl | rfl <;> rfl

theorem ofQuote_of_not_mem {quote : Char} {cs : List Char} (missing : quote ∉ cs) :
    ofQuote quote cs = .unclosed := by
  have whole : cs.takeWhile (· ≠ quote) = cs :=
    List.takeWhile_eq_self_iff.mpr fun c mem =>
      decide_eq_true fun same : c = quote => missing (same ▸ mem)
  simp only [ofQuote, whole, Nat.lt_irrefl, if_false]

theorem ofChars_of_fits {p : Piece} {c : Char} {cs rest : List Char} (split : p.chars = c :: cs)
    (fits : p.Fits rest) : ofChars c (cs ++ rest) = p.front := by
  cases p with
  | newline =>
    obtain ⟨rfl, rfl⟩ : '\n' = c ∧ [] = cs := by simpa [Piece.chars] using split
    rfl
  | blank d =>
    obtain ⟨rfl, rfl⟩ : d = c ∧ [] = cs := by simpa [Piece.chars] using split
    simp [ofChars, fits.1, fits.2, Piece.front, Piece.lexeme?]
  | digits run =>
    obtain ⟨-, all, stops⟩ := fits
    obtain rfl : run = c :: cs := split
    have digit : c.isDigit = true := all c (by simp)
    have alphanum : c.isAlphanum = true := by simp [Char.isAlphanum, digit]
    have read := takeWhile_run (fun d hd => all d (List.mem_cons_of_mem c hd)) stops
    simp [ofChars, Text.ne_newline_of_isAlphanum alphanum, Text.isBlank_of_isAlphanum alphanum,
      digit, ofDigits, read, Piece.front, Piece.lexeme?, Piece.chars]
  | word run =>
    obtain ⟨first, all, stops⟩ := fits
    obtain rfl : run = c :: cs := split
    have alpha : c.isAlpha = true := by simpa using first
    have alphanum : c.isAlphanum = true := all c (by simp)
    have read := takeWhile_run (fun d hd => all d (List.mem_cons_of_mem c hd)) stops
    simp [ofChars, Text.ne_newline_of_isAlphanum alphanum, Text.isBlank_of_isAlphanum alphanum,
      Text.isDigit_of_isAlpha alpha, alpha, ofLetters, read, Piece.front, Piece.lexeme?,
      Piece.chars]
  | quoted quote text =>
    obtain ⟨opens, inside⟩ := fits
    obtain ⟨rfl, rfl⟩ : quote = c ∧ text ++ [quote] = cs := by
      simpa [Piece.chars] using split
    have read : (text ++ quote :: rest).takeWhile (· ≠ quote) = text :=
      takeWhile_run (fun d hd => by simpa using fun same : d = quote => inside (same ▸ hd))
        (by simp)
    simp only [List.append_assoc, List.singleton_append, ofChars_of_isQuote opens, ofQuote, read]
    simp [Piece.front, Piece.lexeme?, Piece.chars]
  | bracket b =>
    obtain ⟨rfl, rfl⟩ : b.char = c ∧ [] = cs := by simpa [Piece.chars] using split
    cases b <;> rfl
  | operator op =>
    have symbol : ofChars c (cs ++ rest) = ofSymbol c (cs ++ rest) := by
      cases op <;> simp [Piece.chars, Operator.chars] at split <;> obtain ⟨rfl, -⟩ := split <;> rfl
    have noBracket : Bracket.ofChar? c = none := by
      cases op <;> simp [Piece.chars, Operator.chars] at split <;> obtain ⟨rfl, -⟩ := split <;> rfl
    rw [symbol, ofSymbol, noBracket, Operator.front?_of_fits split fits]
    simp [Piece.front, Piece.lexeme?, split]

theorem starts_of_isDigit {c : Char} (digit : c.isDigit = true) (cs : List Char) :
    Piece.Starts (c :: cs) := by
  refine ⟨.digits ((c :: cs).takeWhile Char.isDigit), (c :: cs).dropWhile Char.isDigit,
    List.takeWhile_append_dropWhile.symm, by simp [digit], ?_, dropWhile_stops _ _⟩
  exact fun d mem => List.mem_takeWhile_imp mem

theorem starts_of_isAlpha {c : Char} (alpha : c.isAlpha = true) (cs : List Char) :
    Piece.Starts (c :: cs) := by
  have alphanum : c.isAlphanum = true := by simp [Char.isAlphanum, alpha]
  refine ⟨.word ((c :: cs).takeWhile Char.isAlphanum), (c :: cs).dropWhile Char.isAlphanum,
    List.takeWhile_append_dropWhile.symm, by simp [alpha, alphanum], ?_, dropWhile_stops _ _⟩
  exact fun d mem => List.mem_takeWhile_imp mem

theorem starts_of_isQuote {quote : Char} (opens : isQuote quote = true) {cs : List Char}
    (closed : quote ∈ cs) : Piece.Starts (quote :: cs) := by
  obtain ⟨text, rest, rfl, inside⟩ := List.eq_append_cons_of_mem closed
  exact ⟨.quoted quote text, rest, by simp [Piece.chars], opens, inside⟩

theorem starts_of_ofSymbol {c : Char} {cs : List Char} (h : ofSymbol c cs ≠ .stray) :
    Piece.Starts (c :: cs) := by
  cases bracket : Bracket.ofChar? c with
  | some b =>
    have char := Bracket.char_of_ofChar? bracket
    exact ⟨.bracket b, cs, by simp [Piece.chars, char], trivial⟩
  | none =>
    cases operator : Operator.front? c cs with
    | some found => exact Operator.starts_of_front? (by rw [operator]; rfl)
    | none => simp [ofSymbol, bracket, operator] at h

/-- Where no piece stands there is a string without its closing quote or a stray character. -/
theorem starts_or (c : Char) (cs : List Char) :
    Piece.Starts (c :: cs) ∨ (isQuote c = true ∧ c ∉ cs) ∨
      (ofChars c cs = .stray ∧ isQuote c = false) := by
  rw [ofChars]
  split
  next newline => exact .inl ⟨.newline, cs, by simp [Piece.chars, newline], trivial⟩
  next newline =>
  split
  next blank => exact .inl ⟨.blank c, cs, rfl, blank, newline⟩
  next =>
  split
  next digit => exact .inl (starts_of_isDigit digit cs)
  next =>
  split
  next alpha => exact .inl (starts_of_isAlpha alpha cs)
  next =>
  split
  next opens =>
    by_cases closed : c ∈ cs
    · exact .inl (starts_of_isQuote opens closed)
    · exact .inr (.inl ⟨opens, closed⟩)
  next opens =>
    by_cases stray : ofSymbol c cs = .stray
    · exact .inr (.inr ⟨stray, by simpa using opens⟩)
    · exact .inl (starts_of_ofSymbol stray)

end Front

namespace Piece

theorem exists_chars_eq_cons {p : Piece} {rest : List Char} (fits : p.Fits rest) :
    ∃ c cs, p.chars = c :: cs := by
  cases p with
  | digits run => exact List.exists_cons_of_ne_nil fits.1
  | word run =>
    obtain ⟨⟨c, first, -⟩, -⟩ := fits
    exact List.exists_cons_of_ne_nil fun empty : run = [] => by simp [empty] at first
  | operator op => cases op <;> exact ⟨_, _, rfl⟩
  | newline | blank | quoted | bracket => exact ⟨_, _, rfl⟩

def ofLexeme? (cs : List Char) : Option Lexeme → Piece
  | none => .blank (cs.headD ' ')
  | some .newline => .newline
  | some (.number _) => .digits cs
  | some (.identifier _) | some (.keyword _) => .word cs
  | some (.string text) => .quoted (cs.headD ' ') text.toList
  | some (.bracket b) => .bracket b
  | some (.operator op) => .operator op

theorem ofLexeme?_lexeme? (p : Piece) : ofLexeme? p.chars p.lexeme? = p := by
  cases p with
  | word run =>
    rw [lexeme?, Lexeme.ofWord]
    cases Keyword.ofText? (String.ofList run) <;> rfl
  | quoted quote text => simp [lexeme?, ofLexeme?, chars]
  | newline | blank | digits | bracket | operator => rfl

theorem exists_eq_blank {p : Piece} (h : p.lexeme? = none) : ∃ c, p = .blank c := by
  cases p with
  | blank c => exact ⟨c, rfl⟩
  | newline | digits | word | quoted | bracket | operator => cases h

theorem length_eq_of_front_eq {p q : Piece} {c d : Char} {cs ds : List Char}
    (hp : p.chars = c :: cs) (hq : q.chars = d :: ds) (h : p.front = q.front) :
    p.lexeme? = q.lexeme? ∧ cs.length = ds.length := by
  cases lp : p.lexeme? with
  | none =>
    cases lq : q.lexeme? with
    | none =>
      obtain ⟨a, rfl⟩ := exists_eq_blank lp
      obtain ⟨b, rfl⟩ := exists_eq_blank lq
      exact ⟨rfl, by rw [← (List.cons.inj hp).2, ← (List.cons.inj hq).2]⟩
    | some m => simp [front, lp, lq] at h
  | some l =>
    cases lq : q.lexeme? with
    | none => simp [front, lp, lq] at h
    | some m => simpa [front, lp, lq, hp, hq] using h

/-- At most one piece stands at the front of a text. -/
theorem eq_of_fits {p q : Piece} {rest rest' : List Char} (hp : p.Fits rest) (hq : q.Fits rest')
    (same : p.chars ++ rest = q.chars ++ rest') : p = q ∧ rest = rest' := by
  obtain ⟨c, ds, hds⟩ := exists_chars_eq_cons hp
  obtain ⟨d, es, hes⟩ := exists_chars_eq_cons hq
  obtain ⟨rfl, tail⟩ : c = d ∧ ds ++ rest = es ++ rest' := by simpa [hds, hes] using same
  have fronts : p.front = q.front := by
    rw [← Front.ofChars_of_fits hds hp, ← Front.ofChars_of_fits hes hq, tail]
  obtain ⟨lexemes, lengths⟩ := length_eq_of_front_eq hds hes fronts
  obtain ⟨rfl, rest⟩ := List.append_inj tail lengths
  refine ⟨?_, rest⟩
  rw [← ofLexeme?_lexeme? p, ← ofLexeme?_lexeme? q, hds, hes, lexemes]

end Piece

end Lispette
