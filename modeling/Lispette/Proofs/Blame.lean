import Lispette.Proofs.Furnishing
import Lispette.Proofs.Places

/-!
What a failure points at. A text is refused at a character, at a token or at its end; an evaluation
fails at a name or an operator of a text that was read, wherever the function was declared in whose
body it happened: the trees at work and the bodies of closures all stand on tokens of such texts.
-/

namespace Lispette

open Grammar

namespace EvalCause

def subject? : EvalCause → Option String
  | .notDefined name | .wrongArity name _ _ => some name
  | .notCallable _ | .wrongKind _ _ | .tooDeep _ | .notANumber _ => none

/-- It is a call that fails, and not the look-up of a name or the reading of a number. -/
def isOfCall : EvalCause → Bool
  | .notCallable _ | .wrongKind _ _ | .wrongArity _ _ _ | .tooDeep _ => true
  | .notDefined _ | .notANumber _ => false

end EvalCause

/-- The failure is at the token, a name or an operator: at the one that its message names, and at
the head of a call if it is the call that fails. -/
structure EvalError.Blames (ts : List Token) (e : EvalError) (t : Token) : Prop where
  member : t ∈ ts
  position : e.position = t.position
  spelled : (∃ name, t.lexeme = .identifier name) ∨ ∃ op, t.lexeme = .operator op
  named (name : String) (subject : e.cause.subject? = some name) : t.lexeme.text = name
  called (ofCall : e.cause.isOfCall = true) :
    ∃ opening : Position, [⟨.bracket .openRound, opening⟩, t] <:+: ts

/-- What stands at the place of the failure. -/
def Failure.Shows (source : String) : Failure → Prop
  | .scan (.unexpectedChar c p) => source.toList[p.offset]? = some c
  | .scan (.unexpectedEnd p) | .parse (.unexpectedEnd p) => p.offset = source.toList.length
  | .parse (.unexpectedToken t) => ∃ tokens, Token.scan source = .ok tokens ∧ t ∈ tokens
  | .eval e => ∃ tokens t, Token.scan source = .ok tokens ∧ e.Blames (Tree.significant tokens) t

/-- The failure is at a place of the text, where the text has what the failure is about. -/
structure Failure.PointsInto (source : String) (e : Failure) : Prop where
  within : e.diagnostic.position.Within source.toList
  shows : e.Shows source

namespace Token

variable {source : String} {tokens : List Token} {t : Token}

theorem pointsInto_of_scanError {e : ScanError} (refused : scan source = .error e) :
    (Failure.scan e).PointsInto source := by
  cases e with
  | unexpectedChar c p =>
    obtain ⟨before, rest, -, split, rfl, -⟩ := scan_eq_unexpectedChar_iff.mp refused
    refine ⟨split ▸ Position.within_after before _, ?_⟩
    show source.toList[before.length]? = some c
    rw [split, List.getElem?_append_right (Nat.le_refl _), Nat.sub_self]
    rfl
  | unexpectedEnd p =>
    obtain ⟨rfl, -⟩ := scan_eq_unexpectedEnd_iff.mp refused
    exact ⟨Position.within_end _, rfl⟩

end Token

theorem Tree.pointsInto_of_ofSource {source : String} {e : Failure}
    (refused : ofSource source = .error e) : e.PointsInto source := by
  rcases ofSource_eq_error refused with ⟨e, rfl, unscanned⟩ | ⟨tokens, e, rfl, scanned, unread⟩
  · exact Token.pointsInto_of_scanError unscanned
  · cases e with
    | unexpectedToken t =>
      have member : t ∈ tokens := Token.mem_of_mem_significant (mem_of_unexpectedToken unread)
      exact ⟨Token.within scanned member, tokens, scanned, member⟩
    | unexpectedEnd p =>
      exact absurd unread (ofTokens_ne_unexpectedEnd (Token.balanced_of_scan scanned) p)

def DeclaresFunction (source : String) : Prop :=
  ∃ tokens, Token.scan source = .ok tokens ∧ ∃ t ∈ tokens, t.lexeme = .keyword .function

/-- Trees stand on the tokens of one of the sources, the bodies of closures on those of one that
declares a function, and failures are blamed on one of those tokens. -/
def Standard.ofSources (P : String → Prop) : Standard where
  admits t := ∃ source tokens, P source ∧ Token.scan source = .ok tokens ∧
    t.StandsOn (Tree.significant tokens)
  approves t := ∃ source tokens, P source ∧ DeclaresFunction source ∧
    Token.scan source = .ok tokens ∧ t.StandsOn (Tree.significant tokens)
  accepts e := ∃ source, P source ∧ (Failure.eval e).Shows source

theorem EvalError.blames_head {ts : List Token} {h : Head} {opening p : Position}
    {cause : EvalCause} (atCall : cause.AtCall h.text)
    (form : [⟨.bracket .openRound, opening⟩, ⟨h.lexeme, p⟩] <:+: ts) :
    (⟨cause, p⟩ : EvalError).Blames ts ⟨h.lexeme, p⟩ where
  member := form.subset (by simp)
  position := rfl
  spelled := by
    cases h with
    | identifier name => exact .inl ⟨name, rfl⟩
    | operator op => exact .inr ⟨op, rfl⟩
  named name subject := by
    have same : h.lexeme.text = h.text := by cases h <;> rfl
    cases cause with
    | notDefined | wrongArity =>
      cases subject
      rw [same]
      exact atCall.symm
    | notCallable | wrongKind | tooDeep | notANumber => cases subject
  called _ := ⟨opening, form⟩

theorem Standard.ofSources_upheld (P : String → Prop) : (ofSources P).Upheld where
  approved h := by
    obtain ⟨source, tokens, allowed, -, scanned, stands⟩ := h
    exact ⟨source, tokens, allowed, scanned, stands⟩
  statement h member := by
    obtain ⟨source, tokens, allowed, scanned, stands⟩ := h
    exact ⟨source, tokens, allowed, scanned, Tree.allStandOn_iff.mp stands _ member⟩
  value h := by
    obtain ⟨source, tokens, allowed, scanned, -, stands⟩ := h
    exact ⟨source, tokens, allowed, scanned, stands⟩
  declared h := by
    obtain ⟨source, tokens, allowed, scanned, ⟨opening, keyword, form⟩, stands⟩ := h
    have member : ⟨.keyword .function, keyword⟩ ∈ Tree.significant tokens := form.subset (by simp)
    exact ⟨source, tokens, allowed,
      ⟨tokens, scanned, _, Token.mem_of_mem_significant member, rfl⟩, scanned, stands⟩
  argument h member := by
    obtain ⟨source, tokens, allowed, scanned, -, stand⟩ := h
    exact ⟨source, tokens, allowed, scanned, Tree.allStandOn_iff.mp stand _ member⟩
  unread h none := by
    obtain ⟨source, tokens, -, scanned, stands⟩ := h
    obtain ⟨filled, digits⟩ :=
      Token.wellFormed_of_scan scanned _ (Token.mem_of_mem_significant stands)
    have read := readNumber?_of_digits filled digits
    simp [none] at read
  unbound h := by
    obtain ⟨source, tokens, allowed, scanned, stands⟩ := h
    refine ⟨source, allowed, tokens, _, scanned, stands, rfl, .inl ⟨_, rfl⟩, ?_, ?_⟩
    · intro name subject
      cases subject
      rfl
    · intro ofCall
      cases ofCall
  called h atCall := by
    obtain ⟨source, tokens, allowed, scanned, ⟨opening, head, rfl, form⟩, -⟩ := h
    exact ⟨source, allowed, tokens, _, scanned, EvalError.blames_head atCall form⟩

theorem Standard.admits_of_ofSource {P : String → Prop} {source : String} (allowed : P source)
    {t : Tree} (said : Tree.ofSource source = .ok t) : (ofSources P).admits t := by
  obtain ⟨tokens, scanned, parsed⟩ := Tree.ofSource_eq_ok_iff.mp said
  exact ⟨source, tokens, allowed, scanned, Tree.standsOn_of_ofTokens parsed⟩

theorem EvalError.pointsInto_of_shows {source : String} {e : EvalError}
    (shows : (Failure.eval e).Shows source) : (Failure.eval e).PointsInto source := by
  refine ⟨?_, shows⟩
  obtain ⟨tokens, t, scanned, blames⟩ := shows
  show e.position.Within source.toList
  rw [blames.position]
  exact Token.within scanned (Token.mem_of_mem_significant blames.member)

/-- A source that is read fails at a place of one of the sources there were so far; one that is not
read fails at a place of its own. -/
theorem evaluate_pointsInto {P : String → Prop} {source : String} {scope : Scope} {meter : Nat}
    {s t : Store} {e : Failure} (allowed : P source)
    (store : s.Meets (.ofSources P)) (has : s.HasScope scope)
    (failed : evaluate meter scope source s = .error e t) :
    e.PointsInto source ∨
      ∃ inner source', e = .eval inner ∧ P source' ∧ e.PointsInto source' := by
  cases said : Tree.ofSource source with
  | error e' =>
    obtain ⟨s', -, run⟩ := evaluate_of_failure said meter scope s
    rw [failed] at run
    cases run
    exact .inl (Tree.pointsInto_of_ofSource said)
  | ok tree =>
    have ends := meets_evaluate (Standard.ofSources_upheld P) meter
      (fun t said => Standard.admits_of_ofSource allowed said) store has
    obtain ⟨-, inner, -, rfl, -⟩ := eval_of_evaluate_error said failed
    rw [failed] at ends
    obtain ⟨source', allowed', shows⟩ := ends.2.2 inner rfl
    exact .inr ⟨inner, source', rfl, allowed', EvalError.pointsInto_of_shows shows⟩

namespace Session

variable {source : String} {limit : Nat} {e : Failure} {s : Session}

/-- A program that fails in a session of its own fails at a place of its text: at the character or
the token that it is refused for, at its end, or at a name or an operator, which is the one the
message names, and the head of a call if it is the call that fails. -/
theorem evaluate_blames
    (failed : (start limit).step (.evaluate rootName mainName source) = some (.failure e, s)) :
    e.PointsInto source := by
  obtain ⟨meets, has⟩ := meets_start (.ofSources (· = source)) limit
  rw [start_eq, step_single] at failed
  cases run : evaluate 0 startScope source (startStore limit) with
  | ok v t => simp [run] at failed
  | error e' t =>
    obtain ⟨rfl, -⟩ : e' = e ∧ _ := by simpa [run] using failed
    rcases evaluate_pointsInto (P := (· = source)) rfl meets has run with
      points | ⟨_, _, -, rfl, points⟩
    · exact points
    · exact points

end Session

def Answer.failure? : Answer → Option Failure
  | .failure e => some e
  | _ => none

namespace Session

theorem exists_of_failure? {s : Session} {x : Step} {e : Failure}
    (failed : (s.step x).bind (·.1.failure?) = some e) :
    ∃ s', s.step x = some (.failure e, s') := by
  obtain ⟨⟨answer, s'⟩, taken, failure⟩ := Option.bind_eq_some_iff.mp failed
  cases answer with
  | failure e' =>
    cases failure
    exact ⟨s', taken⟩
  | _ => cases failure

/-- The name in the body of a function, blamed when the function is called on the next line. -/
theorem evaluate_blames_body :
    ∃ s, (start 1).step (.evaluate rootName mainName "(fn f [] x)\n(f)") =
        some (.failure (.eval ⟨.notDefined "x", ⟨9, 9, 0⟩⟩), s) ∧
      (Failure.eval ⟨.notDefined "x", ⟨9, 9, 0⟩⟩).PointsInto "(fn f [] x)\n(f)" := by
  obtain ⟨s, failed⟩ := exists_of_failure? (s := start 1)
    (x := .evaluate rootName mainName "(fn f [] x)\n(f)")
    (e := .eval ⟨.notDefined "x", ⟨9, 9, 0⟩⟩) (by decide +kernel)
  exact ⟨s, failed, evaluate_blames failed⟩

end Session

end Lispette
