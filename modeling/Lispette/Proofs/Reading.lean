import Lispette.Proofs.Course

/-!
Reading a source, apart from running it. A source is a tree or a failure whatever the store, and
reading it changes nothing but the journal; a source that is a tree is evaluated as that tree is.
-/

namespace Lispette

/-- The tree that a source says, or the reason why it says none. -/
def Tree.ofSource (source : String) : Except Failure Tree := do
  let tokens ← (Token.scan source).mapError .scan
  (ofTokens tokens).mapError .parse

/-- The second store differs in its journal alone. -/
structure Store.Noted (s t : Store) : Prop where
  frames : t.frames = s.frames
  meters : t.meters = s.meters
  functionCount : t.functionCount = s.functionCount
  printed : t.printed = s.printed

namespace Store.Noted

variable {s t u : Store}

theorem refl (s : Store) : s.Noted s :=
  ⟨rfl, rfl, rfl, rfl⟩

theorem record (s : Store) (e : Entry) : s.Noted (s.record e) :=
  ⟨rfl, rfl, rfl, rfl⟩

theorem symm (noted : s.Noted t) : t.Noted s :=
  ⟨noted.frames.symm, noted.meters.symm, noted.functionCount.symm, noted.printed.symm⟩

theorem trans (first : s.Noted t) (second : t.Noted u) : s.Noted u :=
  ⟨second.frames.trans first.frames, second.meters.trans first.meters,
    second.functionCount.trans first.functionCount, second.printed.trans first.printed⟩

end Store.Noted

variable {source : String} {tokens : List Token} {t : Tree} {s : Store}

namespace Tree

theorem ofSource_of_scan (scanned : Token.scan source = .ok tokens) :
    ofSource source = (ofTokens tokens).mapError .parse := by
  rw [ofSource, scanned]
  rfl

theorem ofSource_of_read (scanned : Token.scan source = .ok tokens)
    (read : ofTokens tokens = .ok t) : ofSource source = .ok t := by
  rw [ofSource_of_scan scanned, read]
  rfl

theorem ofSource_of_refused {e : ParseError} (scanned : Token.scan source = .ok tokens)
    (refused : ofTokens tokens = .error e) : ofSource source = .error (.parse e) := by
  rw [ofSource_of_scan scanned, refused]
  rfl

theorem ofSource_eq_ok_iff : ofSource source = .ok t ↔
    ∃ tokens, Token.scan source = .ok tokens ∧ ofTokens tokens = .ok t := by
  cases scanned : Token.scan source with
  | error e =>
    have refused : ofSource source = .error (.scan e) := by
      rw [ofSource, scanned]
      rfl
    simp [refused]
  | ok tokens =>
    simp only [ofSource_of_scan scanned, Except.ok.injEq, exists_eq_left']
    cases ofTokens tokens with
    | ok t' =>
      show Except.ok t' = Except.ok t ↔ _
      simp
    | error e =>
      show Except.error (Failure.parse e) = Except.ok t ↔ _
      simp

theorem ofSource_eq_error {e : Failure} (failed : ofSource source = .error e) :
    (∃ e', e = .scan e' ∧ Token.scan source = .error e') ∨
      ∃ tokens e', e = .parse e' ∧ Token.scan source = .ok tokens ∧
        ofTokens tokens = .error e' := by
  cases scanned : Token.scan source with
  | error e' =>
    rw [ofSource, scanned] at failed
    cases failed
    exact .inl ⟨e', rfl, rfl⟩
  | ok tokens =>
    rw [ofSource_of_scan scanned] at failed
    cases parsed : ofTokens tokens with
    | ok t =>
      rw [parsed] at failed
      cases failed
    | error e' =>
      rw [parsed] at failed
      cases failed
      exact .inr ⟨tokens, e', rfl, rfl, parsed⟩

end Tree

/-- What is read is what the source says, and a note of it. -/
theorem readSource_run (source : String) (s : Store) : ∃ s', s.Noted s' ∧
    readSource source s = match Tree.ofSource source with
      | .ok t => .ok t s'
      | .error e => .error e s' := by
  have tokens : readTokens source s = match Token.scan source with
      | .ok tokens => .ok tokens ((s.record (.scanning source)).record (.scanned tokens.length))
      | .error e => .error e (s.record (.scanning source)) := by
    show (Action.ofExcept (Token.scan source) >>= fun tokens =>
      (do Action.record (.scanned tokens.length); return tokens) : Action ScanError (List Token))
        (s.record (.scanning source)) = _
    cases Token.scan source <;> rfl
  cases scanned : Token.scan source with
  | error e =>
    rw [scanned] at tokens
    refine ⟨s.record (.scanning source), ⟨rfl, rfl, rfl, rfl⟩, ?_⟩
    rw [Tree.ofSource, scanned]
    exact Action.bind_of_error (Action.mapError_of_error _ tokens)
  | ok ts =>
    rw [scanned] at tokens
    have read : readSource source s = Action.mapError .parse (readTree ts) _ :=
      Action.bind_of_ok (Action.mapError_of_ok _ tokens)
    refine ⟨((s.record (.scanning source)).record (.scanned ts.length)).record
      (.parsing (Tree.significant ts).length), ⟨rfl, rfl, rfl, rfl⟩, ?_⟩
    rw [Tree.ofSource_of_scan scanned, read]
    cases parsed : Tree.ofTokens ts with
    | ok t =>
      refine Action.mapError_of_ok _ ?_
      show Action.ofExcept (Tree.ofTokens ts) _ = _
      rw [parsed]
      rfl
    | error e =>
      refine Action.mapError_of_error _ ?_
      show Action.ofExcept (Tree.ofTokens ts) _ = _
      rw [parsed]
      rfl

theorem evaluate_of_tree (said : Tree.ofSource source = .ok t) (meter : Nat) (scope : Scope)
    (s : Store) : ∃ s', s.Noted s' ∧
      evaluate meter scope source s = Action.mapError .eval (t.eval meter scope) s' := by
  obtain ⟨s', noted, read⟩ := readSource_run source s
  rw [said] at read
  exact ⟨s', noted, Action.bind_of_ok read⟩

theorem evaluate_of_failure {e : Failure} (said : Tree.ofSource source = .error e) (meter : Nat)
    (scope : Scope) (s : Store) : ∃ s', s.Noted s' ∧
      evaluate meter scope source s = .error e s' := by
  obtain ⟨s', noted, read⟩ := readSource_run source s
  rw [said] at read
  exact ⟨s', noted, Action.bind_of_error read⟩

theorem eval_of_evaluate_ok (said : Tree.ofSource source = .ok t) {meter : Nat} {scope : Scope}
    {v : Value} {s' : Store} (run : evaluate meter scope source s = .ok v s') :
    ∃ s₀, s.Noted s₀ ∧ t.eval meter scope s₀ = .ok v s' := by
  obtain ⟨s₀, noted, out⟩ := evaluate_of_tree said meter scope s
  rw [run] at out
  refine ⟨s₀, noted, ?_⟩
  cases alone : t.eval meter scope s₀ with
  | ok w s₁ =>
    rw [Action.mapError_of_ok _ alone] at out
    cases out
    rfl
  | error e s₁ =>
    rw [Action.mapError_of_error _ alone] at out
    cases out

/-- A source that is a tree can only fail where it is evaluated. -/
theorem eval_of_evaluate_error (said : Tree.ofSource source = .ok t) {meter : Nat} {scope : Scope}
    {e : Failure} {s' : Store} (failed : evaluate meter scope source s = .error e s') :
    ∃ s₀ inner, s.Noted s₀ ∧ e = .eval inner ∧ t.eval meter scope s₀ = .error inner s' := by
  obtain ⟨s₀, noted, out⟩ := evaluate_of_tree said meter scope s
  rw [failed] at out
  cases alone : t.eval meter scope s₀ with
  | ok v s₁ =>
    rw [Action.mapError_of_ok _ alone] at out
    cases out
  | error inner s₁ =>
    rw [Action.mapError_of_error _ alone] at out
    cases out
    exact ⟨s₀, inner, noted, rfl, alone⟩

end Lispette
