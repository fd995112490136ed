import Lispette.Proofs.Blame
import Lispette.Proofs.Mirroring
import Lispette.Proofs.Relocation

/-!
Layout has no meaning. Two sources with the same lexemes, line breaks apart, differ in the places of
their tokens alone; so the one is read as the tree of the other, moved, and both run alike, as far
as the place of a failure.
-/

namespace Lispette

open List (Forall₂)

/-- Lists of tokens with the same lexemes differ by a move, if no two tokens of the first stand at
one place. -/
theorem Token.exists_relocate {ts us : List Token} (same : us.map lexeme = ts.map lexeme)
    (apart : ts.Pairwise fun t u => t.position ≠ u.position) :
    ∃ f, us = ts.map (relocate f) ∧ (ts = [] → f {} = {}) := by
  induction ts generalizing us with
  | nil => exact ⟨id, List.map_eq_nil_iff.mp same, fun _ => rfl⟩
  | cons t ts ih =>
    obtain ⟨u, us, rfl, first, rest⟩ := List.map_eq_cons_iff.mp same
    obtain ⟨here, further⟩ := List.pairwise_cons.mp apart
    obtain ⟨f, rfl, -⟩ := ih rest further
    refine ⟨Function.update f t.position u.position, ?_, fun empty => nomatch empty⟩
    have moved : t.relocate (Function.update f t.position u.position) = u := by
      rw [relocate, Function.update_self, ← first]
    have others : ts.map (relocate (Function.update f t.position u.position)) =
        ts.map (relocate f) := by
      refine List.map_congr_left fun v member => ?_
      rw [relocate, relocate, Function.update_of_ne (here v member).symm]
    rw [List.map_cons, moved, others]

theorem Tree.forall₂_relocateAll (f : Position → Position) (ts : List Tree) :
    Forall₂ (fun t u => u = t.relocate f) ts (relocateAll f ts) := by
  rw [relocateAll_eq_map, List.forall₂_map_right_iff]
  exact List.forall₂_same.mpr fun _ _ => rfl

/-- Nothing has another number, but trees and failures are moved. -/
def Mirror.relocated (f : Position → Position) : Mirror where
  frame := id
  function := id
  meter := id
  trees t u := u = t.relocate f
  failures e e' := e' = ⟨e.cause, f e.position⟩
  frame_injective := Function.injective_id
  function_injective := Function.injective_id
  meter_injective := Function.injective_id
  program h := ⟨_, _, h, Tree.forall₂_relocateAll f _⟩
  number h := ⟨_, h, rfl⟩
  string h := ⟨_, h⟩
  identifier h := ⟨_, h, rfl⟩
  define h := ⟨_, _, h, rfl⟩
  declare h := ⟨_, _, h, rfl⟩
  call h := ⟨_, _, h, Tree.forall₂_relocateAll f _, fun _ => rfl⟩

def Failure.relocate (f : Position → Position) : Failure → Failure
  | .scan e => .scan e
  | .parse e => .parse (e.relocate f)
  | .eval e => .eval ⟨e.cause, f e.position⟩

/-- The same kind of failure with the same message, at the tokens that come at the same place in
their lists. -/
structure Failure.Corresponds (ts us : List Token) (e e' : Failure) : Prop where
  title : e'.diagnostic.title = e.diagnostic.title
  message : e'.diagnostic.message = e.diagnostic.message
  token : ∃ (i : Nat) (t u : Token), ts[i]? = some t ∧ us[i]? = some u ∧
    e.diagnostic.position = t.position ∧ e'.diagnostic.position = u.position

/-- The failure is at a token; a text that has tokens is not refused by the scanner. -/
structure Failure.AtToken (ts : List Token) (e : Failure) : Prop where
  scanned (e' : ScanError) : e ≠ .scan e'
  token : ∃ t ∈ ts, e.diagnostic.position = t.position

theorem Failure.AtToken.corresponds {ts : List Token} {e : Failure} (at_ : e.AtToken ts)
    (f : Position → Position) : e.Corresponds ts (ts.map (Token.relocate f)) (e.relocate f) := by
  have moved : (e.relocate f).diagnostic =
      { e.diagnostic with position := f e.diagnostic.position } := by
    cases e with
    | scan e => exact absurd rfl (at_.scanned e)
    | parse e => cases e <;> rfl
    | eval e => rfl
  obtain ⟨t, member, position⟩ := at_.token
  obtain ⟨i, here⟩ := List.mem_iff_getElem?.mp member
  refine ⟨by rw [moved], by rw [moved], i, t, t.relocate f, here, ?_, position, ?_⟩
  · rw [List.getElem?_map, here]
    rfl
  · rw [moved]
    exact congrArg f position

section

variable {source source' : String} {ts us : List Token} {f : Position → Position} {s t : Store}
  {scope : Scope} {before before' : List (List Value)}

theorem evaluate_atToken {meter : Nat} {e : Failure} (scanned : Token.scan source = .ok ts)
    (store : s.Meets (.ofSources (· = source))) (has : s.HasScope scope)
    (failed : evaluate meter scope source s = .error e t) : e.AtToken (Tree.significant ts) := by
  cases parsed : Tree.ofTokens ts with
  | error e' =>
    have said : Tree.ofSource source = .error (.parse e') := Tree.ofSource_of_refused scanned parsed
    obtain ⟨s', -, run⟩ := evaluate_of_failure said meter scope s
    rw [failed] at run
    cases run
    cases e' with
    | unexpectedToken t =>
      exact ⟨fun _ same => (nomatch same), t, Tree.mem_of_unexpectedToken parsed, rfl⟩
    | unexpectedEnd p =>
      exact absurd parsed (Grammar.ofTokens_ne_unexpectedEnd (Token.balanced_of_scan scanned) p)
  | ok tree =>
    have said : Tree.ofSource source = .ok tree := Tree.ofSource_of_read scanned parsed
    obtain ⟨-, inner, -, rfl, -⟩ := eval_of_evaluate_error said failed
    have shows : (Failure.eval inner).Shows source := by
      rcases evaluate_pointsInto (P := (· = source)) rfl store has failed with
        points | ⟨_, _, -, rfl, points⟩ <;> exact points.shows
    obtain ⟨tokens, t, scanned', blames⟩ := shows
    rw [scanned] at scanned'
    cases scanned'
    exact ⟨fun _ same => (nomatch same), t, blames.member, blames.position⟩

theorem Mirror.scope_relocated (scope : Scope) : (relocated f).scope scope = scope :=
  congrArg (Scope.mk scope.inner) (List.map_id scope.outer)

/-- Sources whose tokens are moved run alike, up to the move. -/
theorem evaluate_relocated (scanned : Token.scan source = .ok ts)
    (scanned' : Token.scan source' = .ok us)
    (moved : Tree.significant us = (Tree.significant ts).map (Token.relocate f))
    (fixed : Tree.significant ts = [] → f {} = {}) (scope : Scope) (meter : Nat)
    (stores : s.Mirrors (.relocated f) before before' t) :
    (Mirror.relocated f).Outcomes before before' (fun e e' => e' = e.relocate f)
      (evaluate meter scope source s) (evaluate meter scope source' t) := by
  have parsed := Tree.ofTokens_relocate f moved fixed
  cases first : Tree.ofTokens ts with
  | ok tree =>
    rw [first] at parsed
    have outcomes : (Mirror.relocated f).Outcomes before before'
        (fun e e' => e' = Failure.relocate f e) _ _ :=
      mirrors_evaluate (Tree.ofSource_of_read scanned first) (Tree.ofSource_of_read scanned' parsed)
        rfl (fun _ _ => congrArg Failure.eval) scope meter stores
    rwa [Mirror.scope_relocated] at outcomes
  | error e =>
    rw [first] at parsed
    exact mirrors_evaluate_refused (Tree.ofSource_of_refused scanned first)
      (Tree.ofSource_of_refused scanned' parsed) rfl _ _ _ _ stores

theorem Store.Mirrors.printed_seen {μ : Mirror} (mirrors : s.Mirrors μ [] [] t) :
    t.printed.toList.map (·.map Value.seen) = s.printed.toList.map (·.map Value.seen) := by
  obtain ⟨new, new', first, second, same⟩ := mirrors.printed
  rw [first, second]
  exact Mirror.values_seen same

/-- A session mirrors itself with any move of its trees: it holds no tree yet. -/
theorem mirrors_startStore (f : Position → Position) (limit : Nat) :
    (Session.startStore limit).Mirrors (.relocated f) [] [] (Session.startStore limit) := by
  have alone : (Store.newMeter {} limit).2.Mirrors (.relocated f) [] []
      (Store.newMeter {} limit).2 := by
    refine ⟨fun id => ?_, fun _ => rfl, fun _ => rfl, fun _ => rfl, [], [], rfl, rfl, .nil⟩
    show Forall₂ _ _ ((Store.newMeter {} limit).2.frame id)
    rw [Store.frame_newMeter, Store.frame_of_le (Nat.zero_le id)]
    exact .nil
  exact alone.newPrelude.2

end

namespace Session

variable {source source' : String} {ts us : List Token}

/-- Sources with the same lexemes, line breaks apart, have answers that are seen to be the same
after the same calls of `print`: a value, or one failure at the same of their tokens. -/
theorem evaluate_layout (scanned : Token.scan source = .ok ts)
    (scanned' : Token.scan source' = .ok us)
    (same : (Tree.significant us).map Token.lexeme = (Tree.significant ts).map Token.lexeme)
    (limit : Nat) : ∃ a b s t,
    (start limit).step (.evaluate rootName mainName source) = some (a, s) ∧
    (start limit).step (.evaluate rootName mainName source') = some (b, t) ∧
    t.store.printed.toList.map (·.map Value.seen) =
      s.store.printed.toList.map (·.map Value.seen) ∧
    ((∃ v w, a = .value v ∧ b = .value w ∧ w.seen = v.seen) ∨
      ∃ e e', a = .failure e ∧ b = .failure e' ∧
        e.Corresponds (Tree.significant ts) (Tree.significant us) e') := by
  have apart : (Tree.significant ts).Pairwise fun t u => t.position ≠ u.position :=
    ((Token.pairwise_of_scan scanned).filter _).imp fun less same => by
      rw [same] at less
      exact Nat.lt_irrefl _ less
  obtain ⟨f, moved, fixed⟩ := Token.exists_relocate same apart
  have outcomes := evaluate_relocated scanned scanned' moved fixed startScope 0
    (mirrors_startStore f limit)
  obtain ⟨meets, has⟩ := meets_start (.ofSources (· = source)) limit
  have atToken (e : Failure) (s : Store)
      (failed : evaluate 0 startScope source (startStore limit) = .error e s) :
      e.AtToken (Tree.significant ts) := evaluate_atToken scanned meets has failed
  rw [start_eq, step_single, step_single, moved]
  generalize evaluate 0 startScope source (startStore limit) = r,
    evaluate 0 startScope source' (startStore limit) = r' at outcomes atToken
  cases outcomes with
  | @ok v w s t values stores =>
    exact ⟨_, _, single s startScope, single t startScope, rfl, rfl, stores.printed_seen,
      .inl ⟨v, w, rfl, rfl, values.seen⟩⟩
  | @error e _ s t failed stores =>
    subst failed
    exact ⟨_, _, single s startScope, single t startScope, rfl, rfl, stores.printed_seen,
      .inr ⟨e, _, rfl, rfl, (atToken e s rfl).corresponds f⟩⟩

/-- One call on one line, and on two lines with the other quotes. -/
theorem evaluate_layout_broken : ∃ ts us, Token.scan "(f 'a')" = .ok ts ∧
    Token.scan "(f\n\"a\")" = .ok us ∧
    (Tree.significant us).map Token.lexeme = (Tree.significant ts).map Token.lexeme ∧
    ∃ a b s t, (start 0).step (.evaluate rootName mainName "(f 'a')") = some (a, s) ∧
      (start 0).step (.evaluate rootName mainName "(f\n\"a\")") = some (b, t) ∧
      t.store.printed.toList.map (·.map Value.seen) =
        s.store.printed.toList.map (·.map Value.seen) ∧
      ((∃ v w, a = .value v ∧ b = .value w ∧ w.seen = v.seen) ∨
        ∃ e e', a = .failure e ∧ b = .failure e' ∧
          e.Corresponds (Tree.significant ts) (Tree.significant us) e') := by
  have scanned : Token.scan "(f 'a')" = .ok [⟨.bracket .openRound, ⟨0, 0, 0⟩⟩,
      ⟨.identifier "f", ⟨1, 1, 0⟩⟩, ⟨.string "a", ⟨3, 3, 0⟩⟩,
      ⟨.bracket .closeRound, ⟨6, 6, 0⟩⟩] := by
    decide +kernel
  have scanned' : Token.scan "(f\n\"a\")" = .ok [⟨.bracket .openRound, ⟨0, 0, 0⟩⟩,
      ⟨.identifier "f", ⟨1, 1, 0⟩⟩, ⟨.newline, ⟨2, 2, 0⟩⟩, ⟨.string "a", ⟨3, 0, 1⟩⟩,
      ⟨.bracket .closeRound, ⟨6, 3, 1⟩⟩] := by
    decide +kernel
  exact ⟨_, _, scanned, scanned', rfl, evaluate_layout scanned scanned' rfl 0⟩

end Session

end Lispette
