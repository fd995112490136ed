import Lispette.Proofs.Metering
import Lispette.Proofs.Moves
import Lispette.Proofs.Seams

/-!
Running a text whole or in pieces. The statements of two programs, one after the other, go as the
first program goes, and then, if it has not failed, as the second; so a text whose front is a
program of its own can be run in two pieces.
-/

namespace Lispette

open Moment

namespace Moment

/-- The statements that follow a value. -/
def following (last : Value) (rest : List Tree) (scope : Scope) (meter : Nat) (s : Store) :
    Moment :=
  ⟨.result (.ok last), [.statements rest scope meter], s⟩

/-- Further statements go on after a value, and are dropped after a failure. -/
def goingOn (rest : List Tree) (scope : Scope) (meter : Nat) :
    EStateM.Result EvalError Store Value → Moment
  | .ok v s => following v rest scope meter s
  | .error e s => ended (.error e s)

theorem leads_following (body rest : List Tree) (scope : Scope) (meter : Nat) (last : Value)
    (s : Store) : ∃ r, Leads (following last body scope meter s) (ended r) ∧
      Leads (following last (body ++ rest) scope meter s) (goingOn rest scope meter r) := by
  induction body generalizing last s with
  | nil => exact ⟨.ok last s, .single (.lastStatement ..), .refl⟩
  | cons t body ih =>
    have short := t.leads_delivered scope meter [.statements body scope meter] s
    have long := t.leads_delivered scope meter [.statements (body ++ rest) scope meter] s
    cases run : t.eval meter scope s with
    | ok v s' =>
      rw [run] at short long
      obtain ⟨r, short', long'⟩ := ih v s'
      exact ⟨r, Next.leads (.nextStatement ..) (short.trans short'),
        Next.leads (.nextStatement ..) (long.trans long')⟩
    | error e s' =>
      rw [run] at short long
      exact ⟨.error e s', Next.leads (.nextStatement ..) (short.next (.failed _ _ _ _ rfl)),
        Next.leads (.nextStatement ..) (long.next (.failed _ _ _ _ rfl))⟩

end Moment

/-- The same outcome, with stores that differ in their journals alone. -/
inductive Store.SameOutcome {ε : Type} :
    EStateM.Result ε Store Value → EStateM.Result ε Store Value → Prop
  | ok {v : Value} {s t : Store} (noted : s.Noted t) : SameOutcome (.ok v s) (.ok v t)
  | error {e : ε} {s t : Store} (noted : s.Noted t) : SameOutcome (.error e s) (.error e t)

namespace Store.SameOutcome

variable {ε δ : Type} {r : EStateM.Result ε Store Value} {s t : Store} {v : Value} {e : ε}

theorem exists_ok (same : SameOutcome (.ok v s) r) : ∃ t, s.Noted t ∧ r = .ok v t := by
  cases same with
  | ok noted => exact ⟨_, noted, rfl⟩

theorem exists_error (same : SameOutcome (.error e s) r) : ∃ t, s.Noted t ∧ r = .error e t := by
  cases same with
  | error noted => exact ⟨_, noted, rfl⟩

theorem mapError {x y : Action ε Value} (same : SameOutcome (x s) (y t)) (f : ε → δ) :
    SameOutcome (Action.mapError f x s) (Action.mapError f y t) := by
  generalize run : x s = r, run' : y t = r' at same
  cases same with
  | ok noted =>
    rw [Action.mapError_of_ok f run, Action.mapError_of_ok f run']
    exact .ok noted
  | error noted =>
    rw [Action.mapError_of_error f run, Action.mapError_of_error f run']
    exact .error noted

end Store.SameOutcome

theorem Mirror.Outcomes.same {r r' : EStateM.Result EvalError Store Value}
    (outcomes : Mirror.unmoved.Outcomes [] [] Mirror.unmoved.failures r r')
    (meters : (ended r').store.meters = (ended r).store.meters) : Store.SameOutcome r r' := by
  cases outcomes with
  | ok values stores =>
    obtain rfl := values.eq
    exact .ok (stores.noted meters)
  | error failures stores =>
    obtain rfl := Mirror.eq_of_failures failures
    exact .error (stores.noted meters)

/-- From moments at which no call is active and which differ in their journals alone, the outcomes
do so. -/
theorem Moment.Leads.same {m n : Moment} {r r' : EStateM.Result EvalError Store Value}
    (leads : Leads m (ended r)) (leads' : Leads n (ended r'))
    (mirrors : m.Mirrors Mirror.unmoved [] [] n) (meters : n.store.meters = m.store.meters)
    (idle : m.active = []) (idle' : n.active = []) : Store.SameOutcome r r' := by
  obtain ⟨r'', leads'', outcomes⟩ := leads.outcomes mirrors
  obtain rfl := leads'.ended_unique leads''
  refine outcomes.same ?_
  rw [((counted_of_active idle').leads leads').meters_ended,
    ((counted_of_active idle).leads leads).meters_ended, meters]

variable {s t u : Store} {scope : Scope} {meter : Nat}

/-- The same is worked on, and the same waits. -/
theorem Store.Noted.moment (noted : s.Noted t) (focus : Focus) (k : List Pending)
    (focuses : focus.Mirrors Mirror.unmoved focus)
    (waiting : List.Forall₂ (Pending.Mirrors Mirror.unmoved) k k) :
    Moment.Mirrors Mirror.unmoved [] [] ⟨focus, k, s⟩ ⟨focus, k, t⟩ :=
  ⟨focuses, waiting, noted.moved ⟨rfl, rfl⟩⟩

theorem Mirror.unmoved_tree (t : Tree) (scope : Scope) (meter : Nat) :
    (Focus.tree t scope meter).Mirrors Mirror.unmoved (.tree t scope meter) := by
  have same : (Focus.tree t scope meter).Mirrors Mirror.unmoved
    (.tree t (Mirror.unmoved.scope scope) meter) := .tree (t.moved_self ⟨rfl, rfl⟩)
  rwa [Mirror.scope_moved] at same

theorem Mirror.unmoved_statements (rest : List Tree) (scope : Scope) (meter : Nat) :
    (Pending.statements rest scope meter).Mirrors Mirror.unmoved
      (.statements rest scope meter) := by
  have same : (Pending.statements rest scope meter).Mirrors Mirror.unmoved
    (.statements rest (Mirror.unmoved.scope scope) meter) :=
    .statements (List.forall₂_same.mpr fun t _ => t.moved_self ⟨rfl, rfl⟩)
  rwa [Mirror.scope_moved] at same

namespace Tree

theorem leads_statements (body : List Tree) (p : Position) (scope : Scope) (meter : Nat)
    (s : Store) : Leads (following .nil body scope meter (s.record (.running body.length)))
      (ended ((program body p).eval meter scope s)) :=
  Leads.rest (.single (.program ..)) ((program body p).leads_eval scope meter s)

theorem eval_empty (p : Position) (scope : Scope) (meter : Nat) (s : Store) :
    (program [] p).eval meter scope s = .ok .nil (s.record (.running 0)) :=
  (leads_statements [] p scope meter s).ended_unique (.single (.lastStatement ..))

theorem isEmpty_statements_relocate (f : Position → Position) (t : Tree) :
    (t.relocate f).statements.isEmpty = t.statements.isEmpty := by
  cases t with
  | program body p => cases body <;> rfl
  | number | string | identifier | call | define | function => rfl

/-- One program after the other; an empty one has no value of its own. -/
def sequel (first second : Tree) (meter : Nat) (scope : Scope) : Action EvalError Value := do
  let v ← first.eval meter scope
  let w ← second.eval meter scope
  return if second.statements.isEmpty then v else w

section

variable {first second : Tree} {v w : Value} {e : EvalError}

theorem sequel_of_error (failed : first.eval meter scope s = .error e t) (second : Tree) :
    first.sequel second meter scope s = .error e t :=
  Action.bind_of_error failed

theorem sequel_of_ok_error (run : first.eval meter scope s = .ok v t)
    (failed : second.eval meter scope t = .error e u) :
    first.sequel second meter scope s = .error e u :=
  (Action.bind_of_ok run).trans (Action.bind_of_error failed)

theorem sequel_of_ok (run : first.eval meter scope s = .ok v t)
    (run' : second.eval meter scope t = .ok w u) : first.sequel second meter scope s =
      .ok (if second.statements.isEmpty then v else w) u :=
  (Action.bind_of_ok run).trans (Action.bind_of_ok run')

end

/-- The statements of two programs go as the one program and then the other. -/
theorem same_sequel (noted : s.Noted t) (body rest : List Tree) (p p' q : Position) :
    Store.SameOutcome ((program body p).sequel (program rest p') meter scope s)
      ((program (body ++ rest) q).eval meter scope t) := by
  have whole := leads_statements (body ++ rest) q scope meter t
  obtain ⟨r, short, long⟩ := leads_following body rest scope meter .nil
    (t.record (.running (body ++ rest).length))
  have begun : (s.record (.running body.length)).Noted
      (t.record (.running (body ++ rest).length)) :=
    (Store.Noted.record s _).symm.trans (noted.trans (.record t _))
  have first : Store.SameOutcome ((program body p).eval meter scope s) r :=
    (leads_statements body p scope meter s).same short
      (begun.moment _ _ (.value (Value.moved_self ⟨rfl, rfl⟩ _))
        (.cons (Mirror.unmoved_statements ..) .nil)) begun.meters rfl rfl
  have second := long.rest whole
  generalize run : (program body p).eval meter scope s = r' at first
  cases first with
  | @error e s' t' noted =>
    have failed : Leads (ended (.error e t')) (ended _) := second
    rw [sequel_of_error run, failed.ended_unique .refl]
    exact .error noted
  | @ok v s' t' noted =>
    cases rest with
    | nil =>
      have whole := second.ended_unique (.single (.lastStatement ..) : Leads _ (ended (.ok v t')))
      rw [sequel_of_ok run (eval_empty ..), whole]
      exact .ok ((Store.Noted.record s' _).symm.trans noted)
    | cons u rest =>
      -- The first of the statements drops the value before it, whatever that is.
      have alone := leads_statements (u :: rest) p' scope meter s'
      have one := Leads.rest (.single (.nextStatement ..)) alone
      have other := Leads.rest (.single (.nextStatement ..)) second
      have begun := (Store.Noted.record s' (.running (u :: rest).length)).symm.trans noted
      have same := one.same other (begun.moment _ _ (Mirror.unmoved_tree ..)
        (.cons (Mirror.unmoved_statements ..) .nil)) begun.meters rfl rfl
      generalize run' : (program (u :: rest) p').eval meter scope s' = r',
        (program (body ++ u :: rest) q).eval meter scope t = r at same ⊢
      cases same with
      | ok noted =>
        rw [sequel_of_ok run run']
        exact .ok noted
      | error noted =>
        rw [sequel_of_ok_error run run']
        exact .error noted

end Tree

/-- A failure that lies in the tree of a text is at one of the text's tokens. -/
theorem EvalError.LiesIn.exists_token {e : EvalError} {source : String} {tree : Tree}
    (lies : e.LiesIn tree scope meter s) (said : Tree.ofSource source = .ok tree) :
    ∃ tokens, Token.scan source = .ok tokens ∧ ∃ t ∈ tokens, t.position = e.position := by
  obtain ⟨tokens, scanned, parsed⟩ := Tree.ofSource_eq_ok_iff.mp said
  refine ⟨tokens, scanned, ?_⟩
  by_contra none
  -- Otherwise the tree is not changed when that place alone is moved, but the failure is.
  let f (p : Position) : Position := if p = e.position then p.behind [] else p
  obtain ⟨s', failed⟩ := lies id
  obtain ⟨s'', failed'⟩ := lies f
  rw [Tree.relocate_id] at failed
  have moved : f e.position ≠ e.position := by
    intro same
    have here : f e.position = e.position.behind [] := if_pos rfl
    have offset := congrArg Position.offset (here.symm.trans same)
    simp [Position.behind] at offset
  by_cases empty : Tree.significant tokens = []
  · rw [Tree.ofTokens, empty] at parsed
    obtain rfl : tree = .program [] {} := Except.ok.inj parsed.symm
    rw [Tree.eval_empty] at failed
    cases failed
  · have still : tokens.map (Token.relocate f) = tokens := by
      refine (List.map_congr_left fun t member => ?_).trans (List.map_id tokens)
      have other : t.position ≠ e.position := fun same => none ⟨t, member, same⟩
      show ({ t with position := f t.position } : Token) = t
      rw [show f t.position = t.position from if_neg other]
    have reread := Tree.ofTokens_relocate f (Tree.significant_map f tokens)
      (fun none => absurd none empty)
    rw [still, parsed] at reread
    have same : tree = tree.relocate f := Except.ok.inj reread
    rw [← same, failed] at failed'
    exact moved (congrArg EvalError.position (EStateM.Result.error.inj failed').1).symm

/-- Stores that differ in their journals alone hold the same. -/
theorem Store.Noted.bare (noted : s.Noted t) : t.bare = s.bare :=
  have mirrors : s.Mirrors Mirror.unmoved [] [] t := noted.moved ⟨rfl, rfl⟩
  mirrors.bare noted.meters

section

variable {source source' : String} {tree tree' : Tree}

/-- The joined text goes as the tree of the one and then the moved tree of the other. -/
theorem same_evaluate_joined (said : Tree.ofSource source = .ok tree)
    (said' : Tree.ofSource source' = .ok tree') (scope : Scope) (meter : Nat) {s t : Store}
    (noted : s.Noted t) : Store.SameOutcome
      (Action.mapError Failure.eval
        (tree.sequel (tree'.relocate (Position.behind source.toList)) meter scope) s)
      (evaluate meter scope (source ++ "\n" ++ source') t) := by
  obtain ⟨p, same⟩ := Tree.exists_eq_program_of_ofSource said
  obtain ⟨p', same'⟩ := Tree.exists_eq_program_of_ofSource said'
  rw [same] at said ⊢
  rw [same'] at said' ⊢
  obtain ⟨q, joined⟩ := Tree.ofSource_joined said said'
  obtain ⟨t', noted', run⟩ := evaluate_of_tree joined meter scope t
  rw [run]
  exact (Tree.same_sequel (noted.trans noted') _ _ p _ q).mapError _

/-- The second of two texts comes to the same when it is moved behind the first: the same value and
effects, up to places in bodies, or the same failure, which is moved if it lies in the text. -/
theorem eval_behind (said : Tree.ofSource source = .ok tree) (f : Position → Position)
    (scope : Scope) (meter : Nat) {s t : Store} (noted : s.Noted t) :
    (∀ w t', tree.eval meter scope t = .ok w t' →
      ∃ w' s', (tree.relocate f).eval meter scope s = .ok w' s' ∧ w'.bare = w.bare ∧
        s'.bare = t'.bare) ∧
    ∀ e t', tree.eval meter scope t = .error e t' →
      ∃ s', s'.bare = t'.bare ∧
        ((e.LiesIn tree scope meter s ∧
            (∃ tokens, Token.scan source = .ok tokens ∧ ∃ t ∈ tokens, t.position = e.position) ∧
            (tree.relocate f).eval meter scope s = .error ⟨e.cause, f e.position⟩ s') ∨
          e.LiesBefore tree scope meter s ∧
            (tree.relocate f).eval meter scope s = .error e s') := by
  have outcomes := Tree.outcomes_movedTree id f tree scope meter
    (noted.symm.moved (.inr ⟨rfl, rfl⟩))
  rw [Tree.relocate_id] at outcomes
  have meters : (((tree.relocate f).eval meter scope).after s).meters =
      ((tree.eval meter scope).after t).meters := by
    rw [Tree.meters_eval, Tree.meters_eval, noted.meters]
  constructor
  · intro w t' run
    rw [run] at outcomes
    generalize run' : (tree.relocate f).eval meter scope s = r at outcomes
    rw [Action.after_of_ok run] at meters
    cases outcomes with
    | ok values stores =>
      rw [Action.after_of_ok run'] at meters
      exact ⟨_, _, rfl, values.bare, stores.bare meters⟩
  · intro e t' run
    rw [run] at outcomes
    generalize run' : (tree.relocate f).eval meter scope s = r at outcomes
    rw [Action.after_of_error run] at meters
    cases outcomes with
    | @error _ e' _ s' _ stores =>
      rw [Action.after_of_error run'] at meters
      refine ⟨s', stores.bare meters, ?_⟩
      rcases Tree.liesIn_or noted run with lies | lies
      · obtain ⟨_, failed⟩ := lies f
        rw [run'] at failed
        cases failed
        exact .inl ⟨lies, lies.exists_token said, rfl⟩
      · obtain ⟨_, failed⟩ := lies f
        rw [run'] at failed
        cases failed
        exact .inr ⟨lies, rfl⟩

/-- Two texts that are trees, joined by a line break, are evaluated as the one and then, if that
succeeded, the other. If the first fails, so does the joined text, with the same failure and the
same effects. Otherwise the joined text has the value of the second, or of the first if the second
has no statement, and leaves what the second leaves, up to places in the bodies of functions; or it
has the failure of the second, which is moved behind the first text and the line break if it lies in
the second text, where it is at a token, and stays where it is if it lies in a function that was
there before. -/
theorem evaluate_joined (said : Tree.ofSource source = .ok tree)
    (said' : Tree.ofSource source' = .ok tree') (scope : Scope) (meter : Nat) (s : Store) :
    (∀ e s', evaluate meter scope source s = .error e s' →
      ∃ u, s'.Noted u ∧ evaluate meter scope (source ++ "\n" ++ source') s = .error e u) ∧
    ∀ v s', evaluate meter scope source s = .ok v s' →
      (∀ w s'', evaluate meter scope source' s' = .ok w s'' →
        ∃ w' u, evaluate meter scope (source ++ "\n" ++ source') s = .ok w' u ∧
          w'.bare = (if tree'.statements.isEmpty then v else w).bare ∧ u.bare = s''.bare) ∧
      ∀ e s'', evaluate meter scope source' s' = .error e s'' →
        ∃ inner u, e = .eval inner ∧ u.bare = s''.bare ∧
          ((inner.LiesIn tree' scope meter s' ∧
              (∃ tokens, Token.scan source' = .ok tokens ∧
                ∃ t ∈ tokens, t.position = inner.position) ∧
              evaluate meter scope (source ++ "\n" ++ source') s =
                .error (.eval ⟨inner.cause, inner.position.behind source.toList⟩) u) ∨
            inner.LiesBefore tree' scope meter s' ∧
              evaluate meter scope (source ++ "\n" ++ source') s = .error (.eval inner) u) := by
  have joined {t : Store} (noted : s.Noted t) :=
    same_evaluate_joined said said' scope meter noted.symm
  constructor
  · intro e s' failed
    obtain ⟨t, inner, noted, rfl, out⟩ := eval_of_evaluate_error said failed
    have same := joined noted
    rw [Action.mapError_of_error _ (Tree.sequel_of_error out _)] at same
    exact same.exists_error
  · intro v s' run
    obtain ⟨t, noted, out⟩ := eval_of_evaluate_ok said run
    have same := joined noted
    constructor
    · intro w s'' run'
      obtain ⟨t', noted', out'⟩ := eval_of_evaluate_ok said' run'
      obtain ⟨w', u, moved, value, store⟩ :=
        (eval_behind said' (Position.behind source.toList) scope meter noted').1 w s'' out'
      rw [Action.mapError_of_ok _ (Tree.sequel_of_ok out moved)] at same
      obtain ⟨u', noted'', ends⟩ := same.exists_ok
      refine ⟨_, u', ends, ?_, noted''.bare.trans store⟩
      rw [Tree.isEmpty_statements_relocate]
      split
      · rfl
      · exact value
    · intro e s'' failed
      obtain ⟨t', inner, noted', rfl, out'⟩ := eval_of_evaluate_error said' failed
      obtain ⟨u, store, place⟩ :=
        (eval_behind said' (Position.behind source.toList) scope meter noted').2 inner s'' out'
      rcases place with ⟨lies, token, moved⟩ | ⟨lies, moved⟩
      · rw [Action.mapError_of_error _ (Tree.sequel_of_ok_error out moved)] at same
        obtain ⟨u', noted'', ends⟩ := same.exists_error
        exact ⟨inner, u', rfl, noted''.bare.trans store, .inl ⟨lies, token, ends⟩⟩
      · rw [Action.mapError_of_error _ (Tree.sequel_of_ok_error out moved)] at same
        obtain ⟨u', noted'', ends⟩ := same.exists_error
        exact ⟨inner, u', rfl, noted''.bare.trans store, .inr ⟨lies, ends⟩⟩

/-- A function that fails, and a text that calls it. -/
theorem evaluate_joined_called : ∃ tree tree',
    Tree.ofSource "(fn f [] x)" = .ok tree ∧ Tree.ofSource "(f)" = .ok tree' ∧
    ∃ v s' e s'' inner u,
      evaluate 0 Session.startScope "(fn f [] x)" (Session.startStore 1) = .ok v s' ∧
      evaluate 0 Session.startScope "(f)" s' = .error e s'' ∧ e = .eval inner ∧
      u.bare = s''.bare ∧
      ((inner.LiesIn tree' Session.startScope 0 s' ∧
          evaluate 0 Session.startScope ("(fn f [] x)" ++ "\n" ++ "(f)") (Session.startStore 1) =
            .error (.eval ⟨inner.cause, inner.position.behind "(fn f [] x)".toList⟩) u) ∨
        inner.LiesBefore tree' Session.startScope 0 s' ∧
          evaluate 0 Session.startScope ("(fn f [] x)" ++ "\n" ++ "(f)") (Session.startStore 1) =
            .error (.eval inner) u) := by
  have scanned : Token.scan "(fn f [] x)" = .ok [⟨.bracket .openRound, ⟨0, 0, 0⟩⟩,
      ⟨.keyword .function, ⟨1, 1, 0⟩⟩, ⟨.identifier "f", ⟨4, 4, 0⟩⟩,
      ⟨.bracket .openSquare, ⟨6, 6, 0⟩⟩, ⟨.bracket .closeSquare, ⟨7, 7, 0⟩⟩,
      ⟨.identifier "x", ⟨9, 9, 0⟩⟩, ⟨.bracket .closeRound, ⟨10, 10, 0⟩⟩] := by
    decide +kernel
  have scanned' : Token.scan "(f)" = .ok [⟨.bracket .openRound, ⟨0, 0, 0⟩⟩,
      ⟨.identifier "f", ⟨1, 1, 0⟩⟩, ⟨.bracket .closeRound, ⟨2, 2, 0⟩⟩] := by
    decide +kernel
  have said := Tree.ofSource_of_read scanned rfl
  have said' := Tree.ofSource_of_read scanned' rfl
  have ran : (match evaluate 0 Session.startScope "(fn f [] x)" (Session.startStore 1) with
      | .error _ _ => false
      | .ok _ s' => match evaluate 0 Session.startScope "(f)" s' with
        | .error _ _ => true
        | .ok _ _ => false) = true := by
    decide +kernel
  cases run : evaluate 0 Session.startScope "(fn f [] x)" (Session.startStore 1) with
  | error e s' => simp [run] at ran
  | ok v s' =>
    cases run' : evaluate 0 Session.startScope "(f)" s' with
    | ok w s'' => simp [run, run'] at ran
    | error e s'' =>
      obtain ⟨inner, u, same, store, place⟩ :=
        ((evaluate_joined said said' Session.startScope 0 (Session.startStore 1)).2 v s' run).2
          e s'' run'
      exact ⟨_, _, said, said', v, s', e, s'', inner, u, rfl, run', same, store,
        place.imp_left fun lies => ⟨lies.1, lies.2.2⟩⟩

end

end Lispette
