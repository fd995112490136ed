import Lispette.Proofs.StageStandards
import Lispette.Proofs.WellFormed

/-!
Number literals. All those of a source are runs of digits, and so are those of every body that a
session keeps if its steps evaluate sources; so no evaluation and no call comes to a literal that is
not a number. Only a tree that is not read from a source can have such a literal.
-/

namespace Lispette

namespace Tree

mutual

/-- The number literals of a tree, in the order of its text. -/
def literals : Tree → List String
  | .program body _ => eachLiteral body
  | .number digits _ => [digits]
  | .string _ _ | .identifier _ _ => []
  | .call _ arguments _ => eachLiteral arguments
  | .define _ value _ => value.literals
  | .function _ _ body _ => body.literals

def eachLiteral : List Tree → List String
  | [] => []
  | t :: ts => t.literals ++ eachLiteral ts

end

theorem literals_subset_eachLiteral {t : Tree} {ts : List Tree} (member : t ∈ ts) :
    t.literals ⊆ eachLiteral ts := by
  induction ts with
  | nil => cases member
  | cons first rest ih =>
    rw [eachLiteral]
    rcases List.mem_cons.mp member with rfl | later
    · exact List.subset_append_left ..
    · exact List.subset_append_of_subset_right _ (ih later)

/-- Every number literal of the tree is a run of digits. -/
def Legible (t : Tree) : Prop :=
  ∀ digits ∈ t.literals, IsNumber digits

mutual

theorem legible_of_wellFormedWithin : ∀ t : Tree, t.WellFormedWithin → t.Legible
  | .number _ _, h => fun _ member => List.mem_singleton.mp member ▸ h
  | .string _ _, _ | .identifier _ _, _ => fun _ member => absurd member List.not_mem_nil
  | .call _ arguments _, h => legible_of_allWellFormed arguments h.2
  | .define _ value _, h => legible_of_wellFormedWithin value h.2
  | .function _ _ body _, h => legible_of_wellFormedWithin body h.2.2

theorem legible_of_allWellFormed :
    ∀ ts : List Tree, AllWellFormed ts → ∀ digits ∈ eachLiteral ts, IsNumber digits
  | [], _ => fun _ member => absurd member List.not_mem_nil
  | t :: ts, h => fun _ member =>
    (List.mem_append.mp member).elim (legible_of_wellFormedWithin t h.1 _)
      (legible_of_allWellFormed ts h.2 _)

end

theorem WellFormed.legible {t : Tree} (wellFormed : t.WellFormed) : t.Legible := by
  cases t with
  | program body p => exact legible_of_allWellFormed body wellFormed
  | _ => exact absurd wellFormed id

theorem legible_of_ofSource {source : String} {t : Tree} (said : ofSource source = .ok t) :
    t.Legible := by
  obtain ⟨tokens, scanned, parsed⟩ := ofSource_eq_ok_iff.mp said
  exact (wellFormed_of_scan scanned parsed).legible

end Tree

/-- Trees whose number literals are runs of digits, and failures that come to no other literal. -/
def Standard.legible : Standard :=
  ⟨Tree.Legible, Tree.Legible, fun e => ∀ digits, e.cause ≠ .notANumber digits⟩

theorem Standard.legible_upheld : legible.Upheld where
  approved h := h
  statement h member := fun digits inside =>
    h digits (Tree.literals_subset_eachLiteral member inside)
  value h := h
  declared h := h
  argument h member := fun digits inside =>
    h digits (Tree.literals_subset_eachLiteral member inside)
  unread h none := by
    obtain ⟨filled, run⟩ := h _ List.mem_cons_self
    have read := readNumber?_of_digits filled run
    rw [none] at read
    cases read
  unbound _ := fun digits same => by cases same
  called _ atCall := fun digits same => by
    dsimp only at same
    subst same
    exact atCall

/-- A tree that the step evaluates is read from a source, or has runs of digits for its number
literals all the same. -/
def Step.Legible : Step → Prop
  | .run _ _ tree => tree.Legible
  | _ => True

theorem Step.Legible.admitted {x : Step} (legible : x.Legible) : x.Admitted .legible := by
  cases x with
  | evaluate scope interpreter source => exact fun t said => Tree.legible_of_ofSource said
  | run scope interpreter tree => exact legible
  | _ => trivial

namespace Stage.Reached

variable {made : List Function} {s s' : Session} {answered : List Value} {x : Step}
  {answer : Answer} {m : Moment} {e : EvalError}

/-- No failure that is under way is one of a literal. -/
theorem readable_of_within (reached : Reached Step.Legible made (.within s answered m))
    (failing : m.focus = .result (.error e)) (digits : String) : e.cause ≠ .notANumber digits := by
  have meets := reached.meets Standard.legible_upheld fun _ => Step.Legible.admitted
  have focus := (meets.moment m rfl).focus
  rw [failing] at focus
  exact focus digits

/-- Whatever was evaluated and called before, no evaluation of a source and no direct call fails at
a number literal: neither its own nor one in the body of a function that came out of an earlier
source. -/
theorem cause_ne_notANumber (reached : Reached Step.Legible made (.resting s answered))
    (legible : x.Legible) (given : x.GivesKnown (s.known answered))
    (taken : s.step x = some (answer, s')) (failed : answer.evalError? = some e)
    (digits : String) : e.cause ≠ .notANumber digits := by
  cases begins : s.begins? x with
  | none =>
    obtain ⟨-, quiet⟩ := Session.idles begins taken
    rw [quiet] at failed
    cases failed
  | some m =>
    obtain ⟨r, leads, tells, -⟩ := Session.exists_tells begins taken
    obtain ⟨new, within⟩ := (reached.begun legible given begins).leads leads
    cases tells with
    | value v t | called name v t => cases failed
    | failure e t | callFailure e t =>
      cases failed
      exact within.readable_of_within rfl digits

/-- A function with a number in its body is answered, and handed back with an argument that it
cannot add to the number. -/
theorem cause_ne_notANumber_handedBack : ∃ f s answer s' e,
    (Session.start 1).step (.evaluate Session.rootName Session.mainName "(fn f [x] (+ 007 x))") =
      some (.value (.function f), s) ∧
    s.step (.call (.value (.function f)) [.value (.string "a")]) = some (answer, s') ∧
    answer.evalError? = some e ∧ ∀ digits, e.cause ≠ .notANumber digits := by
  have both : (((Session.start 1).step
      (.evaluate Session.rootName Session.mainName "(fn f [x] (+ 007 x))")).bind fun first =>
        first.1.function?.bind fun f =>
          (first.2.step (.call (.value (.function f)) [.value (.string "a")])).bind
            (·.1.evalError?)).isSome = true := by
    decide +kernel
  obtain ⟨e, both⟩ := Option.isSome_iff_exists.mp both
  obtain ⟨⟨first, s⟩, taken, both⟩ := Option.bind_eq_some_iff.mp both
  obtain ⟨f, known, both⟩ := Option.bind_eq_some_iff.mp both
  obtain ⟨⟨answer, s'⟩, called, failed⟩ := Option.bind_eq_some_iff.mp both
  obtain rfl := Answer.eq_of_function? known
  have start : Reached Step.Legible _ (.resting (.start 1) []) := .start 1
  have ofSource : (Step.evaluate Session.rootName Session.mainName
    "(fn f [x] (+ 007 x))").Legible := trivial
  have gives : (Step.evaluate Session.rootName Session.mainName
      "(fn f [x] (+ 007 x))").GivesKnown ((Session.start 1).known []) :=
    fun g member => absurd member List.not_mem_nil
  obtain ⟨new, reached⟩ := start.step ofSource gives taken
  have legible : (Step.call (.value (.function f)) [.value (.string "a")]).Legible := trivial
  have given : (Step.call (.value (.function f)) [.value (.string "a")]).GivesKnown
      (s.known [.function f]) := fun g member => by
    simp [Step.operands] at member
    simp [Session.known, member]
  exact ⟨f, s, answer, s', e, taken, called, failed,
    fun digits => reached.cause_ne_notANumber legible given called failed digits⟩

end Stage.Reached

end Lispette
