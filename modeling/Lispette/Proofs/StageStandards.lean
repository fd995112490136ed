import Lispette.Proofs.Stages

/-!
Standards at every stage. If the steps bring admitted trees only, then at every stage the session,
what has been seen of it and what is being worked on meet the standard, although functions that were
answered or printed are handed back; and every scope at hand stands on frames that were made.
-/

namespace Lispette

open Moment

/-- The values at hand in what is being worked on. -/
def Focus.values : Focus → List Value
  | .arguments _ values _ => values
  | .body f values => .function f :: values
  | .result (.ok v) => [v]
  | .tree .. | .result (.error _) => []

namespace Stage

/-- The session as it is at the stage. -/
def session : Stage → Session
  | .resting s _ => s
  | .within s _ m => { s with store := m.store }

def answered : Stage → List Value
  | .resting _ answered => answered
  | .within _ answered _ => answered

def moment? : Stage → Option Moment
  | .resting _ _ => none
  | .within _ _ m => some m

structure Meets (std : Standard) (st : Stage) : Prop where
  session : st.session.Meets std
  known : ∀ v ∈ st.session.known st.answered, v.Meets std st.session.store
  moment : ∀ m ∈ st.moment?, m.Meets std

end Stage

variable {std : Standard}

theorem Focus.Meets.values {focus : Focus} {s : Store} (meets : focus.Meets std s) :
    ∀ v ∈ focus.values, v.Meets std s := by
  intro v member
  cases focus with
  | arguments site values rest => exact meets.2.1 v member
  | body f values =>
    rcases List.mem_cons.mp member with rfl | given
    · intro g same
      cases same
      exact meets.1
    · exact meets.2 v given
  | tree t scope meter => cases member
  | result r =>
    cases r with
    | ok w =>
      cases List.mem_singleton.mp member
      exact meets
    | error e => cases member

theorem Store.mem_printed_print {s : Store} {values : List Value} {v : Value}
    (member : v ∈ (s.print values).printedValues) : v ∈ s.printedValues ∨ v ∈ values := by
  simpa [printedValues, print] using member

theorem Store.mem_printed_afterBuiltin {s : Store} {b : Builtin} {values : List Value} {v : Value}
    (member : v ∈ (s.afterBuiltin b values).printedValues) :
    v ∈ s.printedValues ∨ v ∈ values := by
  unfold afterBuiltin at member
  split at member
  · exact mem_printed_print member
  · exact .inl member

/-- Nothing is printed but what is being worked on. -/
theorem Moment.Next.mem_printed {m m' : Moment} (next : Next m m') {v : Value}
    (member : v ∈ m'.store.printedValues) : v ∈ m.store.printedValues ∨ v ∈ m.focus.values := by
  cases next with
  | builtin f b values site k s code =>
    exact (Store.mem_printed_afterBuiltin member).imp_right (List.mem_cons_of_mem _)
  | _ => exact .inl member

theorem Step.Admitted.tree {x : Step} (admitted : x.Admitted std) {t : Tree}
    (told : x.tree? = some t) : std.admits t := by
  cases x with
  | evaluate scope interpreter source =>
    refine admitted t ?_
    simp only [tree?] at told
    cases said : Tree.ofSource source with
    | ok t' =>
      rw [said] at told
      cases told
      rfl
    | error e =>
      rw [said] at told
      cases told
  | run scope interpreter tree =>
    cases told
    exact admitted
  | _ => cases told

theorem Step.GivesKnown.meets {x : Step} {known : List Value} {s : Store}
    (given : x.GivesKnown known) (meets : ∀ v ∈ known, v.Meets std s) :
    ∀ operand ∈ x.operands, operand.Meets std s := by
  intro operand member
  cases operand with
  | value v =>
    intro f same
    cases same
    exact meets _ (given f member) f rfl
  | binding name scope => trivial

namespace Session

variable {s s' : Session} {x : Step} {answer : Answer} {m : Moment} {answered : List Value}

theorem printedValues_start (limit : Nat) : (start limit).store.printedValues = [] := by
  simp [start_eq, single, startStore, Store.printedValues, Store.printed_newPrelude,
    Store.newMeter]

theorem printedValues_startBare (limit : Nat) : (startBare limit).store.printedValues = [] := rfl

namespace Idles

variable {made : List Function} {v? : Option Value} {t : Store}

theorem grows (idles : s.Idles x made v? t) : Store.Grows s.store t := by
  cases idles with
  | still frames functionCount printed => exact .of_eq frames functionCount
  | found bound => exact .of_eq rfl rfl
  | framed outer given => exact Store.grows_newFrame ..
  | bound scope name given => exact Store.grows_bind ..
  | installed => exact s.store.grows_newPrelude
  | @applied b values _ given answered =>
    unfold Store.afterBuiltin
    split <;> exact .of_eq rfl rfl

theorem mem_printed (idles : s.Idles x made v? t) {v : Value} (member : v ∈ t.printedValues) :
    v ∈ s.store.printedValues ∨ s.Gives x v := by
  cases idles with
  | still frames functionCount printed =>
    unfold Store.printedValues at member
    rw [printed] at member
    exact .inl member
  | installed =>
    unfold Store.printedValues at member
    rw [Store.printed_newPrelude] at member
    exact .inl member
  | applied given answered => exact (Store.mem_printed_afterBuiltin member).imp_right (given v)
  | found bound => exact .inl member
  | framed outer given => exact .inl member
  | bound scope name given => exact .inl member

end Idles

namespace Meets

variable (meets : s.Meets std) (known : ∀ v ∈ s.known answered, v.Meets std s.store)
  (given : x.GivesKnown (s.known answered))
include meets known given

theorem gives {v : Value} (gives : s.Gives x v) : v.Meets std s.store := by
  obtain ⟨operand, member, resolved⟩ := gives
  exact meets.resolve?_of_meets (given.meets known operand member) resolved

theorem begun (admitted : x.Admitted std) (begins : s.Begins x m) :
    Store.Grows s.store m.store ∧ m.store.printed = s.store.printed ∧ m.Meets std := by
  cases begins with
  | tree meter told named noted =>
    exact ⟨noted.grows, noted.printed,
      ⟨admitted.tree told, (meets.scope? named).mono noted.grows⟩,
      fun _ member => absurd member List.not_mem_nil, meets.store.of_noted noted⟩
  | body callee passed =>
    refine ⟨.of_eq rfl rfl, rfl, ⟨?_, fun v member => ?_⟩,
      fun _ member => absurd member List.not_mem_nil, meets.store⟩
    · exact meets.gives known given callee _ rfl
    · exact meets.gives known given (passed v member)

end Meets

end Session

namespace Stage

variable {allowed : Step → Prop} {made : List Function} {st : Stage}

/-- At every stage everything at hand meets a standard that is asked of all trees. -/
theorem Reached.meets (reached : Reached allowed made st) (upheld : std.Upheld)
    (admitted : ∀ x, allowed x → x.Admitted std) : st.Meets std := by
  induction reached with
  | start limit =>
    refine ⟨Session.start_meets std limit, fun v member => ?_, by simp [moment?]⟩
    simp [session, answered, Session.known, Session.printedValues_start] at member
  | startBare limit =>
    refine ⟨Session.startBare_meets std limit, fun v member => ?_, by simp [moment?]⟩
    simp [session, answered, Session.known, Session.printedValues_startBare] at member
  | @idle made s s' seen x answer before kind given idle taken ih =>
    have meets := ih.session
    have passed := given.meets ih.known
    have after := meets.step_of_meets upheld (admitted x kind) passed taken
    obtain ⟨idles, -⟩ := Session.idles idle taken
    refine ⟨after, fun v member => ?_, by simp [moment?]⟩
    simp only [session, answered, Session.known, List.mem_append, Option.mem_toList] at member
    rcases member with (old | shown) | printed
    · exact (ih.known v (List.mem_append_left _ old)).mono idles.grows
    · exact meets.shown_of_meets upheld (admitted x kind) passed taken shown
    · -- what is printed was printed before, or given by the step
      rcases idles.mem_printed printed with old | gives
      · exact (ih.known v (List.mem_append_right _ old)).mono idles.grows
      · exact (meets.gives ih.known given gives).mono idles.grows
  | @begun made s seen x m before kind given begins ih =>
    obtain ⟨grows, printed, meets⟩ :=
      ih.session.begun ih.known given (admitted x kind) (Session.begins begins)
    refine ⟨ih.session.of_grows grows meets.store, fun v member => ?_, fun m' same => ?_⟩
    · refine (ih.known v ?_).mono grows
      simpa only [session, answered, Session.known, Store.printedValues, printed] using member
    · cases same
      exact meets
  | @next made s seen m m' before next ih =>
    have meets := next.meets upheld (ih.moment m rfl)
    refine ⟨ih.session.of_grows next.grows meets.store, fun v member => ?_, fun m'' same => ?_⟩
    · rcases List.mem_append.mp member with old | printed
      · exact (ih.known v (List.mem_append_left _ old)).mono next.grows
      · rcases next.mem_printed printed with old | worked
        · exact (ih.known v (List.mem_append_right _ old)).mono next.grows
        · exact ((ih.moment m rfl).focus.values v worked).mono next.grows
    · cases same
      exact meets
  | @returned made s seen v t before ih =>
    refine ⟨ih.session, fun w member => ?_, by simp [moment?]⟩
    simp only [session, answered, Session.known, List.mem_append, List.mem_singleton] at member
    rcases member with (old | rfl) | printed
    · exact ih.known w (List.mem_append_left _ old)
    · exact (ih.moment _ rfl).focus
    · exact ih.known w (List.mem_append_right _ printed)
  | failed before ih => exact ⟨ih.session, ih.known, by simp [moment?]⟩

theorem Reached.meets_any (reached : Reached allowed made st) : st.Meets Standard.any :=
  reached.meets Standard.any_upheld fun x _ => by cases x <;> simp [Step.Admitted, Standard.any]

end Stage

end Lispette
