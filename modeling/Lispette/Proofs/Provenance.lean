import Lispette.Proofs.StageStandards

/-!
Where functions come from. A function that is found anywhere at a stage was there at the stage
before, or it was just made; so it is one of those that were made on the way, and these have the
numbers from zero on.
-/

namespace Lispette

open Moment

def Pending.values : Pending → List Value
  | .argument _ values _ => values
  | _ => []

namespace Store

/-- The value is bound in a frame, or was printed. -/
def Holds (s : Store) (v : Value) : Prop :=
  (∃ id, ∃ binding ∈ s.frame id, binding.2 = v) ∨ v ∈ s.printedValues

variable {s : Store} {v : Value}

theorem Holds.of_eq {t : Store} (held : t.Holds v) (frames : t.frames = s.frames)
    (printed : t.printed = s.printed) : s.Holds v := by
  simpa only [Holds, frame, printedValues, frames, printed] using held

theorem Holds.of_bind {scope : Scope} {name : String} {w : Value}
    (held : (s.bind scope name w).Holds v) : v = w ∨ s.Holds v := by
  rcases held with ⟨id, binding, member, rfl⟩ | printed
  · rcases mem_frame_bind member with rfl | old
    · exact .inl rfl
    · exact .inr (.inl ⟨id, binding, old, rfl⟩)
  · exact .inr (.inr printed)

theorem Holds.of_newFrame {outer : List Nat} {frame : Frame}
    (held : (s.newFrame outer frame).2.Holds v) :
    (∃ binding ∈ frame, binding.2 = v) ∨ s.Holds v := by
  rcases held with ⟨id, binding, member, rfl⟩ | printed
  · rcases mem_frame_newFrame member with new | old
    · exact .inl ⟨binding, new, rfl⟩
    · exact .inr (.inl ⟨id, binding, old, rfl⟩)
  · exact .inr (.inr printed)

theorem Holds.of_enterBody {c : Closure} {values : List Value}
    (held : (s.enterBody c values).2.Holds v) : v ∈ values ∨ s.Holds v := by
  refine held.of_newFrame.imp_left fun bound => ?_
  obtain ⟨binding, member, rfl⟩ := bound
  exact (List.of_mem_zip (List.mem_reverse.mp member)).2

theorem Holds.of_afterBuiltin {b : Builtin} {values : List Value}
    (held : (s.afterBuiltin b values).Holds v) : v ∈ values ∨ s.Holds v := by
  rcases held with bound | printed
  · refine .inr (.inl ?_)
    simpa only [frame, frames_afterBuiltin] using bound
  · exact (mem_printed_afterBuiltin printed).symm.imp_right .inr

theorem holds_of_lookup {scope : Scope} {name : String} (found : s.lookup scope name = some v) :
    s.Holds v := by
  obtain ⟨id, -, bound⟩ := List.exists_of_findSome?_eq_some found
  obtain ⟨newer, older, split, -⟩ := List.lookup_eq_some_iff.mp bound
  exact .inl ⟨id, (name, v), by simp [split], rfl⟩

end Store

/-- The value is being worked on, waits, is bound or was printed. -/
def Moment.Holds (m : Moment) (v : Value) : Prop :=
  v ∈ m.focus.values ∨ v ∈ m.pending.flatMap Pending.values ∨ m.store.Holds v

/-- No rule brings a function up that was not there before, but by evaluating a declaration. -/
theorem Moment.Next.holds {m m' : Moment} {f : Function} (next : Next m m')
    (held : m'.Holds (.function f)) : m.Holds (.function f) ∨ m.made? = some f := by
  cases next with
  | number digits p scope meter k s =>
    left
    rcases held with worked | pending | store
    · unfold numberAt at worked
      split at worked <;> simp [Focus.values] at worked
    · exact .inr (.inl pending)
    · exact .inr (.inr store)
  | identifier name p scope meter k s =>
    left
    rcases held with worked | pending | store
    · unfold Store.valueAt at worked
      cases found : s.lookup scope name with
      | some v =>
        rw [found] at worked
        cases List.mem_singleton.mp worked
        exact .inr (.inr (Store.holds_of_lookup found))
      | none =>
        rw [found] at worked
        cases worked
    · exact .inr (.inl pending)
    · exact .inr (.inr store)
  | function name parameters body p scope meter k s =>
    rcases held with worked | pending | store
    · cases List.mem_singleton.mp worked
      exact .inr rfl
    · exact .inl (.inr (.inl pending))
    · rcases store.of_bind with same | old
      · cases same
        exact .inr rfl
      · exact .inl (.inr (.inr old))
  | entered site values k s g bound free =>
    left
    rcases held with worked | pending | store
    · rcases List.mem_cons.mp worked with same | given
      · cases same
        exact .inr (.inr (Store.holds_of_lookup bound))
      · exact .inl given
    · exact .inr (.inl pending)
    · exact .inr (.inr store)
  | builtin g b values site k s code =>
    left
    rcases held with worked | pending | store
    · -- a builtin answers one of its arguments, or no function
      refine .inl (List.mem_cons_of_mem _ ?_)
      rcases b.answer_cases values with ⟨v, answered, known | plain⟩ | ⟨e, answered, -⟩
      · rw [answered] at worked
        cases List.mem_singleton.mp worked
        exact known
      · rw [answered] at worked
        cases List.mem_singleton.mp worked
        exact absurd rfl plain
      · rw [answered] at worked
        cases worked
    · exact .inr (.inl pending)
    · rcases store.of_afterBuiltin with given | old
      · exact .inl (List.mem_cons_of_mem _ given)
      · exact .inr (.inr old)
  | closure g c values k s code =>
    left
    rcases held with worked | pending | store
    · cases worked
    · exact .inr (.inl pending)
    · rcases store.of_enterBody with given | old
      · exact .inl (List.mem_cons_of_mem _ given)
      · exact .inr (.inr old)
  | bound v name scope k s =>
    left
    rcases held with worked | pending | store
    · cases List.mem_singleton.mp worked
    · exact .inr (.inl pending)
    · rcases store.of_bind with same | old
      · exact .inl (List.mem_singleton.mpr same)
      · exact .inr (.inr old)
  | failed e q k s ordinary =>
    rcases held with worked | pending | store
    · cases worked
    · exact .inl (.inr (.inl (List.mem_append_right _ pending)))
    · exact .inl (.inr (.inr store))
  | _ =>
    left
    simp only [Moment.Holds, Focus.values, Pending.values, List.flatMap_cons, List.mem_append,
      List.mem_singleton, List.not_mem_nil, List.nil_append] at held ⊢
    tauto
/-- The function that is made has the next number. -/
theorem Moment.id_of_made? {m : Moment} {f : Function} (making : m.made? = some f) :
    f.id = m.store.functionCount := by
  unfold made? at making
  split at making
  · cases making
    rfl
  · cases making

theorem Moment.Next.functionCount {m m' : Moment} (next : Next m m') :
    m'.store.functionCount = m.store.functionCount + m.made?.toList.length := by
  cases next with
  | builtin f b values site k s code =>
    dsimp only
    unfold Store.afterBuiltin
    split <;> rfl
  | _ => rfl

namespace Store

variable {s : Store} {v : Value} {scope : Scope}

theorem not_holds_newMeter (limit : Nat) : ¬ (newMeter {} limit).2.Holds v := by
  rintro (⟨id, binding, member, -⟩ | printed)
  · rw [frame_newMeter, frame_of_le (Nat.zero_le id)] at member
    cases member
  · cases printed

section

variable (scope) (s) (entries : List (String × Builtin))

theorem functionCount_bindBuiltins :
    (entries.foldl (bindBuiltin scope) s).functionCount = s.functionCount + entries.length := by
  induction entries generalizing s with
  | nil => rfl
  | cons entry rest ih =>
    have one : (s.bindBuiltin scope entry).functionCount = s.functionCount + 1 := rfl
    rw [List.foldl_cons, ih, one, List.length_cons]
    omega

theorem ids_boundBuiltins : (s.boundBuiltins scope entries).map Function.id =
    List.range' s.functionCount entries.length := by
  induction entries generalizing s with
  | nil => rfl
  | cons entry rest ih =>
    rw [boundBuiltins, List.map_cons, ih]
    rfl

variable {scope s entries}

theorem Holds.of_bindBuiltins (held : (entries.foldl (bindBuiltin scope) s).Holds v) :
    (∃ f ∈ s.boundBuiltins scope entries, v = .function f) ∨ s.Holds v := by
  induction entries generalizing s with
  | nil => exact .inr held
  | cons entry rest ih =>
    rcases ih held with ⟨f, member, same⟩ | before
    · exact .inl ⟨f, List.mem_cons_of_mem _ member, same⟩
    · exact before.of_bind.imp_left fun same => ⟨_, List.mem_cons_self, same⟩

end

theorem Holds.of_bindConstants {entries : List (String × Value)}
    (held : (entries.foldl (bindConstant scope) s).Holds v) :
    (∃ entry ∈ entries, entry.2 = v) ∨ s.Holds v := by
  induction entries generalizing s with
  | nil => exact .inr held
  | cons entry rest ih =>
    rcases ih held with ⟨constant, member, same⟩ | before
    · exact .inl ⟨constant, List.mem_cons_of_mem _ member, same⟩
    · exact before.of_bind.imp_left fun same => ⟨entry, List.mem_cons_self, same.symm⟩

theorem functionCount_bindConstants (scope : Scope) (s : Store) (entries : List (String × Value)) :
    (entries.foldl (bindConstant scope) s).functionCount = s.functionCount :=
  List.foldlRecOn (motive := fun t : Store => t.functionCount = s.functionCount) _ _ rfl
    fun _ before _ _ => before

theorem ids_preludeFunctions (s : Store) :
    s.preludeFunctions.map Function.id = List.range' s.functionCount preludeBuiltins.length := by
  rw [preludeFunctions, ids_boundBuiltins, functionCount_bindConstants]
  rfl

theorem functionCount_newPrelude (s : Store) :
    s.newPrelude.2.functionCount = s.functionCount + preludeBuiltins.length := by
  rw [newPrelude, furnish, functionCount_bindBuiltins, functionCount_bindConstants]
  rfl

theorem Holds.of_newPrelude {f : Function} (held : s.newPrelude.2.Holds (.function f)) :
    f ∈ s.preludeFunctions ∨ s.Holds (.function f) := by
  rcases Holds.of_bindBuiltins held with ⟨g, member, same⟩ | constants
  · cases same
    exact .inl member
  · rcases constants.of_bindConstants with ⟨entry, member, same⟩ | before
    · have plain : ∀ entry ∈ preludeConstants, entry.2.kind ≠ .function := by decide
      exact absurd (congrArg Value.kind same) (plain entry member)
    · have framed : (s.newFrame [] []).2.Holds (.function f) := before
      rcases framed.of_newFrame with ⟨_, member, -⟩ | before
      · cases member
      · exact .inr before

end Store

namespace Session

variable {s : Session} {x : Step} {answered : List Value} {f : Function}

/-- What a step gives is known or bound. -/
theorem Gives.known (gives : s.Gives x (.function f)) (given : x.GivesKnown (s.known answered)) :
    .function f ∈ answered ∨ s.store.Holds (.function f) := by
  obtain ⟨operand, member, resolved⟩ := gives
  cases operand with
  | value v =>
    cases resolved
    exact (List.mem_append.mp (given f member)).imp_right .inr
  | binding name scope =>
    obtain ⟨scope, -, found⟩ := Option.bind_eq_some_iff.mp resolved
    exact .inr (Store.holds_of_lookup found)

/-- A step that evaluates nothing brings no function up that was not given, bound or printed, but
those of a new prelude. -/
theorem Idles.holds {made : List Function} {v? : Option Value} {t : Store}
    (idles : s.Idles x made v? t) (held : v? = some (.function f) ∨ t.Holds (.function f)) :
    f ∈ made ∨ s.Gives x (.function f) ∨ s.store.Holds (.function f) := by
  cases idles with
  | still frames functionCount printed =>
    rcases held with same | held
    · cases same
    · exact .inr (.inr (held.of_eq frames printed))
  | found bound =>
    rcases held with same | held
    · cases same
      exact .inr (.inr (Store.holds_of_lookup bound))
    · exact .inr (.inr held)
  | framed outer given =>
    rcases held with same | held
    · cases same
    · rcases held.of_newFrame with ⟨binding, member, same⟩ | before
      · exact .inr (.inl (same ▸ given binding member))
      · exact .inr (.inr before)
  | bound scope name given =>
    rcases held with same | held
    · cases same
    · rcases held.of_bind with same | before
      · exact .inr (.inl (same ▸ given))
      · exact .inr (.inr before)
  | installed =>
    rcases held with same | held
    · cases same
    · exact held.of_newPrelude.imp_right .inr
  | @applied b values _ given answer =>
    rcases held with same | held
    · rcases b.answer_cases values with ⟨w, run, known | plain⟩ | ⟨e, run, -⟩
      · cases run.symm.trans (answer _ same)
        exact .inr (.inl (given _ known))
      · cases run.symm.trans (answer _ same)
        exact absurd rfl plain
      · cases run.symm.trans (answer _ same)
    · rcases held.of_afterBuiltin with passed | before
      · exact .inr (.inl (given _ passed))
      · exact .inr (.inr before)

theorem Idles.ids {made : List Function} {v? : Option Value} {t : Store}
    (idles : s.Idles x made v? t) :
    made.map Function.id = List.range' s.store.functionCount made.length ∧
      t.functionCount = s.store.functionCount + made.length := by
  cases idles with
  | still frames functionCount printed => exact ⟨rfl, functionCount⟩
  | installed =>
    have ids := s.store.ids_preludeFunctions
    have length : s.store.preludeFunctions.length = preludeBuiltins.length := by
      simpa using congrArg List.length ids
    rw [length]
    exact ⟨ids, s.store.functionCount_newPrelude⟩
  | applied given answered =>
    refine ⟨rfl, ?_⟩
    unfold Store.afterBuiltin
    split <;> rfl
  | found | framed | bound => exact ⟨rfl, rfl⟩

end Session

namespace Stage

/-- The value is found somewhere at the stage. -/
def Holds : Stage → Value → Prop
  | .resting s answered, v => v ∈ answered ∨ s.store.Holds v
  | .within _ answered m, v => v ∈ answered ∨ m.Holds v

/-- The functions that were made have the numbers from zero on, and there are no others. -/
structure Accounted (made : List Function) (st : Stage) : Prop where
  ids : made.map Function.id = List.range st.session.store.functionCount
  mem {f : Function} (held : st.Holds (.function f)) : f ∈ made

theorem ids_append {made new : List Function} {n n' : Nat}
    (old : made.map Function.id = List.range n)
    (ids : new.map Function.id = List.range' n new.length) (count : n' = n + new.length) :
    (made ++ new).map Function.id = List.range n' := by
  rw [List.map_append, old, ids, count, List.range_eq_range', List.range_eq_range']
  have joined : List.range' 0 n ++ List.range' (0 + 1 * n) new.length =
    List.range' 0 (n + new.length) := List.range'_append
  simpa using joined

variable {allowed : Step → Prop} {made : List Function} {st : Stage} {s s' : Session}
  {answered : List Value} {x : Step} {answer : Answer} {m m' : Moment}

theorem accounted_start (limit : Nat) :
    Accounted (Store.newMeter {} limit).2.preludeFunctions (.resting (.start limit) []) := by
  have store : (Session.start limit).store = (Store.newMeter {} limit).2.newPrelude.2 := by
    simp only [Session.start_eq, Session.single, Session.startStore]
  have ids := (Store.newMeter {} limit).2.ids_preludeFunctions
  have count := (Store.newMeter {} limit).2.functionCount_newPrelude
  have none : (Store.newMeter {} limit).2.functionCount = 0 := rfl
  rw [none] at ids count
  refine ⟨?_, fun {f} held => ?_⟩
  · simp only [session]
    rw [store, count, ids, Nat.zero_add, List.range_eq_range']
  · rcases held with seen | held
    · cases seen
    · rw [store] at held
      exact held.of_newPrelude.resolve_right (Store.not_holds_newMeter limit)

theorem accounted_startBare (limit : Nat) : Accounted [] (.resting (.startBare limit) []) := by
  refine ⟨rfl, fun {f} held => ?_⟩
  rcases held with seen | held
  · cases seen
  · have framed : ((Store.newMeter {} limit).2.newFrame [] []).2.Holds (.function f) := held
    rcases framed.of_newFrame with ⟨_, member, -⟩ | before
    · cases member
    · exact absurd before (Store.not_holds_newMeter limit)

theorem Accounted.idle (accounted : Accounted made (.resting s answered))
    (given : x.GivesKnown (s.known answered)) (idle : s.begins? x = none)
    (taken : s.step x = some (answer, s')) :
    Accounted (made ++ s.installs x) (.resting s' (answered ++ answer.value?.toList)) := by
  obtain ⟨idles, -⟩ := Session.idles idle taken
  refine ⟨ids_append accounted.ids idles.ids.1 idles.ids.2, fun {f} held => ?_⟩
  have after : .function f ∈ answered ∨ answer.value? = some (.function f) ∨
      s'.store.Holds (.function f) := by
    simpa only [Holds, List.mem_append, Option.mem_toList, Option.mem_def, or_assoc] using held
  rcases after with seen | new
  · exact List.mem_append_left _ (accounted.mem (.inl seen))
  · rcases idles.holds new with installed | gives | old
    · exact List.mem_append_right _ installed
    · exact List.mem_append_left _ (accounted.mem (gives.known given))
    · exact List.mem_append_left _ (accounted.mem (.inr old))

theorem Accounted.begun (accounted : Accounted made (.resting s answered))
    (given : x.GivesKnown (s.known answered)) (begins : s.Begins x m) :
    Accounted made (.within s answered m) := by
  cases begins with
  | tree meter told named noted =>
    refine ⟨noted.functionCount ▸ accounted.ids, fun {f} held => accounted.mem ?_⟩
    rcases held with seen | worked | pending | store
    · exact .inl seen
    · cases worked
    · cases pending
    · exact .inr (store.of_eq noted.frames noted.printed)
  | body callee passed =>
    refine ⟨accounted.ids, fun {f} held => accounted.mem ?_⟩
    rcases held with seen | worked | pending | store
    · exact .inl seen
    · rcases List.mem_cons.mp worked with same | value
      · cases same
        exact callee.known given
      · exact (passed _ value).known given
    · cases pending
    · exact .inr store

theorem Accounted.next (accounted : Accounted made (.within s answered m)) (next : Next m m') :
    Accounted (made ++ m.made?.toList) (.within s answered m') := by
  have new : m.made?.toList.map Function.id =
      List.range' m.store.functionCount m.made?.toList.length := by
    cases making : m.made? with
    | none => rfl
    | some f => simp [id_of_made? making]
  refine ⟨ids_append accounted.ids new next.functionCount, fun {f} held => ?_⟩
  rcases held with seen | held
  · exact List.mem_append_left _ (accounted.mem (.inl seen))
  · rcases next.holds held with old | making
    · exact List.mem_append_left _ (accounted.mem (.inr old))
    · exact List.mem_append_right _ (Option.mem_toList.mpr making)

theorem Accounted.returned {v : Value} {t : Store}
    (accounted : Accounted made (.within s answered ⟨.result (.ok v), [], t⟩)) :
    Accounted made (.resting { s with store := t } (answered ++ [v])) := by
  refine ⟨accounted.ids, fun {f} held => accounted.mem ?_⟩
  rcases held with seen | store
  · rcases List.mem_append.mp seen with old | same
    · exact .inl old
    · exact .inr (.inl same)
  · exact .inr (.inr (.inr store))

theorem Reached.accounted (reached : Reached allowed made st) : st.Accounted made := by
  induction reached with
  | start limit => exact accounted_start limit
  | startBare limit => exact accounted_startBare limit
  | idle before kind given idle taken ih => exact ih.idle given idle taken
  | begun before kind given begins ih => exact ih.begun given (Session.begins begins)
  | next before next ih => exact ih.next next
  | returned before ih => exact ih.returned
  | failed before ih =>
    exact ⟨ih.ids, fun held => ih.mem (held.imp_right fun store => .inr (.inr store))⟩

end Stage

end Lispette
