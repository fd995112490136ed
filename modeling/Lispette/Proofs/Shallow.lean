import Lispette.Proofs.Metering
import Lispette.Proofs.Names
import Lispette.Proofs.Stages

/-!
Programs that declare no function. All that they can call is builtin, and a builtin evaluates
nothing: it is left before anything else begins. So the meters stand at every tree that begins to be
evaluated as they stood at the start, and one level is enough for calls nested in the arguments of
each other, however deep.
-/

namespace Lispette

open Moment

theorem Tree.functionNames_of_mem {ts : List Tree} {t : Tree} (none : functionNamesAll ts = [])
    (member : t ∈ ts) : t.functionNames = [] := by
  induction ts with
  | nil => cases member
  | cons first rest ih =>
    obtain ⟨here, later⟩ := List.append_eq_nil_iff.mp none
    rcases List.mem_cons.mp member with rfl | behind
    · exact here
    · exact ih later behind

/-- Trees that declare no function; there is no body to approve. -/
def Standard.undeclaring : Standard :=
  ⟨fun t => t.functionNames = [], fun _ => False, fun _ => True⟩

theorem Standard.undeclaring_upheld : undeclaring.Upheld where
  approved h := h.elim
  statement h member := Tree.functionNames_of_mem h member
  value h := h
  declared h := by cases h
  argument h member := Tree.functionNames_of_mem h member
  unread _ _ := trivial
  unbound _ := trivial
  called _ _ := trivial

/-- What is worked on is counted on the meter. -/
def Focus.On (meter : Nat) : Focus → Prop
  | .tree _ _ n => n = meter
  | .arguments site _ _ => site.meter = meter
  | .body .. | .result _ => True

def Pending.On (meter : Nat) : Pending → Prop
  | .statements _ _ n | .branches _ _ _ _ n => n = meter
  | .argument site _ _ | .callee site => site.meter = meter
  | .binding .. => True

namespace Moment

variable {m m' : Moment} {s : Store} {meter : Nat} {e : EvalError}

/-- All is counted on one meter, and only a call that waits before all else may be inside its
callee; while a tree or the arguments of a call are worked on, none is. -/
structure Flat (meter : Nat) (m : Moment) : Prop where
  focus : m.focus.On meter
  pending : ∀ q ∈ m.pending, q.On meter
  further : ∀ q ∈ m.pending.tail, q.meter? = none
  surface : ∀ scope ∈ m.focus.scope?, ∀ q ∈ m.pending, q.meter? = none

theorem flat_of_surface (focus : m.focus.On meter) (pending : ∀ q ∈ m.pending, q.On meter)
    (surface : ∀ q ∈ m.pending, q.meter? = none) : m.Flat meter :=
  ⟨focus, pending, fun q member => surface q (List.mem_of_mem_tail member), fun _ _ => surface⟩

theorem Next.flat (next : Next m m') (meets : m.Meets .undeclaring) (flat : m.Flat meter) :
    m'.Flat meter := by
  obtain ⟨focus, pending, further, surface⟩ := flat
  cases next with
  | program =>
    exact flat_of_surface trivial (List.forall_mem_cons.mpr ⟨focus, pending⟩)
      (List.forall_mem_cons.mpr ⟨rfl, surface _ rfl⟩)
  | define =>
    exact flat_of_surface focus (List.forall_mem_cons.mpr ⟨trivial, pending⟩)
      (List.forall_mem_cons.mpr ⟨rfl, surface _ rfl⟩)
  | condition | argument =>
    exact flat_of_surface focus (List.forall_mem_cons.mpr ⟨focus, pending⟩)
      (List.forall_mem_cons.mpr ⟨rfl, surface _ rfl⟩)
  | call => exact flat_of_surface focus pending (surface _ rfl)
  | number | string | identifier | function | notDefined | notCallable | tooDeep =>
    exact flat_of_surface trivial pending (surface _ rfl)
  | entered =>
    -- the only rule that leaves a call waiting, and what it leads to is no tree
    exact ⟨trivial, List.forall_mem_cons.mpr ⟨focus, pending⟩, surface _ rfl,
      fun _ none => by cases none⟩
  | builtin => exact ⟨trivial, pending, further, fun _ none => by cases none⟩
  | closure f c values k s code => exact ((meets.focus.1.closure c code).2).elim
  | nextStatement =>
    obtain ⟨first, others⟩ := List.forall_mem_cons.mp pending
    exact flat_of_surface first (List.forall_mem_cons.mpr ⟨first, others⟩)
      (List.forall_mem_cons.mpr ⟨rfl, further⟩)
  | chosen | argumentDone =>
    obtain ⟨first, others⟩ := List.forall_mem_cons.mp pending
    exact flat_of_surface first others further
  | lastStatement | bound | unchosen | returned | failed =>
    exact flat_of_surface trivial (List.forall_mem_cons.mp pending).2 further

/-- Where a tree or the arguments of a call are worked on, the meters stand as at the start. -/
theorem Flat.meter_eq (flat : m.Flat meter) (counted : Counted s m) {scope : Scope}
    (working : scope ∈ m.focus.scope?) (id : Nat) : m.store.meter id = s.meter id := by
  have none : m.active = [] := List.filterMap_eq_nil_iff.mpr (flat.surface scope working)
  exact counted.meter_of_active none id

/-- That a call is too deep is found where a full meter refuses it, and nowhere else. -/
theorem Next.overflow (next : Next m m') (failing : m'.focus = .result (.error e))
    (overflow : e.IsOverflow) : m.focus = .result (.error e) ∨
      ∃ site values, m.focus = .arguments site values [] ∧
        ¬ (m.store.meter site.meter).depth < (m.store.meter site.meter).limit := by
  obtain ⟨limit, deep⟩ := overflow
  cases next with
  | tooDeep site values k s f bound full => exact .inr ⟨site, values, rfl, full⟩
  | returned | failed => exact .inl failing
  | number digits p scope meter k s =>
    unfold numberAt at failing
    split at failing <;> cases failing
    cases deep
  | identifier name p scope meter k s =>
    unfold Store.valueAt at failing
    split at failing <;> cases failing
    cases deep
  | builtin f b values site k s code =>
    rcases b.answer_cases values with ⟨v, answer, -⟩ | ⟨inner, answer, outside⟩
    · rw [answer] at failing
      cases failing
    · rw [answer] at failing
      cases inner with
      | wrongKind | wrongArity =>
        cases failing
        cases deep
      | inside inner => exact absurd rfl (outside inner)
  | notDefined | notCallable | unchosen =>
    cases failing
    cases deep
  | _ => cases failing

/-- What holds at every moment of an evaluation that began in the given store, if no function is
declared and a level of the meter was free. -/
structure Shallow (s : Store) (meter : Nat) (m : Moment) : Prop where
  counted : Counted s m
  meets : m.Meets .undeclaring
  flat : m.Flat meter
  fits (e : EvalError) (failing : m.focus = .result (.error e)) : ¬ e.IsOverflow

theorem Shallow.next (free : (s.meter meter).depth < (s.meter meter).limit)
    (shallow : m.Shallow s meter) (next : Next m m') : m'.Shallow s meter where
  counted := shallow.counted.next next
  meets := next.meets Standard.undeclaring_upheld shallow.meets
  flat := next.flat shallow.meets shallow.flat
  fits e failing overflow := by
    rcases next.overflow failing overflow with before | ⟨site, values, refused, full⟩
    · exact shallow.fits e before overflow
    · have on := shallow.flat.focus
      have working : site.scope ∈ m.focus.scope? := by
        rw [refused]
        rfl
      rw [refused] at on
      rw [shallow.flat.meter_eq shallow.counted working, show site.meter = meter from on] at full
      exact full free

theorem shallow_start {t : Tree} {scope : Scope} (undeclaring : t.functionNames = [])
    (store : s.Meets .undeclaring) (has : s.HasScope scope) :
    (start t scope meter s).Shallow s meter where
  counted := counted_start t scope meter s
  meets := ⟨⟨undeclaring, has⟩, fun _ member => absurd member List.not_mem_nil, store⟩
  flat := flat_of_surface rfl (fun _ member => absurd member List.not_mem_nil)
    fun _ member => absurd member List.not_mem_nil
  fits _ failing := by cases failing

theorem Shallow.leads (free : (s.meter meter).depth < (s.meter meter).limit)
    (shallow : m.Shallow s meter) (leads : Leads m m') : m'.Shallow s meter :=
  leads.preserves (fun _ _ next shallow => shallow.next free next) shallow

end Moment

/-- A step that evaluates where a session starts: in its one scope, with its one interpreter. -/
def Step.RunsMain : Step → Prop
  | .evaluate scope interpreter _ | .run scope interpreter _ =>
    scope = Session.rootName ∧ interpreter = Session.mainName
  | _ => False

namespace Session

variable {n : Nat} {x : Step} {m m' : Moment}

theorem begins_start (runs : x.RunsMain) (begins : (start n).begins? x = some m) :
    ∃ t s, x.tree? = some t ∧ (startStore n).Noted s ∧ m = .start t startScope 0 s := by
  rw [start_eq] at begins
  cases x with
  | evaluate scope interpreter source =>
    obtain ⟨rfl, rfl⟩ := runs
    simp only [begins?, Option.bind_eq_bind, Option.bind_eq_some_iff] at begins
    obtain ⟨meter, metered, scope, named, begins⟩ := begins
    obtain rfl : 0 = meter := Option.some.inj metered
    obtain rfl : startScope = scope := Option.some.inj named
    obtain ⟨s, noted, read⟩ := readSource_run source (startStore n)
    rw [show (single (startStore n) startScope).store = startStore n from rfl, read] at begins
    cases said : Tree.ofSource source with
    | ok t =>
      rw [said] at begins
      cases begins
      exact ⟨t, s, congrArg Except.toOption said, noted, rfl⟩
    | error e =>
      rw [said] at begins
      cases begins
  | run scope interpreter tree =>
    obtain ⟨rfl, rfl⟩ := runs
    cases begins
    exact ⟨tree, _, rfl, .refl _, rfl⟩
  | _ => exact runs.elim

theorem exists_step_start (runs : x.RunsMain) :
    ∃ answer s, (start n).step x = some (answer, s) := by
  rw [start_eq]
  cases x with
  | evaluate | run =>
    obtain ⟨rfl, rfl⟩ := runs
    exact ⟨_, _, rfl⟩
  | _ => exact runs.elim

theorem meter_startStore (n : Nat) : (startStore n).meter 0 = ⟨0, n⟩ :=
  Store.meter_congr (Store.meters_newPrelude _) 0

theorem idle_startStore (n : Nat) : (startStore n).Idle := by
  have idle := (Reachable.start n).idle
  rwa [start_eq] at idle

theorem shallow_start (runs : x.RunsMain)
    (undeclaring : ∀ t, x.tree? = some t → t.functionNames = [])
    (begins : (start n).begins? x = some m) :
    ∃ s, (startStore n).Noted s ∧ m.Shallow s 0 := by
  obtain ⟨t, s, told, noted, rfl⟩ := begins_start runs begins
  obtain ⟨store, has⟩ := meets_start .undeclaring n
  exact ⟨s, noted, Moment.shallow_start (undeclaring t told) (store.of_noted noted)
    (has.mono noted.grows)⟩

/-- A program that declares no function, run where a session starts, is never stopped by a limit
that lets one call in; and whenever a tree in it begins to be evaluated, be it an argument, a
condition or a branch, no meter counts a call. -/
theorem nesting_is_free (positive : 0 < n) (runs : x.RunsMain)
    (undeclaring : ∀ t, x.tree? = some t → t.functionNames = []) :
    (∃ answer s, (start n).step x = some (answer, s) ∧ ¬ answer.IsOverflow) ∧
    ∀ m, (start n).begins? x = some m → ∀ m', Leads m m' → ∀ t scope meter,
      m'.focus = .tree t scope meter → ∀ id, (m'.store.meter id).depth = 0 := by
  have shallow (m : Moment) (begins : (start n).begins? x = some m) :
      ∃ s : Store, s.Idle ∧ ∀ m', Leads m m' → m'.Shallow s 0 := by
    obtain ⟨s, noted, shallow⟩ := shallow_start runs undeclaring begins
    have free : (s.meter 0).depth < (s.meter 0).limit := by
      rw [Store.meter_congr noted.meters, meter_startStore]
      exact positive
    refine ⟨s, fun id => ?_, fun m' => shallow.leads free⟩
    rw [Store.meter_congr noted.meters, idle_startStore]
  constructor
  · obtain ⟨answer, s, taken⟩ := exists_step_start (n := n) runs
    refine ⟨answer, s, taken, ?_⟩
    rintro ⟨e, overflow, rfl⟩
    cases begins : (start n).begins? x with
    | none => cases (idles begins taken).2
    | some m =>
      -- the answer tells how the evaluation ended, and that is one of its moments
      obtain ⟨r, leads, tells, -⟩ := exists_tells begins taken
      obtain ⟨_, -, always⟩ := shallow m begins
      cases tells with
      | failure _ t => exact (always _ leads).fits e rfl overflow
  · intro m begins m' leads t scope meter evaluated id
    obtain ⟨s, idle, always⟩ := shallow m begins
    have now := always m' leads
    have working : scope ∈ m'.focus.scope? := by
      rw [evaluated]
      rfl
    rw [now.flat.meter_eq now.counted working, idle]

/-- Calls of a builtin under another name, in the arguments of each other. -/
def aliasedCalls : Step :=
  .evaluate rootName mainName
    "(def both and)\n(both (both true true) (if (both true false) true (both true true)))"

theorem nesting_is_free_aliasedCalls : 0 < 1 ∧ aliasedCalls.RunsMain ∧
    ∃ t m answer s, aliasedCalls.tree? = some t ∧ t.functionNames = [] ∧
      (start 1).begins? aliasedCalls = some m ∧
      (start 1).step aliasedCalls = some (answer, s) ∧ ¬ answer.IsOverflow ∧
      ∀ m', Leads m m' → ∀ t scope meter, m'.focus = .tree t scope meter →
        ∀ id, (m'.store.meter id).depth = 0 := by
  have runs : aliasedCalls.RunsMain := ⟨rfl, rfl⟩
  have read : aliasedCalls.tree?.map Tree.functionNames = some [] := by decide +kernel
  obtain ⟨t, told, none⟩ := Option.map_eq_some_iff.mp read
  have undeclaring (u : Tree) (same : aliasedCalls.tree? = some u) : u.functionNames = [] := by
    rw [told] at same
    cases same
    exact none
  have begun : ((start 1).begins? aliasedCalls).isSome = true := by decide +kernel
  obtain ⟨m, begins⟩ := Option.isSome_iff_exists.mp begun
  obtain ⟨⟨answer, s, taken, fits⟩, quiet⟩ := nesting_is_free Nat.zero_lt_one runs undeclaring
  exact ⟨Nat.zero_lt_one, runs, t, m, answer, s, told, none, begins, taken, fits, quiet m begins⟩

end Session

end Lispette
