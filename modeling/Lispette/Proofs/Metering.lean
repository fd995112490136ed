import Mathlib.Algebra.BigOperators.Group.Finset.Basic
import Mathlib.Algebra.Order.BigOperators.Group.Finset
import Lispette.Proofs.Reachable

/-!
The meters during an evaluation. A call is active while it is inside its callee; each active call
has taken one unit of its meter, and nothing else changes a meter. So at the end every meter stands
where it stood, and on the way none is above its limit.
-/

namespace Lispette

open Moment

namespace Meter

/-- A meter stays as it is, goes up by one below its limit, or goes down by one above zero. -/
def Moves (before after : Meter) : Prop :=
  after = before ∨ (before.depth < before.limit ∧ after = before.enter) ∨
    (0 < before.depth ∧ after = before.leave)

end Meter

namespace Store

def Idle (s : Store) : Prop :=
  ∀ id, (s.meter id).depth = 0

theorem meter_congr {s t : Store} (h : t.meters = s.meters) (id : Nat) :
    t.meter id = s.meter id := by
  rw [meter, meter, h]

theorem meter_newMeter (s : Store) (limit id : Nat) :
    (s.newMeter limit).2.meter id = if id = s.meters.size then { limit } else s.meter id := by
  simp only [meter_eq, newMeter, Array.getElem?_push]
  split <;> simp_all

end Store

namespace Moment

variable {m m' : Moment} {s : Store} {id : Nat}

/-- The meters of the calls that are inside their callees, innermost first. -/
def active (m : Moment) : List Nat :=
  m.pending.filterMap Pending.meter?

/-- A rule leaves the meters alone, or lets a call in, or ends the innermost active call. -/
theorem Next.meters_cases (next : Next m m') :
    (m'.store.meters = m.store.meters ∧ m'.active = m.active) ∨
    (∃ id, (m.store.meter id).depth < (m.store.meter id).limit ∧
      m'.store.meters = (m.store.enter id).meters ∧ m'.active = id :: m.active) ∨
    (∃ id, m'.store.meters = (m.store.leave id).meters ∧ m.active = id :: m'.active) := by
  cases next with
  | entered site values k s f bound free => exact .inr (.inl ⟨site.meter, free, rfl, rfl⟩)
  | returned r site k s => exact .inr (.inr ⟨site.meter, rfl, rfl⟩)
  | failed e q k s ordinary => exact .inl ⟨rfl, by simp [active, ordinary]⟩
  | builtin f b values site k s code =>
    refine .inl ⟨?_, rfl⟩
    unfold Store.afterBuiltin
    split <;> rfl
  | _ => exact .inl ⟨rfl, rfl⟩

/-- The counts at a moment of an evaluation that began in the given store. -/
structure Counted (s : Store) (m : Moment) : Prop where
  size : m.store.meters.size = s.meters.size
  limit (id : Nat) : (m.store.meter id).limit = (s.meter id).limit
  depth (id : Nat) : (m.store.meter id).depth = (s.meter id).depth + m.active.count id
  within (id : Nat) (busy : id ∈ m.active) : (m.store.meter id).depth ≤ (s.meter id).limit
  headroom : m.store.headroom + m.active.length = s.headroom

/-- When no call is active, nothing has been counted since. -/
theorem counted_of_active (none : m.active = []) : Counted m.store m where
  size := rfl
  limit _ := rfl
  depth id := by rw [none, List.count_nil, Nat.add_zero]
  within _ busy := by
    rw [none] at busy
    cases busy
  headroom := by rw [none, List.length_nil, Nat.add_zero]

theorem counted_start (t : Tree) (scope : Scope) (meter : Nat) (s : Store) :
    Counted s (start t scope meter s) :=
  counted_of_active (m := start t scope meter s) rfl

theorem Counted.of_same (counted : Counted s m) (meters : m'.store.meters = m.store.meters)
    (active : m'.active = m.active) : Counted s m' where
  size := by rw [meters, counted.size]
  limit id := by rw [Store.meter_congr meters, counted.limit]
  depth id := by rw [Store.meter_congr meters, active, counted.depth]
  within id busy := by
    rw [active] at busy
    rw [Store.meter_congr meters]
    exact counted.within id busy
  headroom := by rw [Store.headroom_congr meters, active, counted.headroom]

theorem Counted.of_enter (counted : Counted s m)
    (free : (m.store.meter id).depth < (m.store.meter id).limit)
    (meters : m'.store.meters = (m.store.enter id).meters) (active : m'.active = id :: m.active) :
    Counted s m' := by
  have bound : id < m.store.meters.size := Store.lt_size_of_limit (by omega)
  have moved (j : Nat) : m'.store.meter j =
      if j = id then (m.store.meter j).enter else m.store.meter j := by
    rw [Store.meter_congr meters, Store.meter_enter bound]
  constructor
  · rw [meters, Store.enter, Array.size_modify, counted.size]
  · intro j
    rw [moved, ← counted.limit]
    split <;> rfl
  · intro j
    have before := counted.depth j
    rw [moved, active, List.count_cons]
    by_cases same : j = id
    · subst same
      simp only [if_true, Meter.enter, beq_self_eq_true]
      omega
    · have other : (id == j) = false := by simpa using Ne.symm same
      simpa [same, other] using before
  · intro j busy
    rw [moved]
    by_cases same : j = id
    · subst same
      have limit := counted.limit j
      simp only [if_true, Meter.enter]
      omega
    · rw [active] at busy
      simp only [same, if_false]
      exact counted.within j (by simpa [same] using busy)
  · have one := Store.headroom_enter free
    have units := counted.headroom
    rw [Store.headroom_congr meters, active, List.length_cons]
    omega

theorem Counted.busy (counted : Counted s m) (active : id ∈ m.active) :
    0 < (m.store.meter id).depth := by
  have present := List.count_pos_iff.mpr active
  rw [counted.depth]
  omega

theorem Counted.of_leave (counted : Counted s m)
    (meters : m'.store.meters = (m.store.leave id).meters) (active : m.active = id :: m'.active) :
    Counted s m' := by
  have member : id ∈ m.active := by simp [active]
  have busy := counted.busy member
  have moved (j : Nat) : m'.store.meter j =
      if j = id then (m.store.meter j).leave else m.store.meter j := by
    rw [Store.meter_congr meters, Store.meter_leave]
  constructor
  · rw [meters, Store.leave, Array.size_modify, counted.size]
  · intro j
    rw [moved, ← counted.limit]
    split <;> rfl
  · intro j
    have before := counted.depth j
    rw [active, List.count_cons] at before
    rw [moved]
    by_cases same : j = id
    · subst same
      simp only [beq_self_eq_true, if_true, Meter.leave] at before ⊢
      omega
    · have other : (id == j) = false := by simpa using Ne.symm same
      simpa [same, other] using before
  · intro j still
    have before := counted.within j (by simp [active, still])
    rw [moved]
    split
    · simp only [Meter.leave]
      omega
    · exact before
  · have limit := counted.limit id
    have within := counted.within id member
    have one := Store.headroom_leave busy (by omega)
    have units := counted.headroom
    rw [active, List.length_cons] at units
    rw [Store.headroom_congr meters]
    omega

theorem Counted.next (counted : Counted s m) (next : Next m m') : Counted s m' := by
  rcases next.meters_cases with ⟨meters, active⟩ | ⟨id, free, meters, active⟩ |
    ⟨id, meters, active⟩
  · exact counted.of_same meters active
  · exact counted.of_enter free meters active
  · exact counted.of_leave meters active

theorem Counted.leads (counted : Counted s m) (leads : Leads m m') : Counted s m' :=
  leads.preserves (fun _ _ next counted => counted.next next) counted

theorem Counted.moves (counted : Counted s m) (next : Next m m') (id : Nat) :
    (m.store.meter id).Moves (m'.store.meter id) := by
  rcases next.meters_cases with ⟨meters, -⟩ | ⟨j, free, meters, -⟩ | ⟨j, meters, active⟩
  · exact .inl (Store.meter_congr meters id)
  · have bound : j < m.store.meters.size := Store.lt_size_of_limit (by omega)
    rw [Store.meter_congr meters, Store.meter_enter bound]
    by_cases same : id = j
    · subst same
      exact .inr (.inl ⟨free, if_pos rfl⟩)
    · exact .inl (if_neg same)
  · have busy := counted.busy (show j ∈ m.active by simp [active])
    rw [Store.meter_congr meters, Store.meter_leave]
    by_cases same : id = j
    · subst same
      exact .inr (.inr ⟨busy, if_pos rfl⟩)
    · exact .inl (if_neg same)

theorem Counted.le_limit (counted : Counted s m)
    (before : (s.meter id).depth ≤ (s.meter id).limit) :
    (m.store.meter id).depth ≤ (m.store.meter id).limit := by
  rw [counted.limit]
  by_cases active : id ∈ m.active
  · exact counted.within id active
  · rw [counted.depth, List.count_eq_zero_of_not_mem active]
    exact before

theorem Counted.length_le (counted : Counted s m) (idle : s.Idle) {involved : Finset Nat}
    (all : ∀ id ∈ m.active, id ∈ involved) :
    m.active.length ≤ ∑ id ∈ involved, (s.meter id).limit := by
  have total : ∑ id ∈ involved, m.active.count id = m.active.length := by
    simpa using Multiset.sum_count_eq_card (m := (m.active : Multiset Nat)) all
  rw [← total]
  refine Finset.sum_le_sum fun id _ => ?_
  have within := counted.le_limit (show (s.meter id).depth ≤ _ by rw [idle]; exact Nat.zero_le _)
  rw [counted.limit, counted.depth, idle, Nat.zero_add] at within
  exact within

theorem Counted.length_le_of_single (counted : Counted s m) (idle : s.Idle)
    (single : s.meters.size = 1) : m.active.length ≤ (s.meter 0).limit := by
  have only (id : Nat) (active : id ∈ m.active) : id ∈ ({0} : Finset Nat) := by
    have busy := counted.busy active
    have within := counted.within id active
    have bound : id < s.meters.size := Store.lt_size_of_limit (by omega)
    rw [Finset.mem_singleton]
    omega
  have total := counted.length_le idle only
  rwa [Finset.sum_singleton] at total

/-- When no call is active, every meter stands where it stood. -/
theorem Counted.meter_of_active (counted : Counted s m) (none : m.active = []) (id : Nat) :
    m.store.meter id = s.meter id := by
  have limit := counted.limit id
  have depth := counted.depth id
  rw [none, List.count_nil, Nat.add_zero] at depth
  generalize m.store.meter id = now at limit depth ⊢
  cases now
  cases limit
  cases depth
  rfl

theorem Counted.meters_ended {r : EStateM.Result EvalError Store Value}
    (counted : Counted s (ended r)) : (ended r).store.meters = s.meters := by
  have none : (ended r).active = [] := by cases r <;> rfl
  refine Array.ext counted.size fun id now before => ?_
  have := counted.meter_of_active none id
  rwa [Store.meter_eq, Store.meter_eq, Array.getElem?_eq_getElem now,
    Array.getElem?_eq_getElem before] at this

end Moment

open Moment

theorem Tree.meters_eval (t : Tree) (scope : Scope) (meter : Nat) (s : Store) :
    ((t.eval meter scope).after s).meters = s.meters := by
  have ends := ((counted_start t scope meter s).leads (t.leads_eval scope meter s)).meters_ended
  rwa [store_ended] at ends

theorem Function.meters_call (f : Function) (values : List Value) (s : Store) :
    ((f.call values).after s).meters = s.meters := by
  cases code : f.code with
  | builtin b =>
    rw [after_call_of_builtin code]
    unfold Store.afterBuiltin
    split <;> rfl
  | closure c =>
    rw [after_call_of_closure code]
    exact c.body.meters_eval _ _ _

theorem Store.lasting_idle : Lasting Idle where
  record _ _ h := h
  print _ _ h := h
  bind _ _ _ _ h := h
  newFrame _ _ _ h := h
  newFunction _ _ _ h := h
  newMeter s limit h := by
    intro id
    rw [meter_newMeter]
    split
    · rfl
    · exact h id
  eval t scope meter s h := by
    intro id
    rw [meter_congr (t.meters_eval scope meter s)]
    exact h id

theorem Session.Reachable.idle {session : Session} (reachable : session.Reachable) :
    session.store.Idle :=
  reachable.keeps Store.lasting_idle fun _ => rfl

/-- Between two steps of a session no meter counts a call. During an evaluation each meter is above
its place at the start by the calls that it let in and that are inside their callees; it moves by
one within its limit, and the end leaves every meter as the start found it. So the calls that are
active at once never outnumber the limits of the meters they are counted on. -/
theorem Tree.eval_counted :
    (∀ session : Session, session.Reachable → session.store.Idle) ∧
    ∀ (t : Tree) (scope : Scope) (meter : Nat) (s : Store),
      Leads (start t scope meter s) (ended (t.eval meter scope s)) ∧
      ((t.eval meter scope).after s).meters = s.meters ∧
      ∀ m, Leads (start t scope meter s) m →
        (∀ id, m.store.meter id =
          ⟨(s.meter id).depth + m.active.count id, (s.meter id).limit⟩) ∧
        (∀ id, (s.meter id).depth ≤ (s.meter id).limit →
          (m.store.meter id).depth ≤ (m.store.meter id).limit) ∧
        (∀ m', Next m m' → ∀ id, (m.store.meter id).Moves (m'.store.meter id)) ∧
        (s.Idle → ∀ involved : Finset Nat, (∀ id ∈ m.active, id ∈ involved) →
          m.active.length ≤ ∑ id ∈ involved, (s.meter id).limit) ∧
        (s.Idle → s.meters.size = 1 → m.active.length ≤ (s.meter 0).limit) := by
  refine ⟨fun _ reachable => reachable.idle, fun t scope meter s =>
    ⟨t.leads_eval scope meter s, t.meters_eval scope meter s, fun m leads => ?_⟩⟩
  have counted := (counted_start t scope meter s).leads leads
  refine ⟨fun id => ?_, fun _ => counted.le_limit, fun _ => counted.moves,
    fun idle _ => counted.length_le idle, counted.length_le_of_single⟩
  rw [← counted.depth, ← counted.limit]

namespace Store

/-- A function that calls itself and nothing else, on a meter with this limit. -/
def selfCalling (limit : Nat) : Store :=
  (declare { frames := #[[]], meters := #[{ limit }] } "f" ⟨[], .call "f" [] {}, ⟨0, []⟩, 0⟩).2

end Store

/-- A call that the evaluation has begun is active in its body, and no second one can be. -/
theorem Tree.eval_counted_selfCalling :
    (Session.start 1).Reachable ∧ (Session.start 1).store.Idle ∧
    (Store.selfCalling 1).Idle ∧ (Store.selfCalling 1).meters.size = 1 ∧
    ∃ m, Leads (start (.call "f" [] {}) ⟨0, []⟩ 0 (Store.selfCalling 1)) m ∧ m.active = [0] ∧
      m.store.meter 0 = ⟨1, 1⟩ ∧ m.active.length ≤ 1 := by
  have called := Next.call "f" [] {} ⟨0, []⟩ 0 [] (Store.selfCalling 1) (by decide)
  have entered := Next.entered ⟨"f", {}, ⟨0, []⟩, 0⟩ [] [] (Store.selfCalling 1) _ rfl (by decide)
  have leads := called.leads (.single entered)
  have idle : (Store.selfCalling 1).Idle := fun id => by cases id <;> rfl
  have counted := (Tree.eval_counted.2 _ _ _ _).2.2 _ leads
  exact ⟨.start 1, Tree.eval_counted.1 _ (.start 1), idle, rfl, _, leads, rfl, counted.1 0,
    counted.2.2.2.2 idle rfl⟩

/-- A budget beyond the headroom makes no difference. -/
theorem Tree.evalWith_eq (t : Tree) (scope : Scope) (meter : Nat) {s : Store} {budget : Nat}
    (enough : s.headroom ≤ budget) : t.evalWith (Function.invoke budget) meter scope s =
      Action.mapError .failed (t.eval meter scope) s := by
  have ends : Trial.Ends s (t.evalWith (Function.invoke budget) meter scope s) :=
    steady_evalWith (Function.steady_invoke budget) scope t s enough
  have found := finds_evalWith (Function.applies_invoke budget) scope meter t [] s
  have whole := t.leads_eval scope meter s
  cases out : t.evalWith (Function.invoke budget) meter scope s with
  | ok v s' =>
    rw [out] at found
    have run : t.eval meter scope s = .ok v s' := whole.ended_unique found
    exact (Action.mapError_of_ok _ run).symm
  | error e s' =>
    rw [out] at ends found
    cases e with
    | failed e =>
      have run : t.eval meter scope s = .error e s' := whole.ended_unique found
      exact (Action.mapError_of_error _ run).symm
    | exhausted => exact ends.elim

/-- Every evaluation ends in a value or a failure: from its start the moments lead there, each of
them can go on until then, and they cannot go on for ever. No meter is made on the way and no limit
changes; an active call has taken one unit of the headroom there was. A budget of that headroom,
or any larger one, finds the same outcome. -/
theorem Tree.eval_ends (t : Tree) (scope : Scope) (meter : Nat) (s : Store) :
    Leads (start t scope meter s) (ended (t.eval meter scope s)) ∧
    (¬ ∃ moments : Nat → Moment, moments 0 = start t scope meter s ∧
      ∀ n, Next (moments n) (moments (n + 1))) ∧
    (∀ m, Leads (start t scope meter s) m →
      (m = ended (t.eval meter scope s) ∨ ∃ m', Next m m') ∧
      m.store.meters.size = s.meters.size ∧
      (∀ id, (m.store.meter id).limit = (s.meter id).limit) ∧
      m.store.headroom + m.active.length = s.headroom) ∧
    (∀ budget, s.headroom ≤ budget → t.evalWith (Function.invoke budget) meter scope s =
      Action.mapError .failed (t.eval meter scope) s) := by
  have whole := t.leads_eval scope meter s
  refine ⟨whole, whole.not_endless, fun m leads => ?_, fun budget enough => ?_⟩
  · have counted := (counted_start t scope meter s).leads leads
    exact ⟨(leads.rest whole).goes_on, counted.size, counted.limit, counted.headroom⟩
  · exact t.evalWith_eq scope meter enough

theorem Tree.eval_ends_selfCalling : (Store.selfCalling 3).headroom ≤ 5 ∧
    Tree.evalWith (Function.invoke 5) 0 ⟨0, []⟩ (.call "f" [] {}) (Store.selfCalling 3) =
      Action.mapError .failed (Tree.eval 0 ⟨0, []⟩ (.call "f" [] {})) (Store.selfCalling 3) :=
  have enough : (Store.selfCalling 3).headroom ≤ 5 := by decide
  ⟨enough, (Tree.eval_ends (.call "f" [] {}) ⟨0, []⟩ 0 (Store.selfCalling 3)).2.2.2 5 enough⟩

end Lispette
