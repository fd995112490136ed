import Mathlib.Data.List.Induction
import Lispette.Proofs.Isolation
import Lispette.Proofs.Missing

/-!
Which scopes see an assignment. Frames are shared, so what is bound through one scope may show
through many: through those whose chain holds the frame and whose nearer frames do not bind the
name. A scope inside another one answers with its own bindings first, and for all other names it
goes on answering what the outer one does, until a name is bound through the scope itself.
-/

namespace Lispette

/-- The last value that a list of bindings gives the name. -/
def lastBinding (bindings : List (String × Value)) (name : String) : Option Value :=
  (bindings.filter (·.1 = name)).getLast?.map Prod.snd

theorem lookup_reverse (bindings : List (String × Value)) (name : String) :
    bindings.reverse.lookup name = lastBinding bindings name := by
  unfold lastBinding
  induction bindings using List.reverseRecOn with
  | nil => rfl
  | append_singleton earlier binding ih =>
    rw [List.reverse_append, List.reverse_singleton, List.singleton_append, List.lookup_cons,
      List.filter_append]
    by_cases same : binding.1 = name
    · simp [same]
    · have differ : (name == binding.1) = false := beq_eq_false_iff_ne.mpr (Ne.symm same)
      simp [same, differ, ih]

theorem mapM_map_of_some {α β : Type} {f : α → Option β} {g : β → α} (each : ∀ b, f (g b) = some b)
    (bs : List β) : (bs.map g).mapM f = some bs := by
  induction bs with
  | nil => rfl
  | cons b bs ih =>
    rw [List.map_cons, List.mapM_cons, each, ih]
    rfl

namespace Store

variable {s : Store} {scope other : Scope} {name m : String} {v : Value}

/-- A look-up of the name from the scope gets as far as the frame: no nearer one binds the name. -/
def Reaches (s : Store) (scope : Scope) (name : String) (id : Nat) : Prop :=
  ∃ nearer further, scope.chain = nearer ++ id :: further ∧
    ∀ id ∈ nearer, (s.frame id).lookup name = none

theorem contains_iff (s : Store) (scope : Scope) (name : String) :
    s.contains scope name = true ↔ ∃ v, s.lookup scope name = some v := by
  have found : s.contains scope name = ((s.lookup scope name).map fun _ => ()).isSome := by
    rw [lookup, List.map_findSome?]
    rfl
  rw [found, Option.isSome_map, Option.isSome_iff_exists]

/-- What one frame says of a name comes before what the scope around it says. -/
theorem lookup_inside (s : Store) (id : Nat) (outer : Scope) (name : String) :
    s.lookup ⟨id, outer.chain⟩ name = ((s.frame id).lookup name).or (s.lookup outer name) := by
  unfold lookup
  show List.findSome? _ (id :: outer.chain) = _
  rw [List.findSome?_cons]
  cases (s.frame id).lookup name <;> rfl

theorem lookup_bind_of_ne (differ : m ≠ name) :
    (s.bind scope name v).lookup other m = s.lookup other m := by
  have same : (fun id => ((s.bind scope name v).frame id).lookup m) =
      fun id => (s.frame id).lookup m :=
    funext fun id => lookup_frame_bind v fun same => differ (Prod.ext_iff.mp same).1.symm
  rw [lookup, same, lookup]

/-- What is bound shows in every look-up that gets as far as the frame it is bound in. -/
theorem lookup_bind_of_reaches (old : scope.inner < s.frames.size)
    (reaches : s.Reaches other name scope.inner) :
    (s.bind scope name v).lookup other name = some v := by
  obtain ⟨nearer, further, chain, unbound⟩ := reaches
  unfold lookup
  rw [chain]
  clear chain
  have here : ((s.bind scope name v).frame scope.inner).lookup name = some v := by
    rw [frame_bind, if_pos ⟨rfl, old⟩, List.lookup_cons_self]
  induction nearer with
  | nil => rw [List.nil_append, List.findSome?_cons, here]
  | cons id nearer ih =>
    rw [List.cons_append, List.findSome?_cons]
    by_cases same : scope.inner = id
    · rw [← same, here]
    · rw [frame_bind_of_ne same, unbound id List.mem_cons_self]
      exact ih fun id member => unbound id (List.mem_cons_of_mem _ member)

/-- A look-up that does not get as far is not changed: either the chain does not hold the frame, or
the name is found before it. -/
theorem lookup_bind_of_not_reaches (hidden : ¬ s.Reaches other name scope.inner) :
    (s.bind scope name v).lookup other name = s.lookup other name := by
  unfold Reaches at hidden
  unfold lookup
  generalize other.chain = chain at hidden
  induction chain with
  | nil => rfl
  | cons id ids ih =>
    have differ : scope.inner ≠ id := by
      rintro rfl
      exact hidden ⟨[], ids, rfl, by simp⟩
    rw [List.findSome?_cons, List.findSome?_cons, frame_bind_of_ne differ]
    cases bound : (s.frame id).lookup name with
    | some w => rfl
    | none =>
      apply ih
      rintro ⟨nearer, further, split, unbound⟩
      exact hidden ⟨id :: nearer, further, by rw [split, List.cons_append],
        List.forall_mem_cons.mpr ⟨bound, unbound⟩⟩

/-- A new frame changes nothing for the scopes that there were. -/
theorem lookup_newFrame (has : s.HasScope scope) (outer : List Nat) (frame : Frame)
    (name : String) : (s.newFrame outer frame).2.lookup scope name = s.lookup scope name :=
  lookup_congr (fun id member => frame_newFrame_of_lt outer frame (has id member)) name

theorem lasting_size (n : Nat) : Lasting fun s => n ≤ s.frames.size where
  record _ _ h := h
  print _ _ h := h
  bind s scope name v h := by rwa [size_bind]
  newFrame s outer frame h := by
    rw [size_newFrame]
    exact Nat.le_succ_of_le h
  newMeter _ _ h := h
  newFunction _ _ _ h := h
  eval t scope meter s h := by
    rw [← Moment.store_ended]
    exact (t.leads_eval scope meter s).preserves (P := fun m => n ≤ m.store.frames.size)
      (fun _ _ next before => Nat.le_trans before next.size_le) h

end Store

namespace Session

variable {s s' t : Session} {x : Step} {answer : Answer} {name : String} {scope : Scope} {id : Nat}

/-- The sessions that steps lead to, whatever values they give. -/
inductive Arises : Session → Prop
  | start (limit : Nat) : Arises (start limit)
  | startBare (limit : Nat) : Arises (startBare limit)
  | step {s s' : Session} {x : Step} {answer : Answer} (before : Arises s)
    (taken : s.step x = some (answer, s')) : Arises s'

/-- The scope in which a step may bind the name: it assigns the name there, or runs a program. -/
def bindsIn? (s : Session) (name : String) : Step → Option Scope
  | .assign scope bound _ => if bound = name then s.scope? scope else none
  | .evaluate scope _ _ | .run scope _ _ => s.scope? scope
  | _ => none

/-- The steps lead on without the name being bound through the scope. -/
def LeadsUnbound (name : String) (scope : Scope) : Session → Session → Prop :=
  Relation.ReflTransGen fun s s' =>
    ∃ x answer, s.step x = some (answer, s') ∧ s.bindsIn? name x ≠ some scope

/-- The frames of every scope that has a name are there. -/
def Stands (s : Session) : Prop :=
  ∀ name scope, (name, scope) ∈ s.scopes → s.store.HasScope scope

theorem exists_of_bindsIn? (s : Session) (known : s.bindsIn? name x = some scope) :
    ∃ target, (target, scope) ∈ s.scopes := by
  cases x with
  | assign target bound operand =>
    rw [bindsIn?] at known
    split at known
    · exact ⟨target, scope_mem known⟩
    · cases known
  | evaluate target interpreter source | run target interpreter tree =>
    exact ⟨target, scope_mem known⟩
  | _ => cases known

theorem size_step (taken : s.step x = some (answer, s')) :
    s.store.frames.size ≤ s'.store.frames.size :=
  keeps_step (Store.lasting_size s.store.frames.size) taken (Nat.le_refl _)

/-- What a step does to the scopes that have names, and to what the frames say of a name. A scope
had a name before or stands on a new frame; and a frame that was there says the same, unless the
step may bind the name through a scope on it. -/
structure Effect (s : Session) (x : Step) (s' : Session) : Prop where
  scopes {name : String} {scope : Scope} (stands : s.Stands) (named : (name, scope) ∈ s'.scopes) :
    (∃ earlier, (earlier, scope) ∈ s.scopes) ∨
      s.store.frames.size ≤ scope.inner ∧ s'.store.HasScope scope
  frame {name : String} {id : Nat} (old : id < s.store.frames.size)
    (elsewhere : ∀ scope, s.bindsIn? name x = some scope → scope.inner ≠ id) :
    (s'.store.frame id).lookup name = (s.store.frame id).lookup name

theorem Effect.of_store {t : Store}
    (frame : ∀ name id, id < s.store.frames.size →
      (∀ scope, s.bindsIn? name x = some scope → scope.inner ≠ id) →
      (t.frame id).lookup name = (s.store.frame id).lookup name) :
    s.Effect x { s with store := t } :=
  ⟨fun _ named => .inl ⟨_, named⟩, fun old elsewhere => frame _ _ old elsewhere⟩

theorem Effect.of_made {t : Store} (made : String) (new : s.store.frames.size ≤ scope.inner)
    (has : s.Stands → t.HasScope scope)
    (frame : ∀ id, id < s.store.frames.size → t.frame id = s.store.frame id) :
    s.Effect x ({ s with store := t }.nameScope made scope) where
  scopes stands named := by
    rcases List.mem_cons.mp named with same | before
    · cases same
      exact .inr ⟨new, has stands⟩
    · exact .inl ⟨_, before⟩
  frame old _ := congrArg (List.lookup _) (frame _ old)

theorem effect_step (taken : s.step x = some (answer, s')) : s.Effect x s' := by
  cases x with
  | evaluate target interpreter source =>
    simp only [Session.step, Option.bind_eq_bind, Option.bind_eq_some_iff] at taken
    obtain ⟨meter, -, scope, known, taken⟩ := taken
    cases taken
    rw [perform_eq]
    refine .of_store fun name id old elsewhere => ?_
    rw [frame_evaluate source scope meter old (elsewhere scope known).symm]
  | run target interpreter tree =>
    simp only [Session.step, Option.bind_eq_bind, Option.bind_eq_some_iff] at taken
    obtain ⟨meter, -, scope, known, taken⟩ := taken
    cases taken
    rw [perform_eq, Action.after_mapError]
    refine .of_store fun name id old elsewhere => ?_
    rw [tree.frame_eval scope meter old (elsewhere scope known).symm]
  | assign target bound operand =>
    simp only [Session.step, Option.bind_eq_bind, Option.bind_eq_some_iff] at taken
    obtain ⟨scope, known, v, -, taken⟩ := taken
    cases taken
    refine .of_store fun name id old elsewhere => Store.lookup_frame_bind v fun same => ?_
    obtain ⟨rfl, inner⟩ := Prod.ext_iff.mp same
    exact elsewhere scope (by rw [bindsIn?, if_pos rfl, known]) inner
  | call function arguments =>
    rcases of_step_call taken with ⟨f, values, -, -, rfl⟩ | rfl
    · rw [perform_eq]
      refine .of_store fun name id old _ => ?_
      rw [f.frame_call values old]
    · exact .of_store fun _ _ _ _ => rfl
  | makeScope made =>
    cases taken
    exact .of_made made (Nat.le_refl _) (fun _ => Store.hasScope_newFrame (by simp))
      fun id old => Store.frame_newFrame_of_lt [] [] old
  | makePrelude made =>
    rw [step_makePrelude] at taken
    cases taken
    exact .of_made made (Nat.le_refl _) (fun _ => s.store.hasScope_newPrelude)
      fun id old => Store.frame_newPrelude old
  | extendScope made outer bindings =>
    simp only [Session.step, Option.bind_eq_bind, Option.bind_eq_some_iff] at taken
    obtain ⟨outer, known, bindings, -, taken⟩ := taken
    cases taken
    exact .of_made made (Nat.le_refl _)
      (fun stands => Store.hasScope_newFrame (stands _ _ (scope_mem known)))
      fun id old => Store.frame_newFrame_of_lt outer.chain _ old
  | shareScope made shared =>
    simp only [Session.step, Option.bind_eq_bind, Option.bind_eq_some_iff] at taken
    obtain ⟨scope, known, taken⟩ := taken
    cases taken
    refine ⟨fun _ named => .inl ?_, fun _ _ => rfl⟩
    rcases List.mem_cons.mp named with same | before
    · cases same
      exact ⟨shared, scope_mem known⟩
    · exact ⟨_, before⟩
  | dropScope dropped =>
    cases taken
    exact ⟨fun _ named => .inl ⟨_, (List.mem_filter.mp named).1⟩, fun _ _ => rfl⟩
  | makeInterpreter made limit =>
    cases taken
    exact ⟨fun _ named => .inl ⟨_, named⟩, fun _ _ => rfl⟩
  | compare a b =>
    simp only [Session.step, Option.bind_eq_bind, Option.bind_eq_some_iff] at taken
    obtain ⟨_, -, _, -, taken⟩ := taken
    cases taken
    exact .of_store fun _ _ _ _ => rfl
  | shareInterpreter made shared | find target bound =>
    simp only [Session.step, Option.bind_eq_bind, Option.bind_eq_some_iff] at taken
    obtain ⟨_, -, taken⟩ := taken
    cases taken
    exact ⟨fun _ named => .inl ⟨_, named⟩, fun _ _ => rfl⟩

theorem Stands.step (stands : s.Stands) (taken : s.step x = some (answer, s')) : s'.Stands := by
  intro name scope named
  rcases (effect_step taken).scopes stands named with ⟨earlier, before⟩ | ⟨-, has⟩
  · exact fun id member => Nat.lt_of_lt_of_le (stands _ _ before id member) (size_step taken)
  · exact has

theorem Arises.stands (arises : s.Arises) : s.Stands := by
  induction arises with
  | start limit => exact (start_meets .any limit).scopes
  | startBare limit => exact (startBare_meets .any limit).scopes
  | step before taken ih => exact ih.step taken

/-- The scope's innermost frame is its own: a scope that has a name and stands on it is this one. -/
structure Owns (s : Session) (scope : Scope) : Prop where
  stands : s.Stands
  old : scope.inner < s.store.frames.size
  sole : ∀ name other, (name, other) ∈ s.scopes → other.inner = scope.inner → other = scope

theorem Owns.step (owns : s.Owns scope) (taken : s.step x = some (answer, s')) :
    s'.Owns scope where
  stands := owns.stands.step taken
  old := Nat.lt_of_lt_of_le owns.old (size_step taken)
  sole name other named same := by
    rcases (effect_step taken).scopes owns.stands named with ⟨earlier, before⟩ | ⟨new, -⟩
    · exact owns.sole earlier other before same
    · have := owns.old
      omega

/-- Whatever steps follow, until the name is bound through the scope its own frame says of the name
what it said. -/
theorem LeadsUnbound.lookup_frame (leads : LeadsUnbound name scope s t) (owns : s.Owns scope) :
    (t.store.frame scope.inner).lookup name = (s.store.frame scope.inner).lookup name := by
  suffices t.Owns scope ∧
      (t.store.frame scope.inner).lookup name = (s.store.frame scope.inner).lookup name from this.2
  induction leads with
  | refl => exact ⟨owns, rfl⟩
  | @tail u u' _ step ih =>
    obtain ⟨x, answer, taken, elsewhere⟩ := step
    obtain ⟨owns, same⟩ := ih
    refine ⟨owns.step taken,
      ((effect_step taken).frame owns.old fun bound known inner => ?_).trans same⟩
    refine elsewhere (known.trans (congrArg some ?_))
    obtain ⟨target, named⟩ := u.exists_of_bindsIn? known
    exact owns.sole target bound named inner

/-- The session with a new scope inside another one. -/
def extended (s : Session) (name : String) (outer : Scope) (bindings : List (String × Value)) :
    Session :=
  { s with store := (s.store.newFrame outer.chain bindings.reverse).2 }.nameScope name
    ⟨s.store.frames.size, outer.chain⟩

theorem step_extendScope {target : String} {outer : Scope} (known : s.scope? target = some outer)
    (name : String) (bindings : List (String × Value)) :
    s.step (.extendScope name target (bindings.map fun binding => (binding.1, .value binding.2))) =
      some (.done, s.extended name outer bindings) := by
  have resolved : (bindings.map fun binding => (binding.1, Operand.value binding.2)).mapM
      (fun given => (s.resolve? given.2).map (given.1, ·)) = some bindings := by
    apply mapM_map_of_some
    exact fun binding => rfl
  simp only [Session.step, known, Option.bind_eq_bind, Option.bind_some, resolved]
  rfl

theorem owns_extended (stands : s.Stands) {target : String} {outer : Scope}
    (known : s.scope? target = some outer) (bindings : List (String × Value)) :
    (s.extended name outer bindings).Owns ⟨s.store.frames.size, outer.chain⟩ where
  stands := stands.step (step_extendScope known name bindings)
  old := by
    show _ < (s.store.newFrame outer.chain _).2.frames.size
    rw [Store.size_newFrame]
    exact Nat.lt_succ_self _
  sole earlier other named same := by
    rcases List.mem_cons.mp named with here | before
    · exact (Prod.ext_iff.mp here).2
    · have old := stands earlier other before other.inner List.mem_cons_self
      exact absurd same (Nat.ne_of_lt old)

theorem lookup_extended (stands : s.Stands) {target : String} {outer : Scope}
    (known : s.scope? target = some outer) {bindings : List (String × Value)} {m : String}
    (leads : LeadsUnbound m ⟨s.store.frames.size, outer.chain⟩ (s.extended name outer bindings) t) :
    t.store.lookup ⟨s.store.frames.size, outer.chain⟩ m =
      (lastBinding bindings m).or (t.store.lookup outer m) := by
  have own : (s.extended name outer bindings).store.frame s.store.frames.size = bindings.reverse :=
    (Store.frame_newFrame _ outer.chain _ _).trans (if_pos rfl)
  rw [Store.lookup_inside, leads.lookup_frame (owns_extended stands known bindings), own,
    lookup_reverse]

/-- An assignment is seen from just the scopes whose look-up of the name gets as far as the frame
that it is made in. Making a scope inside another one changes no look-up; the new scope answers with
the last of its own bindings or, where there is none, with what the outer one answers at the time,
until the name is bound through it. -/
theorem assignment_visible (arises : s.Arises) :
    s.Stands ∧
    (∀ target scope name v, s.scope? target = some scope →
      ∃ t, s.step (.assign target name (.value v)) = some (.done, t) ∧
        ∀ other m,
          (m = name ∧ s.store.Reaches other name scope.inner → t.store.lookup other m = some v) ∧
          (¬ (m = name ∧ s.store.Reaches other name scope.inner) →
            t.store.lookup other m = s.store.lookup other m)) ∧
    (∀ name target outer bindings, s.scope? target = some outer →
      ∃ child t,
        s.step (.extendScope name target
          (bindings.map fun binding => (binding.1, .value binding.2))) = some (.done, t) ∧
        t.scope? name = some child ∧
        (∀ scope m, s.store.HasScope scope → t.store.lookup scope m = s.store.lookup scope m) ∧
        ∀ m u, LeadsUnbound m child t u →
          u.store.lookup child m = (lastBinding bindings m).or (u.store.lookup outer m)) ∧
    ∀ scope m, s.store.contains scope m = true ↔ ∃ v, s.store.lookup scope m = some v := by
  have stands := arises.stands
  refine ⟨stands, fun target scope name v known => ?_, fun name target outer bindings known => ?_,
    s.store.contains_iff⟩
  · have old : scope.inner < s.store.frames.size :=
      stands target scope (scope_mem known) scope.inner List.mem_cons_self
    refine ⟨{ s with store := s.store.bind scope name v }, ?_,
      fun other m => ⟨?_, fun hidden => ?_⟩⟩
    · simp only [Session.step, known, Option.bind_eq_bind, Option.bind_some]
      rfl
    · rintro ⟨rfl, reaches⟩
      exact Store.lookup_bind_of_reaches old reaches
    · by_cases same : m = name
      · subst same
        exact Store.lookup_bind_of_not_reaches fun reaches => hidden ⟨rfl, reaches⟩
      · exact Store.lookup_bind_of_ne same
  · exact ⟨⟨s.store.frames.size, outer.chain⟩, s.extended name outer bindings,
      step_extendScope known name bindings, List.lookup_cons_self,
      fun scope m has => Store.lookup_newFrame has outer.chain _ m,
      fun m u leads => lookup_extended stands known leads⟩

/-- What the outer scope binds later is hidden by a binding of the inner one, and shows where there
is none. -/
theorem assignment_visible_hidden : ∃ s t child,
    (startBare 1).step (.extendScope "inner" rootName [("x", .value .nil)]) = some (.done, s) ∧
    s.Arises ∧ s.scope? "inner" = some child ∧
    s.step (.assign rootName "x" (.value (.bool true))) = some (.done, t) ∧
    t.store.lookup ⟨0, []⟩ "x" = some (.bool true) ∧ t.store.lookup child "x" = some .nil ∧
    ∃ u, t.step (.assign rootName "y" (.value .nil)) = some (.done, u) ∧
      u.store.lookup child "y" = some .nil := by
  have taken : (startBare 1).step (.extendScope "inner" rootName [("x", .value .nil)]) =
      some (.done, (startBare 1).extended "inner" ⟨0, []⟩ [("x", .nil)]) := rfl
  have arises : ((startBare 1).extended "inner" ⟨0, []⟩ [("x", .nil)]).Arises :=
    .step (.startBare 1) taken
  obtain ⟨-, assigned, -⟩ := assignment_visible arises
  obtain ⟨t, first, seen⟩ := assigned rootName ⟨0, []⟩ "x" (.bool true) rfl
  obtain ⟨-, later, -⟩ := assignment_visible (arises.step first)
  cases first
  obtain ⟨u, second, seenLater⟩ := later rootName ⟨0, []⟩ "y" .nil rfl
  refine ⟨_, _, ⟨1, [0]⟩, taken, arises, rfl, rfl, ?_, ?_, u, second, ?_⟩
  · exact (seen ⟨0, []⟩ "x").1 ⟨rfl, [], [], rfl, by simp⟩
  · refine ((seen ⟨1, [0]⟩ "x").2 ?_).trans rfl
    rintro ⟨-, nearer, further, chain, unbound⟩
    cases nearer with
    | nil => cases chain
    | cons id nearer =>
      obtain ⟨rfl, -⟩ := List.cons.inj chain
      cases unbound 1 List.mem_cons_self
  · exact (seenLater ⟨1, [0]⟩ "y").1 ⟨rfl, [1], [], rfl, by decide⟩

end Session

end Lispette
