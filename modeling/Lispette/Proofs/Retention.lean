import Lispette.Proofs.Missing
import Lispette.Proofs.Parameters
import Lispette.Proofs.StageStandards

/-!
Names stay bound. A binding is replaced but never taken away, whatever is evaluated, however that
ends, and whatever else is done with a session; so what a scope finds once it goes on finding, with
the value of the time. A declaration binds its name where it is evaluated, and the scope of each
call stands inside of that one, so in a body the name of the function is always found.
-/

namespace Lispette

namespace Store

variable {s t u : Store}

/-- What a frame binds it goes on binding, perhaps to another value. -/
def Retains (s t : Store) : Prop :=
  ∀ id name, ((s.frame id).lookup name).isSome → ((t.frame id).lookup name).isSome

theorem Retains.trans (first : s.Retains t) (second : t.Retains u) : s.Retains u :=
  fun id name bound => second id name (first id name bound)

theorem retains_of_eq (frames : t.frames = s.frames) : s.Retains t := by
  intro id name bound
  rwa [frame, frames]

theorem retains_bind (s : Store) (scope : Scope) (name : String) (v : Value) :
    s.Retains (s.bind scope name v) := by
  intro id other bound
  rw [frame_bind]
  split
  · rw [List.lookup_cons]
    split
    · rfl
    · exact bound
  · exact bound

/-- A new frame takes the place of none: a frame that was not made binds nothing. -/
theorem retains_newFrame (s : Store) (outer : List Nat) (frame : Frame) :
    s.Retains (s.newFrame outer frame).2 := by
  intro id name bound
  have old : id < s.frames.size := by
    by_contra new
    rw [frame_of_le (Nat.le_of_not_lt new)] at bound
    cases bound
  rwa [frame_newFrame_of_lt outer frame old]

theorem Retains.lookup (retains : s.Retains t) {scope inner : Scope} {name : String} {v : Value}
    (around : scope.chain <:+ inner.chain) (found : s.lookup scope name = some v) :
    ∃ w, t.lookup inner name = some w := by
  obtain ⟨id, member, bound⟩ := List.exists_of_findSome?_eq_some found
  have still : ((t.frame id).lookup name).isSome := retains id name (Option.isSome_of_eq_some bound)
  exact Option.isSome_iff_exists.mp
    (List.findSome?_isSome_iff.mpr ⟨id, around.subset member, still⟩)

end Store

theorem Moment.Next.retains {m m' : Moment} (next : Next m m') : m.store.Retains m'.store := by
  cases next with
  | function name parameters body p scope meter k s | bound v name scope k s =>
    exact (Store.retains_of_eq rfl).trans (Store.retains_bind _ scope name _)
  | closure f c values k s code => exact s.retains_newFrame c.scope.chain _
  | builtin f b values site k s code => exact Store.retains_of_eq (s.frames_afterBuiltin values b)
  | _ => exact Store.retains_of_eq rfl

theorem Moment.Leads.retains {m m' : Moment} (leads : Leads m m') : m.store.Retains m'.store :=
  leads.preserves (P := fun m' => m.store.Retains m'.store)
    (fun _ _ next before => before.trans next.retains) (Store.retains_of_eq rfl)

theorem Store.lasting_retains (first : Store) : Lasting first.Retains where
  record _ _ before := before
  print _ _ before := before
  bind s scope name v before := before.trans (s.retains_bind scope name v)
  newFrame s outer frame before := before.trans (s.retains_newFrame outer frame)
  newMeter _ _ before := before
  newFunction _ _ _ before := before
  eval t scope meter s before := by
    have leads := t.leads_eval scope meter s
    rw [← Moment.store_ended]
    exact before.trans leads.retains

/-- What comes of it when a name is looked up and the value is found: it is the result, or it is
called if a call can begin. -/
inductive Focus.Takes (v : Value) (p : Position) : Focus → Prop
  | value : Takes v p (.result (.ok v))
  | called (f : Function) (values : List Value) (same : v = .function f) :
    Takes v p (.body f values)
  | tooDeep (f : Function) (limit : Nat) (same : v = .function f) :
    Takes v p (.result (.error ⟨.tooDeep limit, p⟩))
  | notCallable (other : ∀ f, v ≠ .function f) :
    Takes v p (.result (.error ⟨.notCallable v.kind, p⟩))

namespace Moment

variable {m m' : Moment} {scope : Scope} {name : String} {p : Position} {v : Value}

theorem exists_next_of_found (reading : m.focus.reads? = some ⟨name, p, scope⟩)
    (found : m.store.lookup scope name = some v) : ∃ m', Next m m' ∧ m'.focus.Takes v p := by
  obtain ⟨focus, k, s⟩ := m
  rcases Focus.of_reads? reading with ⟨meter, rfl⟩ | ⟨meter, values, rfl⟩
  · exact ⟨_, .identifier_of_bound found p meter k, .value⟩
  · by_cases callable : ∃ f, v = .function f
    · obtain ⟨f, rfl⟩ := callable
      by_cases free : (s.meter meter).depth < (s.meter meter).limit
      · exact ⟨_, .entered _ values k s f found free, .called f values rfl⟩
      · exact ⟨_, .tooDeep _ values k s f found free, .tooDeep f _ rfl⟩
    · have other (f : Function) : v ≠ .function f := fun same => callable ⟨f, same⟩
      exact ⟨_, .notCallable _ values k s v found other, .notCallable other⟩

/-- The name has a value in the scope, and wherever it is looked up there, that value is taken and
the look-up does not fail. -/
def Resolves (m : Moment) (scope : Scope) (name : String) : Prop :=
  ∃ v, m.store.lookup scope name = some v ∧
    ∀ p, m.focus.reads? = some ⟨name, p, scope⟩ →
      (∃ m', Next m m' ∧ m'.focus.Takes v p) ∧
      ∀ m', Next m m' → ∀ q, m'.focus ≠ .result (.error ⟨.notDefined name, q⟩)

theorem resolves_of_found (found : m.store.lookup scope name = some v) : m.Resolves scope name := by
  refine ⟨v, found, fun p reading => ?_⟩
  obtain ⟨m', next, takes⟩ := exists_next_of_found reading found
  refine ⟨⟨m', next, takes⟩, fun m'' next' q failing => ?_⟩
  rw [next'.unique next] at failing
  rw [failing] at takes
  cases takes

end Moment

namespace Stage

variable {s s' : Session} {answered : List Value} {x : Step} {answer : Answer} {st st' : Stage}
  {m m' : Moment} {scope inner : Scope} {name : String} {v : Value}

/-- What may come after a stage, whatever values the steps give. -/
inductive Next : Stage → Stage → Prop
  | idle {s s' : Session} {answered : List Value} {x : Step} {answer : Answer}
      (idle : s.begins? x = none) (taken : s.step x = some (answer, s')) :
      Next (.resting s answered) (.resting s' (answered ++ answer.value?.toList))
  | begun {s : Session} {answered : List Value} {x : Step} {m : Moment}
      (begins : s.begins? x = some m) : Next (.resting s answered) (.within s answered m)
  | next {s : Session} {answered : List Value} {m m' : Moment} (next : Moment.Next m m') :
      Next (.within s answered m) (.within s answered m')
  | returned {s : Session} {answered : List Value} {v : Value} {t : Store} :
      Next (.within s answered ⟨.result (.ok v), [], t⟩)
        (.resting { s with store := t } (answered ++ [v]))
  | failed {s : Session} {answered : List Value} {e : EvalError} {t : Store} :
      Next (.within s answered ⟨.result (.error e), [], t⟩)
        (.resting { s with store := t } answered)

def Leads : Stage → Stage → Prop :=
  Relation.ReflTransGen Next

theorem leads_within (s : Session) (answered : List Value) (leads : Moment.Leads m m') :
    Leads (.within s answered m) (.within s answered m') :=
  leads.lift (Stage.within s answered) fun _ _ => .next

/-- A step of a session is taken in stages. -/
theorem leads_step (taken : s.step x = some (answer, s')) (answered : List Value) :
    Leads (.resting s answered) (.resting s' (answered ++ answer.value?.toList)) := by
  cases begins : s.begins? x with
  | none => exact .single (.idle begins taken)
  | some m =>
    obtain ⟨r, leads, tells, rfl⟩ := Session.exists_tells begins taken
    have within : Leads (.resting s answered) (.within s answered (Moment.ended r)) :=
      .head (.begun begins) (leads_within s answered leads)
    cases tells with
    | value v t | called name v t => exact within.tail .returned
    | failure e t | callFailure e t =>
      show Leads _ (.resting _ (answered ++ []))
      rw [List.append_nil]
      exact within.tail .failed

theorem Next.retains (next : Next st st') : st.session.store.Retains st'.session.store := by
  cases next with
  | idle idle taken =>
    exact Session.keeps_step (Store.lasting_retains _) taken (Store.retains_of_eq rfl)
  | begun begins =>
    cases Session.begins begins with
    | tree meter told named noted => exact Store.retains_of_eq noted.frames
    | body callee given => exact Store.retains_of_eq rfl
  | next next => exact next.retains
  | returned | failed => exact Store.retains_of_eq rfl

theorem Leads.retains (leads : Leads st st') : st.session.store.Retains st'.session.store := by
  induction leads with
  | refl => exact Store.retains_of_eq rfl
  | tail _ next ih => exact ih.trans next.retains

/-- Whatever follows, the name resolves in all scopes inside the given one. -/
def Settles (st : Stage) (scope : Scope) (name : String) : Prop :=
  ∀ s answered m, Leads st (.within s answered m) → ∀ inner : Scope,
    scope.chain <:+ inner.chain → m.Resolves inner name

theorem settles_of_found (found : st.session.store.lookup scope name = some v) :
    st.Settles scope name := by
  intro s answered m leads inner around
  obtain ⟨w, found⟩ := leads.retains.lookup around found
  exact Moment.resolves_of_found found

theorem Settles.later (settles : st.Settles scope name) (leads : Leads st st')
    (around : scope.chain <:+ inner.chain) : st'.Settles inner name :=
  fun s answered m rest within further =>
    settles s answered m (leads.trans rest) within (around.trans further)

theorem settles_of_declare {c : Closure} {t : Store} (has : t.HasScope c.scope) (s : Session)
    (answered : List Value) (name : String) (focus : Focus) (k : List Pending) :
    (Stage.within s answered ⟨focus, k, (t.declare name c).2⟩).Settles c.scope name :=
  settles_of_found (Store.lookup_declare has name)

/-- A call evaluates the body in a scope inside that of the declaration, not of the caller. -/
theorem Settles.called {f : Function} {c : Closure} {values : List Value} {k : List Pending}
    {t : Store} (settles : st.Settles c.scope name) (code : f.code = .closure c)
    (later : Leads st (.within s answered ⟨.body f values, k, t⟩)) :
    ∃ inner t', c.scope.chain <:+ inner.chain ∧
      Moment.Next ⟨.body f values, k, t⟩ ⟨.tree c.body inner c.meter, k, t'⟩ ∧
      (Stage.within s answered ⟨.tree c.body inner c.meter, k, t'⟩).Settles inner name := by
  have enters := Moment.Next.closure f c values k t code
  have around : c.scope.chain <:+ (t.enterBody c values).1.chain := List.suffix_cons ..
  exact ⟨_, _, around, enters, settles.later (later.tail (.next enters)) around⟩

/-- A name that a scope finds it finds in every later state, through steps, evaluations under way
and failures, with some value. So once a function is declared, its name resolves in every scope
inside that of the declaration; and each later call of it evaluates the body in such a scope. -/
theorem name_stays_bound :
    (∀ s x answer s' answered, s.step x = some (answer, s') →
      Leads (.resting s answered) (.resting s' (answered ++ answer.value?.toList))) ∧
    (∀ st st' scope name v, Leads st st' → st.session.store.lookup scope name = some v →
      ∃ w, st'.session.store.lookup scope name = some w) ∧
    ∀ allowed made s answered m, Reached allowed made (.within s answered m) →
      ∀ name parameters body p scope meter,
        m.focus = .tree (.function name parameters body p) scope meter →
        ∃ f m', m.made? = some f ∧ f.code = .closure ⟨parameters, body, scope, meter⟩ ∧
          Moment.Next m m' ∧ (Stage.within s answered m').Settles scope name ∧
          ∀ s' answered' values k t,
            Leads (.within s answered m') (.within s' answered' ⟨.body f values, k, t⟩) →
            ∃ inner t', scope.chain <:+ inner.chain ∧
              Moment.Next ⟨.body f values, k, t⟩ ⟨.tree body inner meter, k, t'⟩ ∧
              (Stage.within s' answered' ⟨.tree body inner meter, k, t'⟩).Settles inner name := by
  refine ⟨fun s x answer s' answered taken => leads_step taken answered,
    fun st st' scope name v leads found => leads.retains.lookup List.suffix_rfl found, ?_⟩
  intro allowed made s answered m reached name parameters body p scope meter declaring
  obtain ⟨focus, k, t⟩ := m
  cases declaring
  -- a binding in a frame that was never made would be lost, so this is where the run matters
  have has : t.HasScope scope := (reached.meets_any.moment _ rfl).focus.2
  have declares := Moment.Next.function name parameters body p scope meter k t
  have settles := settles_of_declare (c := ⟨parameters, body, scope, meter⟩) has s answered name
  exact ⟨_, _, rfl, rfl, declares, settles _ k, fun s' answered' values k' t' later =>
    (settles _ k).called rfl later⟩

/-- A closure that comes to what the name "f" stands for. -/
def selfNaming : Closure :=
  ⟨[], .identifier "f" {}, Session.startScope, 0⟩

def selfNamed : Function :=
  ((Session.startStore 1).declare "f" selfNaming).1

/-- The session in which the function was declared. -/
def declaring : Session :=
  (Session.single (Session.startStore 1) Session.startScope).declared "f" selfNaming

/-- The session in which its name was then bound to another value. -/
def rebound : Session :=
  { declaring with store := declaring.store.bind Session.startScope "f" .nil }

/-- The function is called all the same, and the other value is what its body finds. -/
theorem name_stays_bound_rebound : ∃ inner t,
    (Session.start 1).step (.run Session.rootName Session.mainName
      (.function "f" [] (.identifier "f" {}) {})) = some (.value (.function selfNamed), declaring) ∧
    declaring.step (.assign Session.rootName "f" (.value .nil)) = some (.done, rebound) ∧
    rebound.begins? (.call (.value (.function selfNamed)) []) =
      some ⟨.body selfNamed [], [], rebound.store⟩ ∧
    Moment.Next ⟨.body selfNamed [], [], rebound.store⟩
      ⟨.tree (.identifier "f" {}) inner 0, [], t⟩ ∧
    (Stage.within rebound [.function selfNamed]
      ⟨.tree (.identifier "f" {}) inner 0, [], t⟩).Settles inner "f" ∧
    t.lookup inner "f" = some .nil := by
  have assigned : declaring.step (.assign Session.rootName "f" (.value .nil)) =
    some (.done, rebound) := rfl
  have called : rebound.begins? (.call (.value (.function selfNamed)) []) =
    some ⟨.body selfNamed [], [], rebound.store⟩ := rfl
  have reached : Reached (fun _ => True) _ (.resting (.start 1) []) := .start 1
  rw [Session.start_eq] at reached
  have within := reached.begun (x := .run Session.rootName Session.mainName
    (.function "f" [] (.identifier "f" {}) {})) trivial
    (fun _ member => absurd member List.not_mem_nil) rfl
  obtain ⟨-, -, declared⟩ := name_stays_bound
  obtain ⟨f, m, made, -, next, -, later⟩ := declared _ _ _ _ _ within _ _ _ _ _ _ rfl
  have has : m.store.HasScope Session.startScope := (Session.meets_start .any 1).2.mono next.grows
  cases next
  obtain rfl := Option.some.inj made
  obtain ⟨inner, t, -, enters, settles⟩ := later rebound [.function selfNamed] [] [] rebound.store
    (.head .returned (.head (@Next.idle declaring rebound [_] _ _ rfl assigned)
      (.single (.begun called))))
  refine ⟨inner, t, ?_, assigned, called, enters, settles, ?_⟩
  · rw [Session.start_eq]
    exact Session.step_run_function rfl rfl ..
  · have same := enters.unique (.closure selfNamed selfNaming [] [] rebound.store rfl)
    have store : t = (rebound.store.enterBody selfNaming []).2 := congrArg Moment.store same
    have scope : inner = (rebound.store.enterBody selfNaming []).1 :=
      Option.some.inj (congrArg (fun m => m.focus.scope?) same)
    have found : rebound.store.lookup selfNaming.scope "f" = some .nil :=
      Store.lookup_bind_self has "f" .nil
    have still : rebound.store.HasScope selfNaming.scope := has.mono (Store.grows_bind ..)
    rw [store, scope, Store.lookup_enterBody still, found]
    rfl

end Stage

end Lispette
