import Lispette.Proofs.Mirrors
import Lispette.Proofs.Names

/-!
Two runs of which the second has another name for a parameter of one function. Frames, functions and
meters have the same numbers in both. The frames that calls of the function make, and those inside
them, bind the new name where the first run binds the old one; all other frames bind the same names.
A chain that begins inside goes outside only behind a frame that binds the parameter.
-/

namespace Lispette

open List (Forall₂)

/-- A renaming, and the number of the function whose parameter it renames. -/
structure Rewording extends Renaming where
  function : Nat

/-- A frame stands outside of all calls of the function, is made by one, or stands inside of one. -/
inductive Zone
  | outside | root | inside
  deriving DecidableEq

namespace Zone

/-- The side on which the names of the frame are read. -/
def side : Zone → Side
  | .outside => .outside
  | .root | .inside => .inside

/-- The side on which the frames around it are read. -/
def around : Zone → Side
  | .outside | .root => .outside
  | .inside => .inside

end Zone

/-- A chain of frames that is read from that side. -/
inductive Chained (zones : List Zone) : Side → List Nat → Prop
  | nil : Chained zones .outside []
  | cons {zone : Zone} {side : Side} {id : Nat} {ids : List Nat} (here : zones[id]? = some zone)
    (reads : zone.side = side) (rest : Chained zones zone.around ids) :
    Chained zones side (id :: ids)

/-- The same function, or one that reads other names in its body. -/
inductive Function.Reworded (ρ : Rewording) (zones : List Zone) : Function → Function → Prop
  | builtin {id : Nat} {name : String} {b : Builtin} :
    Reworded ρ zones ⟨id, name, .builtin b⟩ ⟨id, name, .builtin b⟩
  | closure {id meter : Nat} {name : String} {parameters : List String} {body body' : Tree}
    {scope : Scope} (zone : Zone) (bodies : body.Renamed ρ.toRenaming zone.side body')
    (allowed : ∀ n ∈ parameters, ρ.Allows zone.side n)
    (chained : Chained zones zone.around scope.chain) (root : zone = .root → id = ρ.function) :
    Reworded ρ zones ⟨id, name, .closure ⟨parameters, body, scope, meter⟩⟩
      ⟨id, name, .closure ⟨parameters.map (ρ.read zone.side), body', scope, meter⟩⟩

inductive Value.Reworded (ρ : Rewording) (zones : List Zone) : Value → Value → Prop
  | plain {v : Value} (plain : v.kind ≠ .function) : Reworded ρ zones v v
  | function {f g : Function} (functions : f.Reworded ρ zones g) :
    Reworded ρ zones (.function f) (.function g)

namespace Rewording

/-- The value is bound to the name as it is read on that side. -/
structure Bindings (ρ : Rewording) (zones : List Zone) (side : Side) (b b' : String × Value) :
    Prop where
  allowed : ρ.Allows side b.1
  name : b'.1 = ρ.read side b.1
  value : b.2.Reworded ρ zones b'.2

abbrev values (ρ : Rewording) (zones : List Zone) : List Value → List Value → Prop :=
  Forall₂ (Value.Reworded ρ zones)

/-- The failure is the same, or reports the new name. -/
def Failures (ρ : Rewording) (e e' : EvalError) : Prop :=
  ∃ side, e' = e.rename (ρ.read side)

end Rewording

/-- The zones are those of the frames there are; a frame that a call of the function has made binds
the parameter. What can be seen of what was printed is the same. -/
structure Store.Reworded (ρ : Rewording) (zones : List Zone) (s t : Store) : Prop where
  zoned : zones.length = s.frames.size
  frames : t.frames.size = s.frames.size
  frame {id : Nat} {zone : Zone} (here : zones[id]? = some zone) :
    Forall₂ (ρ.Bindings zones zone.side) (s.frame id) (t.frame id)
  root {id : Nat} (here : zones[id]? = some .root) : (s.frame id).lookup ρ.old ≠ none
  functionCount : t.functionCount = s.functionCount
  meters : t.meters = s.meters
  printed : t.printed.toList.map (·.map Value.seen) = s.printed.toList.map (·.map Value.seen)

inductive Site.Reworded (ρ : Rewording) (zones : List Zone) (side : Side) : Site → Site → Prop
  | mk {head : String} {p : Position} {scope : Scope} {meter : Nat} (allowed : ρ.Allows side head)
    (chained : Chained zones side scope.chain) :
    Reworded ρ zones side ⟨head, p, scope, meter⟩ ⟨ρ.read side head, p, scope, meter⟩

inductive Focus.Reworded (ρ : Rewording) (zones : List Zone) : Focus → Focus → Prop
  | tree {side : Side} {t t' : Tree} {scope : Scope} {meter : Nat}
    (trees : t.Renamed ρ.toRenaming side t') (chained : Chained zones side scope.chain) :
    Reworded ρ zones (.tree t scope meter) (.tree t' scope meter)
  | arguments {side : Side} {site site' : Site} {vs ws : List Value} {ts us : List Tree}
    (sites : site.Reworded ρ zones side site') (values : ρ.values zones vs ws)
    (trees : Forall₂ (Tree.Renamed ρ.toRenaming side) ts us) :
    Reworded ρ zones (.arguments site vs ts) (.arguments site' ws us)
  | body {f g : Function} {vs ws : List Value} (functions : f.Reworded ρ zones g)
    (values : ρ.values zones vs ws) : Reworded ρ zones (.body f vs) (.body g ws)
  | value {v w : Value} (values : v.Reworded ρ zones w) :
    Reworded ρ zones (.result (.ok v)) (.result (.ok w))
  | failure {e e' : EvalError} (failures : ρ.Failures e e') :
    Reworded ρ zones (.result (.error e)) (.result (.error e'))

inductive Pending.Reworded (ρ : Rewording) (zones : List Zone) : Pending → Pending → Prop
  | statements {side : Side} {ts us : List Tree} {scope : Scope} {meter : Nat}
    (trees : Forall₂ (Tree.Renamed ρ.toRenaming side) ts us)
    (chained : Chained zones side scope.chain) :
    Reworded ρ zones (.statements ts scope meter) (.statements us scope meter)
  | binding {side : Side} {name : String} {scope : Scope} (allowed : ρ.Allows side name)
    (chained : Chained zones side scope.chain) :
    Reworded ρ zones (.binding name scope) (.binding (ρ.read side name) scope)
  | branches {side : Side} {yes yes' no no' : Tree} {p : Position} {scope : Scope} {meter : Nat}
    (affirmed : yes.Renamed ρ.toRenaming side yes') (denied : no.Renamed ρ.toRenaming side no')
    (chained : Chained zones side scope.chain) :
    Reworded ρ zones (.branches yes no p scope meter) (.branches yes' no' p scope meter)
  | argument {side : Side} {site site' : Site} {vs ws : List Value} {ts us : List Tree}
    (sites : site.Reworded ρ zones side site') (values : ρ.values zones vs ws)
    (trees : Forall₂ (Tree.Renamed ρ.toRenaming side) ts us) :
    Reworded ρ zones (.argument site vs ts) (.argument site' ws us)
  | callee {side : Side} {site site' : Site} (sites : site.Reworded ρ zones side site') :
    Reworded ρ zones (.callee site) (.callee site')

structure Moment.Reworded (ρ : Rewording) (zones : List Zone) (m m' : Moment) : Prop where
  focus : m.focus.Reworded ρ zones m'.focus
  pending : Forall₂ (Pending.Reworded ρ zones) m.pending m'.pending
  store : m.store.Reworded ρ zones m'.store

/-- Whatever stands early enough in the first list has a partner in the second. -/
theorem exists_mem_zip {α β : Type} {as : List α} {bs : List β} {a : α}
    (early : a ∈ as.take bs.length) : ∃ b, (a, b) ∈ as.zip bs := by
  induction bs generalizing as with
  | nil => cases early
  | cons b bs ih =>
    cases as with
    | nil => cases early
    | cons a' as =>
      rcases List.mem_cons.mp early with rfl | later
      · exact ⟨b, List.mem_cons_self⟩
      · obtain ⟨b', member⟩ := ih later
        exact ⟨b', List.mem_cons_of_mem _ member⟩

variable {ρ : Rewording} {zones : List Zone}

section mono

variable {zones' : List Zone} (more : zones <+: zones')
include more

theorem Chained.mono {side : Side} {ids : List Nat} (chained : Chained zones side ids) :
    Chained zones' side ids := by
  induction chained with
  | nil => exact .nil
  | cons here reads _ ih =>
    obtain ⟨bound, same⟩ := List.getElem?_eq_some_iff.mp here
    have still := List.prefix_iff_getElem?.mp more _ bound
    exact .cons (still.trans (congrArg some same)) reads ih

theorem Function.Reworded.mono {f g : Function} (functions : f.Reworded ρ zones g) :
    f.Reworded ρ zones' g := by
  cases functions with
  | builtin => exact .builtin
  | closure zone bodies allowed chained root =>
    exact .closure zone bodies allowed (chained.mono more) root

theorem Value.Reworded.mono {v w : Value} (values : v.Reworded ρ zones w) :
    v.Reworded ρ zones' w := by
  cases values with
  | plain plain => exact .plain plain
  | function functions => exact .function (functions.mono more)

theorem Rewording.values_mono {vs ws : List Value} (values : ρ.values zones vs ws) :
    ρ.values zones' vs ws :=
  values.imp fun _ _ => Value.Reworded.mono more

theorem Rewording.Bindings.mono {side : Side} {b b' : String × Value}
    (bound : ρ.Bindings zones side b b') : ρ.Bindings zones' side b b' :=
  ⟨bound.allowed, bound.name, bound.value.mono more⟩

theorem Site.Reworded.mono {side : Side} {site site' : Site}
    (sites : site.Reworded ρ zones side site') : site.Reworded ρ zones' side site' := by
  obtain ⟨allowed, chained⟩ := sites
  exact ⟨allowed, chained.mono more⟩

theorem Pending.Reworded.mono {q q' : Pending} (waiting : q.Reworded ρ zones q') :
    q.Reworded ρ zones' q' := by
  cases waiting with
  | statements trees chained => exact .statements trees (chained.mono more)
  | binding allowed chained => exact .binding allowed (chained.mono more)
  | branches affirmed denied chained => exact .branches affirmed denied (chained.mono more)
  | argument sites values trees =>
    exact .argument (sites.mono more) (Rewording.values_mono more values) trees
  | callee sites => exact .callee (sites.mono more)

end mono

theorem Value.likeness_reworded : Value.Likeness (Value.Reworded ρ zones) where
  plain related plain := by
    cases related with
    | plain => rfl
    | function => exact absurd rfl plain
  function related := by
    cases related with
    | plain plain => exact absurd rfl plain
    | function => exact ⟨_, rfl⟩
  identity related related' := by
    have same {f g : Function} (functions : f.Reworded ρ zones g) : g.id = f.id := by
      cases functions <;> rfl
    cases related with
    | plain plain => exact absurd rfl plain
    | function functions =>
      cases related' with
      | plain plain => exact absurd rfl plain
      | function functions' => rw [same functions, same functions']

theorem Value.Reworded.seen {v w : Value} (values : v.Reworded ρ zones w) : w.seen = v.seen := by
  cases values with
  | plain => rfl
  | function functions => cases functions <;> rfl

/-- What is bound to a name in a frame is bound, in the other run, to the name as it is read. -/
theorem Rewording.lookup_bindings {side : Side} {frame frame' : Frame} {name : String}
    (allowed : ρ.Allows side name) (same : Forall₂ (ρ.Bindings zones side) frame frame') :
    Option.Rel (Value.Reworded ρ zones) (frame.lookup name)
      (frame'.lookup (ρ.read side name)) := by
  induction same with
  | nil => exact .none
  | @cons b b' frame frame' first rest ih =>
    obtain ⟨key, v⟩ := b
    obtain ⟨key', w⟩ := b'
    obtain ⟨free, named, bound⟩ := first
    dsimp only at free named bound
    subst named
    rw [List.lookup_cons, List.lookup_cons, Renaming.read_beq allowed free]
    cases name == key with
    | true => exact .some bound
    | false => exact ih

namespace Store

variable {s t : Store} {side : Side} {scope : Scope} {name : String} {v w : Value}

namespace Reworded

variable (stores : s.Reworded ρ zones t)
include stores

theorem lookup (chained : Chained zones side scope.chain) (allowed : ρ.Allows side name) :
    Option.Rel (Value.Reworded ρ zones) (s.lookup scope name)
      (t.lookup scope (ρ.read side name)) := by
  unfold Store.lookup
  generalize scope.chain = chain at chained
  induction chained with
  | nil => exact .none
  | @cons zone side id ids here reads rest ih =>
    subst reads
    have first := Rewording.lookup_bindings allowed (stores.frame here)
    rw [List.findSome?_cons, List.findSome?_cons]
    cases zone with
    | outside | inside =>
      generalize (s.frame id).lookup name = r, (t.frame id).lookup _ = r' at first
      cases first with
      | none => exact ih allowed
      | some values => exact .some values
    | root =>
      -- The parameter is bound here, so what is looked up further out is another name.
      have bound := stores.root here
      cases found : (s.frame id).lookup name with
      | some v =>
        rw [found] at first
        generalize (t.frame id).lookup _ = r' at first ⊢
        cases first with
        | some values => exact .some values
      | none =>
        have other : name ≠ ρ.old := fun same => bound (same ▸ found)
        rw [Renaming.read_of_ne _ other] at first ⊢
        rw [found] at first
        generalize (t.frame id).lookup name = r' at first ⊢
        cases first with
        | none => exact ih (ρ.allows_outside name)

section site

variable {site site' : Site} (sites : site.Reworded ρ zones side site')
include sites

/-- What the head of a call names in the second run. -/
theorem callee : Option.Rel (Value.Reworded ρ zones) (s.lookup site.scope site.head)
    (t.lookup site'.scope site'.head) := by
  obtain ⟨allowed, chained⟩ := sites
  exact stores.lookup chained allowed

theorem callee_none (unbound : s.lookup site.scope site.head = none) :
    t.lookup site'.scope site'.head = none := by
  have found := stores.callee sites
  rw [unbound] at found
  generalize t.lookup site'.scope site'.head = r at found ⊢
  cases found
  rfl

theorem callee_some (bound : s.lookup site.scope site.head = some v) :
    ∃ w, t.lookup site'.scope site'.head = some w ∧ v.Reworded ρ zones w := by
  have found := stores.callee sites
  rw [bound] at found
  generalize t.lookup site'.scope site'.head = r at found ⊢
  cases found with
  | some values => exact ⟨_, rfl, values⟩

theorem callee_function {f : Function}
    (bound : s.lookup site.scope site.head = some (.function f)) :
    ∃ g, t.lookup site'.scope site'.head = some (.function g) ∧ f.Reworded ρ zones g := by
  obtain ⟨w, bound', values⟩ := stores.callee_some sites bound
  cases values with
  | plain plain => exact absurd rfl plain
  | function functions => exact ⟨_, bound', functions⟩

end site

theorem meter (id : Nat) : t.meter id = s.meter id := by
  rw [Store.meter, Store.meter, stores.meters]

theorem record (e e' : Entry) : (s.record e).Reworded ρ zones (t.record e') where
  __ := stores

theorem enter (id : Nat) : (s.enter id).Reworded ρ zones (t.enter id) where
  __ := stores
  meters := by rw [Store.enter, Store.enter, stores.meters]

theorem leave (id : Nat) : (s.leave id).Reworded ρ zones (t.leave id) where
  __ := stores
  meters := by rw [Store.leave, Store.leave, stores.meters]

theorem afterBuiltin (b : Builtin) {vs ws : List Value} (values : ρ.values zones vs ws) :
    (s.afterBuiltin b vs).Reworded ρ zones (t.afterBuiltin b ws) := by
  have seen : ws.map Value.seen = vs.map Value.seen :=
    map_eq_of_forall₂ values fun _ _ => Value.Reworded.seen
  unfold Store.afterBuiltin
  split
  · refine { stores with printed := ?_ }
    rw [Store.print, Store.print, Array.toList_push, Array.toList_push, List.map_append,
      List.map_append, stores.printed, List.map_singleton, List.map_singleton, seen]
  · exact stores

theorem bind (chained : Chained zones side scope.chain) (allowed : ρ.Allows side name)
    (bound : v.Reworded ρ zones w) :
    (s.bind scope name v).Reworded ρ zones (t.bind scope (ρ.read side name) w) where
  __ := stores
  zoned := stores.zoned.trans (size_bind ..).symm
  frames := by rw [size_bind, size_bind, stores.frames]
  frame {id zone} here := by
    obtain _ | ⟨inner, reads, -⟩ := chained
    rw [frame_bind, frame_bind, stores.frames]
    split
    · next found =>
      obtain ⟨rfl, -⟩ := found
      rw [here] at inner
      cases inner
      subst reads
      exact .cons ⟨allowed, rfl, bound⟩ (stores.frame here)
    · exact stores.frame here
  root {id} here := by
    have before := stores.root here
    rw [frame_bind]
    split
    · rw [List.lookup_cons]
      cases ρ.old == name with
      | true => exact Option.some_ne_none v
      | false => exact before
    · exact before

theorem newFrame {zone : Zone} {outer : List Nat} (chained : Chained zones zone.around outer)
    {frame frame' : Frame} (bound : Forall₂ (ρ.Bindings zones zone.side) frame frame')
    (root : zone = .root → frame.lookup ρ.old ≠ none) :
    (t.newFrame outer frame').1 = (s.newFrame outer frame).1 ∧
      Chained (zones ++ [zone]) zone.side (s.newFrame outer frame).1.chain ∧
      (s.newFrame outer frame).2.Reworded ρ (zones ++ [zone]) (t.newFrame outer frame').2 := by
  have more : zones <+: zones ++ [zone] := List.prefix_append ..
  have new : (zones ++ [zone])[s.frames.size]? = some zone := by
    rw [← stores.zoned, List.getElem?_concat_length]
  have old {id : Nat} {zone' : Zone} (here : (zones ++ [zone])[id]? = some zone')
      (other : id ≠ s.frames.size) : zones[id]? = some zone' := by
    obtain ⟨bound, -⟩ := List.getElem?_eq_some_iff.mp here
    rw [List.length_append, List.length_singleton, stores.zoned] at bound
    rwa [List.getElem?_append_left (by rw [stores.zoned]; omega)] at here
  refine ⟨?_, .cons new rfl (chained.mono more), ?_, ?_, ?_, ?_, stores.functionCount,
    stores.meters, stores.printed⟩
  · exact congrArg (Scope.mk · outer) stores.frames
  · rw [size_newFrame, List.length_append, List.length_singleton, stores.zoned]
  · rw [size_newFrame, size_newFrame, stores.frames]
  · intro id zone' here
    rw [frame_newFrame, frame_newFrame, stores.frames]
    split
    · next same =>
      rw [same, new] at here
      cases here
      exact bound.imp fun _ _ => Rewording.Bindings.mono more
    · next other =>
      exact (stores.frame (old here other)).imp fun _ _ => Rewording.Bindings.mono more
  · intro id here
    rw [frame_newFrame]
    split
    · next same =>
      rw [same, new] at here
      cases here
      exact root rfl
    · next other => exact stores.root (old here other)

/-- A function whose calls make frames of that zone, declared in a scope around. -/
theorem declare (zone : Zone) (meter : Nat) {parameters : List String} {body body' : Tree}
    (bodies : body.Renamed ρ.toRenaming zone.side body')
    (allowed : ∀ n ∈ parameters, ρ.Allows zone.side n)
    (chained : Chained zones zone.around scope.chain)
    (root : zone = .root → s.functionCount = ρ.function) (named : ρ.Allows zone.around name)
    (kept : ρ.read zone.around name = name) :
    let c : Closure := ⟨parameters, body, scope, meter⟩
    let c' : Closure := ⟨parameters.map (ρ.read zone.side), body', scope, meter⟩
    (s.declare name c).1.Reworded ρ zones (t.declare name c').1 ∧
      (s.declare name c).2.Reworded ρ zones (t.declare name c').2 := by
  intro c c'
  have functions : (s.declare name c).1.Reworded ρ zones (t.declare name c').1 := by
    show Function.Reworded ρ zones ⟨s.functionCount, name, .closure c⟩
      ⟨t.functionCount, name, .closure c'⟩
    rw [stores.functionCount]
    exact .closure zone bodies allowed chained root
  have noted := stores.record (.declaring name c.parameters) (.declaring name c'.parameters)
  have made : ((s.record (.declaring name c.parameters)).newFunction name (.closure c)).2.Reworded ρ
      zones ((t.record (.declaring name c'.parameters)).newFunction name (.closure c')).2 :=
    { noted with functionCount := congrArg (· + 1) stores.functionCount }
  have bound := made.bind chained named (.function functions)
  rw [kept] at bound
  exact ⟨functions, bound⟩

/-- A call of a function makes a frame of its zone; one of the function itself has to bring an
argument for the parameter. -/
theorem enterBody {zone : Zone} {parameters : List String} (body body' : Tree) (meter : Nat)
    {vs ws : List Value} (allowed : ∀ n ∈ parameters, ρ.Allows zone.side n)
    (chained : Chained zones zone.around scope.chain)
    (given : zone = .root → ρ.old ∈ parameters.take vs.length) (values : ρ.values zones vs ws) :
    let c : Closure := ⟨parameters, body, scope, meter⟩
    let c' : Closure := ⟨parameters.map (ρ.read zone.side), body', scope, meter⟩
    (t.enterBody c' ws).1 = (s.enterBody c vs).1 ∧
      Chained (zones ++ [zone]) zone.side (s.enterBody c vs).1.chain ∧
      (s.enterBody c vs).2.Reworded ρ (zones ++ [zone]) (t.enterBody c' ws).2 := by
  intro c c'
  have bound : Forall₂ (ρ.Bindings zones zone.side) (parameters.zip vs)
      ((parameters.map (ρ.read zone.side)).zip ws) := by
    clear given
    induction values generalizing parameters with
    | nil => simp
    | cons first rest ih =>
      cases parameters with
      | nil => exact .nil
      | cons parameter parameters =>
        obtain ⟨here, others⟩ := List.forall_mem_cons.mp allowed
        exact .cons ⟨here, rfl, first⟩ (ih others)
  refine stores.newFrame chained (List.rel_reverse bound) fun root unbound => ?_
  obtain ⟨v, member⟩ := exists_mem_zip (given root)
  have other := List.lookup_eq_none_iff.mp unbound _ (List.mem_reverse.mpr member)
  exact absurd rfl (bne_iff_ne.mp other)

end Reworded

end Store

end Lispette
