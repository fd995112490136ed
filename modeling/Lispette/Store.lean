import Lispette.Journal

/-!
The store: everything an evaluation can change. Frames are shared by all scopes whose chains
hold them; a meter counts the calls that are under way and never lets more in than its limit.
-/

namespace Lispette

/-- The bindings of one frame, newest first; a newer one hides an older one of its name. -/
abbrev Frame := List (String × Value)

structure Meter where
  depth : Nat := 0
  limit : Nat
  deriving DecidableEq

namespace Meter

def headroom (m : Meter) : Nat :=
  m.limit - m.depth

def enter (m : Meter) : Meter :=
  { m with depth := m.depth + 1 }

def leave (m : Meter) : Meter :=
  { m with depth := m.depth - 1 }

def totalHeadroom (ms : List Meter) : Nat :=
  ms.foldr (fun m n => m.headroom + n) 0

@[simp] theorem leave_enter (m : Meter) : m.enter.leave = m := rfl

@[simp] theorem totalHeadroom_cons (m : Meter) (ms : List Meter) :
    totalHeadroom (m :: ms) = m.headroom + totalHeadroom ms := rfl

theorem enter_leave {m : Meter} (busy : 0 < m.depth) : m.leave.enter = m := by
  obtain ⟨depth, limit⟩ := m
  have back : depth - 1 + 1 = depth := Nat.sub_add_cancel busy
  simp only [leave, enter, back]

theorem totalHeadroom_enter (ms : List Meter) (id : Nat) (h : id < ms.length)
    (room : ms[id].depth < ms[id].limit) :
    totalHeadroom (ms.modify id enter) + 1 = totalHeadroom ms := by
  induction ms generalizing id with
  | nil => simp at h
  | cons m ms ih =>
    cases id with
    | zero =>
      simp only [List.getElem_cons_zero] at room
      simp only [List.modify_zero_cons, totalHeadroom_cons, enter, headroom]
      omega
    | succ id =>
      have step := ih id (by simpa using h) (by simpa using room)
      simp only [List.modify_succ_cons, totalHeadroom_cons]
      omega

end Meter

structure Store where
  frames : Array Frame := #[]
  meters : Array Meter := #[]
  functionCount : Nat := 0
  printed : Array (List Value) := #[]
  journal : Array Entry := #[]

namespace Store

def frame (s : Store) (id : Nat) : Frame :=
  s.frames.getD id []

def lookup (s : Store) (scope : Scope) (name : String) : Option Value :=
  scope.chain.findSome? fun id => (s.frame id).lookup name

/-- Whether a frame of the chain binds the name. -/
def contains (s : Store) (scope : Scope) (name : String) : Bool :=
  (scope.chain.findSome? fun id => ((s.frame id).lookup name).map fun _ => ()).isSome

def bind (s : Store) (scope : Scope) (name : String) (value : Value) : Store :=
  { s with frames := s.frames.modify scope.inner ((name, value) :: ·) }

/-- A new frame inside a chain of frames. -/
def newFrame (s : Store) (outer : List Nat) (frame : Frame) : Scope × Store :=
  (⟨s.frames.size, outer⟩, { s with frames := s.frames.push frame })

def newMeter (s : Store) (limit : Nat) : Nat × Store :=
  (s.meters.size, { s with meters := s.meters.push { limit } })

def newFunction (s : Store) (name : String) (code : Code) : Function × Store :=
  (⟨s.functionCount, name, code⟩, { s with functionCount := s.functionCount + 1 })

/-- A meter that was never made lets no call in. -/
def meter (s : Store) (id : Nat) : Meter :=
  s.meters.getD id { limit := 0 }

/-- The number of calls that may still begin before one of those under way ends. -/
def headroom (s : Store) : Nat :=
  Meter.totalHeadroom s.meters.toList

def enter (s : Store) (id : Nat) : Store :=
  { s with meters := s.meters.modify id Meter.enter }

def leave (s : Store) (id : Nat) : Store :=
  { s with meters := s.meters.modify id Meter.leave }

def print (s : Store) (values : List Value) : Store :=
  { s with printed := s.printed.push values }

def record (s : Store) (e : Entry) : Store :=
  { s with journal := s.journal.push e }

theorem leave_enter (s : Store) (id : Nat) : (s.enter id).leave id = s := by
  unfold enter leave
  congr
  apply Array.ext
  · simp
  · intro i _ _
    simp only [Array.getElem_modify]
    split <;> simp

variable {s : Store} {id : Nat}

theorem frame_eq (s : Store) (id : Nat) : s.frame id = s.frames[id]?.getD [] :=
  Array.getD_eq_getD_getElem?

theorem frame_of_le (new : s.frames.size ≤ id) : s.frame id = [] := by
  rw [frame_eq, Array.getElem?_eq_none new]
  rfl

theorem frames_newMeter (s : Store) (limit : Nat) : (s.newMeter limit).2.frames = s.frames := rfl

theorem frame_newMeter (s : Store) (limit id : Nat) : (s.newMeter limit).2.frame id = s.frame id :=
  rfl

theorem frame_bind (s : Store) (scope : Scope) (name : String) (v : Value) (id : Nat) :
    (s.bind scope name v).frame id =
      if scope.inner = id ∧ id < s.frames.size then (name, v) :: s.frame id else s.frame id := by
  simp only [frame_eq, bind, Array.getElem?_modify]
  by_cases old : id < s.frames.size
  · by_cases here : scope.inner = id <;> simp [old, here]
  · simp [old]

theorem frame_newFrame (s : Store) (outer : List Nat) (frame : Frame) (id : Nat) :
    (s.newFrame outer frame).2.frame id = if id = s.frames.size then frame else s.frame id := by
  simp only [frame_eq, newFrame, Array.getElem?_push]
  split <;> rfl

theorem frame_bind_of_ne {scope : Scope} {name : String} {v : Value} (other : scope.inner ≠ id) :
    (s.bind scope name v).frame id = s.frame id := by
  rw [frame_bind, if_neg fun here => other here.1]

theorem frame_newFrame_of_lt (outer : List Nat) (frame : Frame)
    (old : id < s.frames.size) : (s.newFrame outer frame).2.frame id = s.frame id := by
  rw [frame_newFrame, if_neg (Nat.ne_of_lt old)]

theorem size_bind (s : Store) (scope : Scope) (name : String) (v : Value) :
    (s.bind scope name v).frames.size = s.frames.size :=
  Array.size_modify

theorem size_newFrame (s : Store) (outer : List Nat) (frame : Frame) :
    (s.newFrame outer frame).2.frames.size = s.frames.size + 1 :=
  Array.size_push ..

/-- A look-up depends on the frames of its chain alone. -/
theorem lookup_congr {t : Store} {scope : Scope}
    (same : ∀ id ∈ scope.chain, t.frame id = s.frame id) (name : String) :
    t.lookup scope name = s.lookup scope name := by
  unfold lookup
  generalize scope.chain = chain at same
  induction chain with
  | nil => rfl
  | cons id ids ih =>
    rw [List.findSome?_cons, List.findSome?_cons, same id List.mem_cons_self,
      ih fun id member => same id (List.mem_cons_of_mem _ member)]

theorem meter_eq (s : Store) (id : Nat) : s.meter id = s.meters[id]?.getD { limit := 0 } :=
  Array.getD_eq_getD_getElem?

theorem lt_size_of_limit (h : 0 < (s.meter id).limit) : id < s.meters.size := by
  by_cases bound : id < s.meters.size
  · exact bound
  · simp [meter, Array.getD, bound] at h

theorem meter_enter (bound : id < s.meters.size) (j : Nat) :
    (s.enter id).meter j = if j = id then (s.meter j).enter else s.meter j := by
  simp only [meter_eq, enter, Array.getElem?_modify]
  by_cases same : j = id
  · subst same
    simp [bound]
  · simp [same, Ne.symm same]

theorem meter_leave (s : Store) (id j : Nat) :
    (s.leave id).meter j = if j = id then (s.meter j).leave else s.meter j := by
  simp only [meter_eq, leave, Array.getElem?_modify]
  by_cases same : j = id
  · subst same
    cases s.meters[j]? <;> simp [Meter.leave]
  · simp [same, Ne.symm same]

theorem enter_leave (busy : 0 < (s.meter id).depth) : (s.leave id).enter id = s := by
  unfold enter leave
  congr
  apply Array.ext
  · simp
  · intro i _ valid
    simp only [Array.getElem_modify]
    split
    · next same =>
      subst same
      simp only [meter_eq, Array.getElem?_eq_getElem valid, Option.getD_some] at busy
      exact Meter.enter_leave busy
    · rfl

/-- A call that is let in takes one unit of headroom. -/
theorem headroom_enter (free : (s.meter id).depth < (s.meter id).limit) :
    (s.enter id).headroom + 1 = s.headroom := by
  have bound : id < s.meters.size := lt_size_of_limit (by omega)
  simp only [meter, Array.getD, bound, dite_true] at free
  simp only [headroom, enter, Array.toList_modify]
  exact Meter.totalHeadroom_enter _ id (by simpa using bound) (by simpa using free)

/-- A call that ends gives its unit back. -/
theorem headroom_leave (busy : 0 < (s.meter id).depth)
    (within : (s.meter id).depth ≤ (s.meter id).limit) :
    (s.leave id).headroom = s.headroom + 1 := by
  have free : ((s.leave id).meter id).depth < ((s.leave id).meter id).limit := by
    simp only [meter_leave, if_true, Meter.leave]
    omega
  have one := headroom_enter free
  rw [enter_leave busy] at one
  exact one.symm

end Store
end Lispette
