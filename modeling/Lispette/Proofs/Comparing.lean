import Lispette.Proofs.Visibility

/-!
The order of values. Every value has a rank, a list of integers, and two values of one kind that
stand in an order at all stand in that of their ranks, so the laws of a comparison are those of
lists. A number ranks by its sign and size, its exponent and its mantissa; a string by its code
points.
-/

namespace Lispette

open Float.Model (UnpackedFloat)

section Ranks

theorem compare_cast (m n : Nat) : compare (m : Int) n = compare m n := by
  simp [Int.compare_eq_ite_lt, Nat.compare_eq_ite_lt]

theorem compare_neg (i j : Int) : compare (-i) (-j) = (compare i j).swap := by
  rw [Std.OrientedOrd.eq_swap]
  simp [Int.compare_eq_ite_lt]

/-- What keeps the order of entries keeps the order of lists. -/
theorem compare_map {α β : Type} [Ord α] [Ord β] {f : α → β}
    (same : ∀ a b, compare (f a) (f b) = compare a b) (as bs : List α) :
    compare (as.map f) (bs.map f) = compare as bs := by
  induction as generalizing bs with
  | nil => cases bs <;> rfl
  | cons a as ih =>
    cases bs with
    | nil => rfl
    | cons b bs =>
      rw [List.map_cons, List.map_cons, List.compare_cons_cons, List.compare_cons_cons, same, ih]

/-- Infinity comes after all other numbers of its sign; with the same sign the exponents decide, and
with the same exponent the mantissas. -/
def unpackedRank : UnpackedFloat → List Int
  | .notANumber => []
  | .infinity s => [s.apply 2]
  | .zero _ => [0]
  | .finite s mantissa exponent _ => [s.apply 1, s.apply exponent, s.apply mantissa]

theorem compare_unpacked (x y : UnpackedFloat) : x.compare y =
    if x.isNaN || y.isNaN then none else some (compare (unpackedRank x) (unpackedRank y)) := by
  cases x with
  | notANumber => cases y <;> rfl
  | infinity s =>
    cases y with
    | notANumber => cases s <;> rfl
    | infinity t => cases s <;> cases t <;> rfl
    | zero t => cases s <;> rfl
    | finite t n f _ => cases s <;> cases t <;> rfl
  | zero s =>
    cases y with
    | notANumber => rfl
    | infinity t => cases t <;> rfl
    | zero t => rfl
    | finite t n f _ => cases t <;> rfl
  | finite s m e _ =>
    cases y with
    | notANumber => cases s <;> rfl
    | infinity t => cases s <;> cases t <;> rfl
    | zero t => cases s <;> rfl
    | finite t n f _ =>
      cases s with
      | negative =>
        cases t with
        | negative =>
          show some ((compare e f).then (compare m n)).swap =
            some (compare [-1, -e, -(m : Int)] [-1, -f, -(n : Int)])
          simp [Ordering.swap_then, ← compare_neg, ← compare_cast, List.compare_cons_cons]
        | positive => rfl
      | positive =>
        cases t with
        | negative => rfl
        | positive =>
          show some ((compare e f).then (compare m n)) =
            some (compare [1, e, (m : Int)] [1, f, (n : Int)])
          simp [← compare_cast, List.compare_cons_cons]

theorem lt_iff_unpacked (x y : Float) :
    x < y ↔ x.toModel.unpack.compare y.toModel.unpack = some .lt := by
  show Float.lt x y = true ↔ _
  rw [Float.lt, decide_eq_true_iff]
  exact beq_iff_eq

theorem beq_iff_unpacked (x y : Float) :
    (x == y) = true ↔ x.toModel.unpack.compare y.toModel.unpack = some .eq := by
  show (x.toModel.unpack.compare y.toModel.unpack == some .eq) = true ↔ _
  exact beq_iff_eq

/-- The comparison of numbers is that of their parts. -/
theorem compareNumbers_eq (x y : Float) :
    compareNumbers x y = x.toModel.unpack.compare y.toModel.unpack := by
  have swapped : y.toModel.unpack.compare x.toModel.unpack =
      (x.toModel.unpack.compare y.toModel.unpack).map Ordering.swap := by
    rw [compare_unpacked, compare_unpacked, Bool.or_comm, Std.OrientedOrd.eq_swap]
    split <;> rfl
  simp only [compareNumbers, lt_iff_unpacked, beq_iff_unpacked, swapped]
  cases x.toModel.unpack.compare y.toModel.unpack with
  | none => rfl
  | some order => cases order <;> rfl

def codePoints (s : String) : List Nat :=
  s.toList.map Char.toNat

theorem compare_chars (cs ds : List Char) :
    (if cs < ds then .lt else if cs = ds then .eq else .gt) =
      compare (cs.map Char.toNat) (ds.map Char.toNat) := by
  induction cs generalizing ds with
  | nil => cases ds <;> simp
  | cons c cs ih =>
    cases ds with
    | nil => simp
    | cons d ds =>
      rw [List.map_cons, List.map_cons, List.compare_cons_cons, ← ih, Nat.compare_eq_ite_lt]
      have less : c < d ↔ c.toNat < d.toNat := Iff.rfl
      have same : c = d ↔ c.toNat = d.toNat := Char.toNat_inj.symm
      rcases Nat.lt_trichotomy c.toNat d.toNat with before | here | after
      · simp [List.cons_lt_cons_iff, less, before]
      · simp [List.cons_lt_cons_iff, less, same, here]
      · simp [List.cons_lt_cons_iff, less, same, Nat.lt_asymm after, Nat.ne_of_gt after, after]

theorem compare_codePoints (s t : String) :
    compare s t = compare (codePoints s) (codePoints t) := by
  show (if s < t then Ordering.lt else if s = t then .eq else .gt) = _
  simp only [String.lt_iff, ← String.toList_inj]
  exact compare_chars s.toList t.toList

end Ranks

namespace Value

variable {a b c : Value} {order : Option Ordering}

/-- Two values of one kind that stand in no order: a number that is not one, or different
functions. -/
def unordered : Value → Value → Bool
  | .number x, .number y => x.isNaN || y.isNaN
  | .function f, .function g => f.id != g.id
  | _, _ => false

def rank : Value → List Int
  | .nil => []
  | .bool b => [b.toInt]
  | .number x => unpackedRank x.toModel.unpack
  | .string s => (codePoints s).map Nat.cast
  | .function f => [f.id]

/-- Values of one kind stand in the order of their ranks, if they stand in one. -/
theorem compare_eq (a b : Value) : a.compare b =
    if a.kind = b.kind then .ok (if a.unordered b then none else some (Ord.compare a.rank b.rank))
    else .error b.kind := by
  cases a with
  | nil => cases b <;> rfl
  | bool p =>
    cases b with
    | bool q => cases p <;> cases q <;> rfl
    | _ => rfl
  | number x =>
    cases b with
    | number y => exact congrArg Except.ok ((compareNumbers_eq x y).trans (compare_unpacked _ _))
    | _ => rfl
  | string s =>
    cases b with
    | string t =>
      have same : Ord.compare s t = Ord.compare (rank (.string s)) (rank (.string t)) :=
        (compare_codePoints s t).trans (compare_map compare_cast _ _).symm
      exact congrArg (Except.ok ∘ some) same
    | _ => rfl
  | function f =>
    cases b with
    | function g =>
      by_cases same : f.id = g.id <;> simp [Value.compare, unordered, rank, kind, same]
    | _ => rfl

theorem compare_error_iff {found : Kind} :
    a.compare b = .error found ↔ a.kind ≠ b.kind ∧ found = b.kind := by
  rw [compare_eq]
  by_cases kinds : a.kind = b.kind
  · simp [kinds]
  · rw [if_neg kinds, Except.error.injEq, eq_comm, and_iff_right kinds]

theorem compare_ok_iff : a.compare b = .ok order ↔ a.kind = b.kind ∧
    order = if a.unordered b then none else some (Ord.compare a.rank b.rank) := by
  rw [compare_eq]
  by_cases kinds : a.kind = b.kind
  · rw [if_pos kinds, Except.ok.injEq, eq_comm, and_iff_right kinds]
  · simp [kinds]

theorem kind_of_unordered (apart : a.unordered b = true) : a.kind = b.kind := by
  unfold unordered at apart
  split at apart
  · rfl
  · rfl
  · cases apart

theorem unordered_comm (a b : Value) : a.unordered b = b.unordered a := by
  cases a with
  | number x =>
    cases b with
    | number y => exact Bool.or_comm ..
    | _ => rfl
  | function f =>
    cases b with
    | function g => exact bne_comm
    | _ => rfl
  | _ => cases b <;> rfl

/-- What stands in an order to the same value does so to one another. -/
theorem ordered_trans (first : a.kind = b.kind) (second : b.kind = c.kind)
    (before : a.unordered b = false) (after : b.unordered c = false) : a.unordered c = false := by
  cases a with
  | number x =>
    cases b with
    | number y =>
      cases c with
      | number z =>
        simp only [unordered, Bool.or_eq_false_iff] at before after ⊢
        exact ⟨before.1, after.2⟩
      | _ => cases second
    | _ => cases first
  | function f =>
    cases b with
    | function g =>
      cases c with
      | function h =>
        simp only [unordered, bne_eq_false_iff_eq] at before after ⊢
        exact before.trans after
      | _ => cases second
    | _ => cases first
  | _ => cases c <;> rfl

theorem compare_swap (compared : a.compare b = .ok order) :
    b.compare a = .ok (order.map Ordering.swap) := by
  obtain ⟨kinds, rfl⟩ := compare_ok_iff.mp compared
  refine compare_ok_iff.mpr ⟨kinds.symm, ?_⟩
  rw [unordered_comm b a, Std.OrientedOrd.eq_swap (a := b.rank)]
  split <;> rfl

theorem compare_swap_iff :
    b.compare a = .ok (order.map Ordering.swap) ↔ a.compare b = .ok order := by
  refine ⟨fun swapped => ?_, compare_swap⟩
  have back := compare_swap swapped
  cases order <;> simpa using back

theorem compare_eq_iff_same : a.compare b = .ok (some .eq) ↔ a.same b = true := by
  cases a with
  | nil => cases b <;> simp [Value.compare, same]
  | bool p => cases b <;> simp [Value.compare, same]
  | number x =>
    cases b with
    | number y => simp [Value.compare, same, compareNumbers_eq, beq_iff_unpacked]
    | _ => simp [Value.compare, same]
  | string s => cases b <;> simp [Value.compare, same]
  | function f => cases b <;> simp [Value.compare, same]

theorem compare_self_ne_lt (a : Value) : a.compare a ≠ .ok (some .lt) := by
  intro less
  obtain ⟨-, order⟩ := compare_ok_iff.mp less
  rw [show Ord.compare a.rank a.rank = .eq from Std.ReflCmp.compare_self] at order
  split at order <;> cases order

theorem compare_lt_iff : a.compare b = .ok (some .lt) ↔
    a.kind = b.kind ∧ a.unordered b = false ∧ Ord.compare a.rank b.rank = .lt := by
  rw [compare_ok_iff]
  by_cases apart : a.unordered b = true
  · simp [apart]
  · simp [apart, eq_comm]

theorem compare_lt_trans (first : a.compare b = .ok (some .lt))
    (second : b.compare c = .ok (some .lt)) : a.compare c = .ok (some .lt) := by
  obtain ⟨kinds, ordered, less⟩ := compare_lt_iff.mp first
  obtain ⟨kinds', ordered', less'⟩ := compare_lt_iff.mp second
  exact compare_lt_iff.mpr ⟨kinds.trans kinds', ordered_trans kinds kinds' ordered ordered',
    Std.TransCmp.lt_trans less less'⟩

theorem compare_none_iff : a.compare b = .ok none ↔ a.unordered b = true := by
  rw [compare_ok_iff]
  by_cases apart : a.unordered b = true
  · simp [apart, kind_of_unordered apart]
  · simp [apart]

end Value

namespace Store

variable {s : Store} {scope : Scope} {name : String} {b : Builtin}

theorem hasScope_bindBuiltins (has : s.HasScope scope) (entries : List (String × Builtin)) :
    (entries.foldl (bindBuiltin scope) s).HasScope scope :=
  List.foldlRecOn (motive := fun s : Store => s.HasScope scope) _ _ has
    fun s before entry _ => before.mono (grows_bindBuiltin s scope entry)

/-- The builtin that was bound to the name last is found under it. -/
theorem lookup_bindBuiltins (has : s.HasScope scope) {entries : List (String × Builtin)}
    (last : entries.reverse.lookup name = some b) :
    ∃ f : Function, f.code = .builtin b ∧
      (entries.foldl (bindBuiltin scope) s).lookup scope name = some (.function f) := by
  induction entries using List.reverseRecOn with
  | nil => cases last
  | append_singleton earlier entry ih =>
    rw [List.reverse_append, List.reverse_singleton, List.singleton_append] at last
    rw [List.foldl_append, List.foldl_cons, List.foldl_nil]
    have still := hasScope_bindBuiltins has earlier
    generalize earlier.foldl (bindBuiltin scope) s = t at still ih
    obtain ⟨bound, b'⟩ := entry
    by_cases same : name = bound
    · subst same
      rw [List.lookup_cons_self] at last
      cases last
      exact ⟨_, rfl, lookup_bind_self (s := (t.newFunction name (.builtin b)).2) still name _⟩
    · rw [List.lookup_cons, beq_eq_false_iff_ne.mpr same] at last
      obtain ⟨f, code, found⟩ := ih last
      exact ⟨f, code, (lookup_bind_of_ne same).trans found⟩

/-- What a new prelude binds to the name of a builtin. -/
theorem lookup_newPrelude (s : Store) (listed : preludeBuiltins.reverse.lookup name = some b) :
    ∃ f : Function, f.code = .builtin b ∧
      s.newPrelude.2.lookup s.newPrelude.1 name = some (.function f) := by
  have framed : (s.newFrame [] []).2.HasScope s.newPrelude.1 := hasScope_newFrame (by simp)
  have constants := List.foldlRecOn (motive := fun t : Store => t.HasScope s.newPrelude.1)
    preludeConstants (bindConstant s.newPrelude.1) (b := (s.newFrame [] []).2.record .installing)
    framed fun _ before _ _ => before.mono (grows_bind ..)
  exact lookup_bindBuiltins constants listed

end Store

/-- What is found under the name in any new prelude comes to this when it is called, at any time,
and the call changes nothing. -/
def PreludeAnswers (name : String) (values : List Value) (r : Except CallError Value) : Prop :=
  ∀ s scope t, (Scope.prelude : Action Empty Scope) s = .ok scope t →
    ∃ f, t.lookup scope name = some (.function f) ∧ ∀ u, f.call values u = Action.ofExcept r u

section

variable {name : String} {op : Comparison} {a b : Value} {order : Option Ordering} {found : Kind}

theorem preludeAnswers_comparison
    (listed : preludeBuiltins.reverse.lookup name = some (.comparison op)) (values : List Value) :
    PreludeAnswers name values ((Builtin.comparison op).answer values) := by
  intro s scope t made
  rw [Store.prelude_run] at made
  cases made
  obtain ⟨f, code, bound⟩ := s.lookup_newPrelude listed
  exact ⟨f, bound, fun u => (Function.call_of_builtin code values u).trans (Builtin.apply_eq ..)⟩

theorem Builtin.answer_comparison (op : Comparison) (a b : Value) :
    (Builtin.comparison op).answer [a, b] = match a.compare b with
      | .ok order => .ok (.bool (op.holds order))
      | .error found => .error (.wrongKind a.kind found) := by
  show (Builtin.compare op a b >>= fun r => .ok (Value.bool r)) = _
  rw [Builtin.compare]
  cases a.compare b <;> rfl

theorem preludeAnswers_of_ok (listed : preludeBuiltins.reverse.lookup name = some (.comparison op))
    (compared : a.compare b = .ok order) :
    PreludeAnswers name [a, b] (.ok (.bool (op.holds order))) := by
  have answers := preludeAnswers_comparison listed [a, b]
  rwa [Builtin.answer_comparison, compared] at answers

theorem preludeAnswers_of_error
    (listed : preludeBuiltins.reverse.lookup name = some (.comparison op))
    (compared : a.compare b = .error found) :
    PreludeAnswers name [a, b] (.error (.wrongKind a.kind found)) := by
  have answers := preludeAnswers_comparison listed [a, b]
  rwa [Builtin.answer_comparison, compared] at answers

/-- Six questions about one order: at most one of the first three has the answer yes, and the others
follow from these. -/
theorem Comparison.holds_trichotomy (order : Option Ordering) :
    [less.holds order, equal.holds order, greater.holds order].count true ≤ 1 ∧
    (true ∉ [less.holds order, equal.holds order, greater.holds order] ↔ order = none) ∧
    lessEqual.holds order = (less.holds order || equal.holds order) ∧
    greaterEqual.holds order = (greater.holds order || equal.holds order) ∧
    notEqual.holds order = !equal.holds order ∧
    greater.holds (order.map Ordering.swap) = less.holds order := by
  cases order with
  | none => decide
  | some order => cases order <;> decide

end

/-- The comparison of values is coherent, and so are the six builtins that ask for it. -/
theorem comparison_coherent (a b c : Value) :
    (∀ found, a.compare b = .error found ↔ a.kind ≠ b.kind ∧ found = b.kind) ∧
    (∀ order, b.compare a = .ok (order.map Ordering.swap) ↔ a.compare b = .ok order) ∧
    (a.compare b = .ok (some .eq) ↔ a.same b = true) ∧
    a.compare a ≠ .ok (some .lt) ∧
    (a.compare b = .ok (some .lt) → b.compare c = .ok (some .lt) → a.compare c = .ok (some .lt)) ∧
    (a.compare b = .ok none ↔ a.unordered b = true) ∧
    (∀ s t, (Value.string s).compare (.string t) =
      .ok (some (compare (codePoints s) (codePoints t)))) ∧
    (∀ p q, (Value.bool p).compare (.bool q) ≠ .ok none) ∧
    (a.kind = b.kind → ∃ less equal greater : Bool,
      PreludeAnswers "<" [a, b] (.ok (.bool less)) ∧
      PreludeAnswers "=" [a, b] (.ok (.bool equal)) ∧
      PreludeAnswers ">" [a, b] (.ok (.bool greater)) ∧
      [less, equal, greater].count true ≤ 1 ∧
      (true ∉ [less, equal, greater] ↔ a.unordered b = true) ∧
      PreludeAnswers "<=" [a, b] (.ok (.bool (less || equal))) ∧
      PreludeAnswers ">=" [a, b] (.ok (.bool (greater || equal))) ∧
      PreludeAnswers "!=" [a, b] (.ok (.bool !equal)) ∧
      PreludeAnswers ">" [b, a] (.ok (.bool less))) ∧
    (a.kind ≠ b.kind → ∀ name ∈ ["<", "=", ">", "<=", ">=", "!="],
      PreludeAnswers name [a, b] (.error (.wrongKind a.kind b.kind))) := by
  refine ⟨fun _ => Value.compare_error_iff, fun _ => Value.compare_swap_iff,
    Value.compare_eq_iff_same, a.compare_self_ne_lt, Value.compare_lt_trans, Value.compare_none_iff,
    fun s t => congrArg (Except.ok ∘ some) (compare_codePoints s t), fun p q => by nofun,
    fun kinds => ?_, fun kinds name listed => ?_⟩
  · obtain ⟨order, compared⟩ : ∃ order, a.compare b = .ok order :=
      ⟨_, Value.compare_ok_iff.mpr ⟨kinds, rfl⟩⟩
    have answers {name : String} (op : Comparison)
        (listed : preludeBuiltins.reverse.lookup name = some (.comparison op)) :=
      preludeAnswers_of_ok listed compared
    have greater : preludeBuiltins.reverse.lookup ">" = some (.comparison .greater) := rfl
    have swapped := preludeAnswers_of_ok greater (Value.compare_swap compared)
    have none : order = none ↔ a.unordered b = true := by
      rw [← Value.compare_none_iff, compared, Except.ok.injEq]
    obtain ⟨one, silent, lessEqual, greaterEqual, notEqual, reverse⟩ :=
      Comparison.holds_trichotomy order
    refine ⟨_, _, _, answers .less rfl, answers .equal rfl, answers .greater greater, one,
      silent.trans none, ?_, ?_, ?_, reverse ▸ swapped⟩
    · exact lessEqual ▸ answers .lessEqual rfl
    · exact greaterEqual ▸ answers .greaterEqual rfl
    · exact notEqual ▸ answers .notEqual rfl
  · have compared := Value.compare_error_iff.mpr ⟨kinds, rfl⟩
    simp only [List.mem_cons, List.not_mem_nil, or_false] at listed
    rcases listed with rfl | rfl | rfl | rfl | rfl | rfl
    all_goals exact preludeAnswers_of_error rfl compared

/-- Capitals come before small letters and those before accented ones, not a number is neither
before nor after itself, and nil is not compared with a truth value. -/
theorem comparison_coherent_instances :
    (Value.string "Z").compare (.string "a") = .ok (some .lt) ∧
    (Value.string "a").compare (.string "é") = .ok (some .lt) ∧
    (Value.string "Z").compare (.string "é") = .ok (some .lt) ∧
    (Value.number (0 / 0)).kind = (Value.number (0 / 0)).kind ∧
    (∃ less equal greater : Bool,
      PreludeAnswers "<" [.number (0 / 0), .number (0 / 0)] (.ok (.bool less)) ∧
      PreludeAnswers "=" [.number (0 / 0), .number (0 / 0)] (.ok (.bool equal)) ∧
      PreludeAnswers ">" [.number (0 / 0), .number (0 / 0)] (.ok (.bool greater)) ∧
      true ∉ [less, equal, greater]) ∧
    Value.nil.kind ≠ (Value.bool true).kind ∧
    PreludeAnswers ">=" [.nil, .bool true] (.error (.wrongKind .nil .bool)) := by
  have first : (Value.string "Z").compare (.string "a") = .ok (some .lt) := rfl
  have second : (Value.string "a").compare (.string "é") = .ok (some .lt) := rfl
  obtain ⟨-, -, -, -, trans, -⟩ := comparison_coherent (.string "Z") (.string "a") (.string "é")
  obtain ⟨-, -, -, -, -, -, -, -, same, -⟩ :=
    comparison_coherent (.number (0 / 0)) (.number (0 / 0)) .nil
  obtain ⟨-, -, -, -, -, -, -, -, -, other⟩ := comparison_coherent .nil (.bool true) .nil
  obtain ⟨less, equal, greater, before, here, after, -, none, -⟩ := same rfl
  have unordered : (Value.number (0 / 0)).unordered (.number (0 / 0)) = true := by decide +kernel
  exact ⟨first, second, trans first second, rfl,
    ⟨less, equal, greater, before, here, after, none.mpr unordered⟩, by decide,
    other (by decide) ">=" (by decide)⟩

end Lispette
