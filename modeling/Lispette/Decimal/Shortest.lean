/-!
The shortest decimal that rounds back to a binary number. A window holds the reals that round
to the number; the first decimal grid with a point in the window gives the digits, and of two
such points the nearer one, upwards when both are equally near.
-/

namespace Lispette

/-- The number `digits · 10 ^ exponent`. -/
structure Decimal where
  digits : Nat
  exponent : Int
  deriving DecidableEq

def powerOfTen (n : Nat) : Nat :=
  Nat.pow 10 n

namespace Decimal

/-- Numerators over one denominator; the ends belong to the window if it is closed. -/
structure Window where
  low : Nat
  value : Nat
  high : Nat
  denominator : Nat
  closed : Bool

namespace Window

/-- The window of `significand · 2 ^ exponent`. Below a power of two the neighbours lie half
as far apart, and the window is narrow on that side. -/
def around (significand : Nat) (exponent : Int) (narrow : Bool) : Window :=
  let scale := 1 <<< exponent.toNat
  { low := (4 * significand - if narrow then 1 else 2) * scale
    value := 4 * significand * scale
    high := (4 * significand + 2) * scale
    denominator := 4 <<< (-exponent).toNat
    closed := significand % 2 = 0 }

def holds (w : Window) (digits : Nat) (exponent : Int) : Bool :=
  let scale := powerOfTen (-exponent).toNat
  let point := digits * powerOfTen exponent.toNat * w.denominator
  if w.closed then w.low * scale ≤ point && point ≤ w.high * scale
  else w.low * scale < point && point < w.high * scale

/-- The point of the grid `10 ^ exponent` in the window that is nearest to the value. -/
def nearest? (w : Window) (exponent : Int) : Option Nat :=
  let value := w.value * powerOfTen (-exponent).toNat
  let step := powerOfTen exponent.toNat * w.denominator
  let below := value / step
  match w.holds below exponent, w.holds (below + 1) exponent with
  | true, true => some (if 2 * (value % step) < step then below else below + 1)
  | true, false => some below
  | false, true => some (below + 1)
  | false, false => none

/-- The exponent of the least power of ten above the value. -/
def magnitude (w : Window) : Int :=
  if w.denominator ≤ w.value then (Nat.toDigits 10 (w.value / w.denominator)).length
  else 1 - ((Nat.toDigits 10 ((w.denominator - 1) / w.value)).length : Int)

def shortest? (w : Window) : Option Decimal :=
  (List.range 17).findSome? fun places : Nat =>
    let exponent := w.magnitude - (places + 1)
    (w.nearest? exponent).map fun digits => ⟨digits, exponent⟩

theorem holds_of_nearest? {w : Window} {exponent : Int} {digits : Nat}
    (h : w.nearest? exponent = some digits) : w.holds digits exponent = true := by
  unfold nearest? at h
  dsimp only at h
  split at h <;> rename_i low high
  · simp only [Option.some.injEq] at h
    split at h <;> (subst h; assumption)
  · simp only [Option.some.injEq] at h
    exact h ▸ low
  · simp only [Option.some.injEq] at h
    exact h ▸ high
  · simp at h

theorem holds_of_shortest? {w : Window} {d : Decimal} (h : w.shortest? = some d) :
    w.holds d.digits d.exponent = true := by
  obtain ⟨places, _, found⟩ := List.exists_of_findSome?_eq_some h
  simp only [Option.map_eq_some_iff] at found
  obtain ⟨digits, nearest, rfl⟩ := found
  exact holds_of_nearest? nearest

end Window
end Decimal
end Lispette
