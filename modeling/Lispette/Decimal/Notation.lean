import Lispette.Decimal.Shortest

/-!
How numbers are written: the shortest digits that read back, in positional notation without an
exponent, no point on integers, a sign on negative numbers and on negative zero.
-/

namespace Lispette

namespace Decimal

/-- Drops the zeros at the end of a fraction. -/
def trimFraction (digits : Nat) : Nat → Decimal
  | 0 => ⟨digits, 0⟩
  | places + 1 =>
    if digits % 10 = 0 then trimFraction (digits / 10) places
    else ⟨digits, -((places : Int) + 1)⟩

def trim (d : Decimal) : Decimal :=
  if d.exponent < 0 then trimFraction d.digits (-d.exponent).toNat else d

def layout (d : Decimal) : List Char :=
  let digits := Nat.toDigits 10 d.digits
  let places := (-d.exponent).toNat
  if 0 ≤ d.exponent then digits ++ List.replicate d.exponent.toNat '0'
  else if places < digits.length then
    digits.take (digits.length - places) ++ '.' :: digits.drop (digits.length - places)
  else '0' :: '.' :: (List.replicate (places - digits.length) '0' ++ digits)

end Decimal

/-- The parts of a binary number of 64 bits: a sign, eleven bits of exponent and fifty-two of
fraction. -/
structure FloatParts where
  negative : Bool
  exponent : Nat
  fraction : Nat

namespace FloatParts

/-- The leading bit of a significand, which the fraction leaves out. -/
def hiddenBit : Nat := 0x10000000000000

def ofBits (bits : Nat) : FloatParts :=
  ⟨bits.testBit 63, bits >>> 52 % 2048, bits % hiddenBit⟩

def window (x : FloatParts) : Decimal.Window :=
  if x.exponent = 0 then .around x.fraction (-1074) false
  else .around (hiddenBit + x.fraction) ((x.exponent : Int) - 1075) (x.fraction = 0 && 1 < x.exponent)

def magnitudeText (x : FloatParts) : List Char :=
  if x.exponent = 0 && x.fraction = 0 then ['0']
  else (x.window.shortest?.map fun d => d.trim.layout).getD []

def text (x : FloatParts) : String :=
  if x.exponent = 2047 && x.fraction ≠ 0 then "NaN"
  else
    let magnitude := if x.exponent = 2047 then ['i', 'n', 'f'] else x.magnitudeText
    String.ofList (if x.negative then '-' :: magnitude else magnitude)

end FloatParts

def numberText (x : Float) : String :=
  (FloatParts.ofBits x.toBits.toNat).text

example : (Decimal.trim ⟨10, -6⟩).layout = "0.00001".toList := by decide
example : (Decimal.trim ⟨125, -2⟩).layout = "1.25".toList := by decide
example : (Decimal.trim ⟨1, 3⟩).layout = "1000".toList := by decide

end Lispette
