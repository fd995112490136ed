/-!
Reading numbers: an optional sign; digits with an optional point, at least one digit; an
optional exponent; or an infinity or not-a-number word in any letter case.
-/

namespace Lispette

namespace Decimal

def takeSign : List Char → Bool × List Char
  | '-' :: cs => (true, cs)
  | '+' :: cs => (false, cs)
  | cs => (false, cs)

def digitsValue (cs : List Char) : Nat :=
  cs.foldl (fun n c => 10 * n + (c.toNat - '0'.toNat)) 0

def isExponentMark (c : Char) : Bool :=
  c = 'e' || c = 'E'

/-- The exponent after the digits: zero if nothing follows. -/
def readExponent? : List Char → Option Int
  | [] => some 0
  | c :: cs =>
    let (negative, digits) := takeSign cs
    if isExponentMark c && !digits.isEmpty && digits.all Char.isDigit then
      some (if negative then -(digitsValue digits : Int) else digitsValue digits)
    else none

/-- The digits of a number without its sign, and the power of ten they count. -/
def readDigits? (cs : List Char) : Option (List Char × Int) :=
  let whole := cs.takeWhile Char.isDigit
  let rest := cs.dropWhile Char.isDigit
  let (fraction, rest) := match rest with
    | '.' :: more => (more.takeWhile Char.isDigit, more.dropWhile Char.isDigit)
    | _ => ([], rest)
  if whole.isEmpty && fraction.isEmpty then none
  else (readExponent? rest).map fun exponent => (whole ++ fraction, exponent - fraction.length)

/-- Beyond the range of numbers the power of ten is never computed. -/
def nearest (digits : List Char) (exponent : Int) : Float :=
  let n := digitsValue digits
  let magnitude := (Nat.toDigits 10 n).length + exponent
  if n = 0 || magnitude < -330 then 0
  else if 310 < magnitude then 1 / 0
  else if 0 ≤ exponent then Float.ofScientific n false exponent.toNat
  else Float.ofScientific n true (-exponent).toNat

def readWord? (cs : List Char) : Option Float :=
  let word := cs.map Char.toLower
  if word = "inf".toList || word = "infinity".toList then some (1 / 0)
  else if word = "nan".toList then some (0 / 0)
  else none

def readUnsigned? (cs : List Char) : Option Float :=
  match readDigits? cs with
  | some (digits, exponent) => some (nearest digits exponent)
  | none => readWord? cs

end Decimal

def readNumber? (s : String) : Option Float :=
  let (negative, cs) := Decimal.takeSign s.toList
  (Decimal.readUnsigned? cs).map fun x => if negative then -x else x

/-- Digits alone always make a number. -/
theorem readNumber?_of_digits {s : String} (some : s.toList ≠ [])
    (digits : ∀ c ∈ s.toList, c.isDigit = true) : (readNumber? s).isSome := by
  obtain ⟨c, cs, chars⟩ := List.exists_cons_of_ne_nil some
  have unsigned : Decimal.takeSign s.toList = (false, s.toList) := by
    unfold Decimal.takeSign
    split
    · next h => exact absurd (digits '-' (by simp [h])) (by decide)
    · next h => exact absurd (digits '+' (by simp [h])) (by decide)
    · rfl
  have whole : (s.toList ++ []).takeWhile Char.isDigit = s.toList ++ [].takeWhile Char.isDigit :=
    List.takeWhile_append_of_pos digits
  have rest : (s.toList ++ []).dropWhile Char.isDigit = [].dropWhile Char.isDigit :=
    List.dropWhile_append_of_pos digits
  simp only [List.append_nil, List.takeWhile_nil, List.dropWhile_nil] at whole rest
  have filled : s.toList.isEmpty = false := by simp [chars]
  simp [readNumber?, unsigned, Decimal.readUnsigned?, Decimal.readDigits?, whole, rest, filled,
    Decimal.readExponent?]

end Lispette
