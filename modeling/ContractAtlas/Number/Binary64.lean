/-
Binary floating-point numbers as documents carry them.

A number is kept as its 64 bits.  Reading rounds a decimal to the nearest
number; writing selects the fewest decimal digits that read back to the same
number and lays them out positionally or with an exponent.
-/

namespace ContractAtlas

structure Binary64 where
  bits : UInt64
deriving DecidableEq

structure Decimal where
  digits : Nat
  exponent : Int
deriving DecidableEq

namespace Binary64

def isNegative (number : Binary64) : Bool :=
  number.bits >>> 63 == 1

def exponentField (number : Binary64) : Nat :=
  ((number.bits >>> 52) &&& 0x7FF).toNat

def fraction (number : Binary64) : Nat :=
  (number.bits &&& 0xFFFFFFFFFFFFF).toNat

def isFinite (number : Binary64) : Bool :=
  number.exponentField != 0x7FF

def isNaN (number : Binary64) : Bool :=
  !number.isFinite && number.fraction != 0

def isZero (number : Binary64) : Bool :=
  number.exponentField == 0 && number.fraction == 0

/-- The integer `m` of the magnitude `m * 2 ^ q` of a finite number. -/
def significand (number : Binary64) : Nat :=
  if number.exponentField = 0 then number.fraction
  else Nat.pow 2 52 + number.fraction

/-- The integer `q` of the magnitude `m * 2 ^ q` of a finite number. -/
def scale (number : Binary64) : Int :=
  if number.exponentField = 0 then -1074
  else (number.exponentField : Int) - 1075

/-- The number below is half as far away as the number above. -/
def narrowBelow (number : Binary64) : Bool :=
  number.fraction == 0 && 1 < number.exponentField

/-- The decimal that is nearest to a number is read as that number.  Decimals
far outside the range become infinite or zero without being expanded. -/
def ofDecimal (negative : Bool) (decimal : Decimal) : Binary64 :=
  let leading : Int := (toString decimal.digits).length + decimal.exponent
  let magnitude : UInt64 :=
    if decimal.digits = 0 ∨ leading < -340 then 0
    else if 320 < leading then 0x7FF0000000000000
    else
      (Float.ofScientific decimal.digits (decimal.exponent < 0)
        decimal.exponent.natAbs).toBits
  { bits := if negative then magnitude ||| 0x8000000000000000 else magnitude }

def multiply (first second : Binary64) : Binary64 :=
  { bits := (Float.ofBits first.bits * Float.ofBits second.bits).toBits }

def ofInt (value : Int) : Binary64 :=
  ofDecimal (value < 0) { digits := value.natAbs, exponent := 0 }

def infinity (negative : Bool) : Binary64 :=
  { bits := if negative then 0xFFF0000000000000 else 0x7FF0000000000000 }

def notANumber : Binary64 :=
  { bits := 0x7FF8000000000000 }

def toInt? (number : Binary64) : Option Int :=
  if number.isFinite then
    let magnitude : Option Nat :=
      if 0 ≤ number.scale then
        some (number.significand * Nat.pow 2 number.scale.toNat)
      else
        let divisor := Nat.pow 2 number.scale.natAbs
        if number.significand % divisor = 0 then
          some (number.significand / divisor)
        else none
    magnitude.map fun value =>
      if number.isNegative then -(value : Int) else (value : Int)
  else none

def truncate (number : Binary64) : Int :=
  let magnitude :=
    number.significand * Nat.pow 2 number.scale.toNat /
      Nat.pow 2 (-number.scale).toNat
  if number.isNegative then -(magnitude : Int) else (magnitude : Int)

/-- The integer part of an integer divided by ten to the power `places`, both
taken as numbers; nothing if the integer is out of their range. -/
def scaledDown (value : Int) (places : Nat) : Option Int :=
  let number := ofInt value
  if number.isFinite then
    let factor := ofDecimal false { digits := 1, exponent := -(places : Int) }
    some (number.multiply factor).truncate
  else none

/-- Compares `digits * 10 ^ i` with `m * 2 ^ j` exactly. -/
def compareScaled (digits : Nat) (i : Int) (m : Nat) (j : Int) : Ordering :=
  compare (digits * Nat.pow 10 i.toNat * Nat.pow 2 (-j).toNat)
    (m * Nat.pow 2 j.toNat * Nat.pow 10 (-i).toNat)

def readsBack (number : Binary64) (decimal : Decimal) : Bool :=
  let lower :=
    if number.narrowBelow then 4 * number.significand - 1
    else 4 * number.significand - 2
  let upper := 4 * number.significand + 2
  let inclusive := number.significand % 2 == 0
  let toLower :=
    compareScaled decimal.digits decimal.exponent lower (number.scale - 2)
  let toUpper :=
    compareScaled decimal.digits decimal.exponent upper (number.scale - 2)
  (toLower == .gt || (inclusive && toLower == .eq)) &&
    (toUpper == .lt || (inclusive && toUpper == .eq))

private def leadingZeros (m divisor : Nat) : Nat → Nat
  | 0 => 0
  | fuel + 1 =>
      if m * 10 < divisor then leadingZeros (m * 10) divisor fuel + 1 else 0

/-- The least `k` for which the magnitude is below `10 ^ k`. -/
def magnitudeExponent (number : Binary64) : Int :=
  let numerator := number.significand * Nat.pow 2 number.scale.toNat
  let divisor := Nat.pow 2 (-number.scale).toNat
  if divisor ≤ numerator then ((toString (numerator / divisor)).length : Int)
  else -(leadingZeros numerator divisor 400 : Int)

/-- The decimal of at most `count` digits next to the magnitude that reads
back, the nearer one if both neighbours do and the even one on a tie. -/
private def neighbour? (number : Binary64) (count : Nat) : Option Decimal :=
  let exponent := number.magnitudeExponent - count
  let numerator :=
    number.significand * Nat.pow 2 number.scale.toNat * Nat.pow 10 (-exponent).toNat
  let divisor := Nat.pow 2 (-number.scale).toNat * Nat.pow 10 exponent.toNat
  let below : Decimal := { digits := numerator / divisor, exponent := exponent }
  let above : Decimal := { below with digits := below.digits + 1 }
  match number.readsBack below, number.readsBack above with
  | true, true =>
      match compare (2 * (numerator % divisor)) divisor with
      | .lt => some below
      | .gt => some above
      | .eq => some (if below.digits % 2 = 0 then below else above)
  | true, false => some below
  | false, true => some above
  | false, false => none

private def dropZeros : Nat → Decimal → Decimal
  | 0, decimal => decimal
  | fuel + 1, decimal =>
      if decimal.digits ≠ 0 ∧ decimal.digits % 10 = 0 then
        dropZeros fuel
          { digits := decimal.digits / 10, exponent := decimal.exponent + 1 }
      else decimal

def shortest (number : Binary64) : Decimal :=
  if number.isZero then { digits := 0, exponent := 0 }
  else
    let exact : Decimal :=
      { digits :=
          number.significand * Nat.pow 2 number.scale.toNat *
            Nat.pow 5 (-number.scale).toNat
        exponent := min number.scale 0 }
    let selected := (List.range 17).findSome? fun n => number.neighbour? (n + 1)
    dropZeros 400 (selected.getD exact)

private def zeros (count : Nat) : String :=
  String.ofList (List.replicate count '0')

/-- Positional below `10 ^ 16` and from `10 ^ -4` on, always with a point;
otherwise with a signed exponent of at least two digits. -/
def layOut (decimal : Decimal) : String :=
  let digits := (toString decimal.digits).toList
  let leading : Int := (digits.length : Int) - 1 + decimal.exponent
  if -4 ≤ leading ∧ leading < 16 then
    if 0 ≤ decimal.exponent then
      String.ofList digits ++ zeros decimal.exponent.toNat ++ ".0"
    else if 0 ≤ leading then
      let whole := (leading + 1).toNat
      String.ofList (digits.take whole) ++ "." ++
        String.ofList (digits.drop whole)
    else
      "0." ++ zeros (leading.natAbs - 1) ++ String.ofList digits
  else
    let head := String.ofList (digits.take 1)
    let tail := digits.drop 1
    let point := if tail.isEmpty then "" else "." ++ String.ofList tail
    let sign := if leading < 0 then "-" else "+"
    let power := toString leading.natAbs
    let padded := if power.length < 2 then "0" ++ power else power
    head ++ point ++ "e" ++ sign ++ padded

def finiteText (number : Binary64) : String :=
  (if number.isNegative then "-" else "") ++ layOut number.shortest

end Binary64

end ContractAtlas
