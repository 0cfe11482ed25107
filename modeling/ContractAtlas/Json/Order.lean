/-
The order of values: numbers by their value, whatever their shape, and texts
by code points.  Values of other shapes have no order, nor have a number and a
text.
-/

import ContractAtlas.Json.Basic

namespace ContractAtlas.Json

inductive Extended where
  | below
  /-- A numerator and a denominator. -/
  | ratio (numerator : Int) (denominator : Nat)
  | above
  | unordered

def extendedReal (number : Binary64) : Extended :=
  if number.isFinite then
    let magnitude := number.significand * Nat.pow 2 number.scale.toNat
    .ratio (if number.isNegative then -(magnitude : Int) else (magnitude : Int))
      (Nat.pow 2 (-number.scale).toNat)
  else if number.isNaN then .unordered
  else if number.isNegative then .below
  else .above

def extended? : Json → Option Extended
  | bool value => some (.ratio (if value then 1 else 0) 1)
  | int value => some (.ratio value 1)
  | real value => some (extendedReal value)
  | _ => none

def Extended.isLess : Extended → Extended → Bool
  | ratio first firstParts, ratio second secondParts =>
      first * secondParts < second * firstParts
  | below, ratio _ _ => true
  | below, above => true
  | ratio _ _, above => true
  | _, _ => false

/-- The first value comes before the second; nothing if they have no order. -/
def isLess? (left right : Json) : Option Bool :=
  match left, right with
  | str left, str right => some (left < right)
  | left, right =>
      match left.extended?, right.extended? with
      | some left, some right => some (left.isLess right)
      | _, _ => none

end ContractAtlas.Json
