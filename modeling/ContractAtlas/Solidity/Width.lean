/-
Storage widths of types, in bytes.

Mappings, arrays, `bytes` and `string` take the whole slot that points to
their data.  Structs have no width of their own; their fields do.
-/

import ContractAtlas.Solidity.TypeName

namespace ContractAtlas.TypeName

def slotSize : Nat := 32

def widthOfBits? (bits : Nat) : Option Nat :=
  if bits % 8 = 0 ∧ 8 ≤ bits ∧ bits ≤ 8 * slotSize then some (bits / 8)
  else none

def after? (word text : List Char) : Option (List Char) :=
  if startsWith text word then some (text.drop word.length) else none

def allDigits (text : List Char) : Bool :=
  text.all Text.isDigit

/-- Fixed byte sequences: `bytes` and a number from one to the slot size. -/
def bytesWidth? (normal : List Char) : Option Nat := do
  let digits ← after? "bytes".toList normal
  if !digits.isEmpty && allDigits digits then
    let width := digitsValue digits
    if 1 ≤ width ∧ width ≤ slotSize then some width else none
  else none

def dropUnsigned : List Char → List Char
  | 'u' :: rest => rest
  | text => text

/-- Integers: `int` or `uint` and perhaps a number of bits. -/
def integerWidth? (normal : List Char) : Option Nat := do
  let digits ← after? "int".toList (dropUnsigned normal)
  if digits.isEmpty then widthOfBits? 256
  else if allDigits digits then widthOfBits? (digitsValue digits)
  else none

/-- Fixed-point numbers: `fixed` or `ufixed` and perhaps bits and places. -/
def fixedPointWidth? (normal : List Char) : Option Nat := do
  let rest ← after? "fixed".toList (dropUnsigned normal)
  if rest.isEmpty then widthOfBits? 128
  else
    let bits := rest.takeWhile Text.isDigit
    match rest.dropWhile Text.isDigit with
    | 'x' :: places =>
        if !bits.isEmpty && !places.isEmpty && allDigits places then
          widthOfBits? (digitsValue bits)
        else none
    | _ => none

def isFunctionType (normal : List Char) : Bool :=
  startsWith normal "function ".toList || startsWith normal "function(".toList

def normalWidth? (normal : List Char) : Except Fault (Option Nat) :=
  if isMapping normal || endsWith normal [']'] then .ok (some slotSize)
  else if normal = "bool".toList then .ok (some 1)
  else if normal = "address".toList ∨ normal = "address payable".toList ∨
      startsWith normal "contract ".toList then .ok (some 20)
  else if startsWith normal "enum ".toList then .ok (some 1)
  else if normal = "string".toList ∨ normal = "bytes".toList then
    .ok (some slotSize)
  else if startsWith normal "struct ".toList then
    .error (.structNotFlattened (String.ofList normal))
  else if isFunctionType normal then
    .ok (some (if occursIn " external".toList normal then 24 else 8))
  else
    .ok
      ((bytesWidth? normal).orElse fun _ =>
        (integerWidth? normal).orElse fun _ => fixedPointWidth? normal)

def width (type : String) (member : Datum) : Except Fault Nat :=
  if type.isEmpty then .error (.unknownType type member)
  else
    match normalWidth? (normalize type.toList) with
    | .error fault => .error fault
    | .ok none => .error (.unknownType type member)
    | .ok (some bytes) => .ok bytes

def widthDigits (normal : List Char) : List Char :=
  match after? "bytes".toList normal with
  | some digits => if allDigits digits then digits else []
  | none =>
      match after? "int".toList (dropUnsigned normal) with
      | some digits => if allDigits digits then digits else []
      | none =>
          match after? "fixed".toList (dropUnsigned normal) with
          | some rest =>
              match rest.dropWhile Text.isDigit with
              | 'x' :: places =>
                  if !places.isEmpty && allDigits places then
                    rest.takeWhile Text.isDigit
                  else []
              | _ => []
          | none => []

def readWidth (type : String) (member : Datum) : Except Fault Nat :=
  let digits := widthDigits (normalize type.toList)
  if Text.isOverlong digits then .error (.numberTooLong digits.length)
  else width type member

end ContractAtlas.TypeName
