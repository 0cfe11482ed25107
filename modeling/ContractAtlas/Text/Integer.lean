/-
Integers written as text.

The text may be surrounded by blanks and carry a sign.  Digits of every
script count, and a single underscore may stand between two digits.  In base
sixteen a marker `0x` may come first, itself followed by an underscore.  A
decimal number has a limited number of digits.
-/

import ContractAtlas.Text.Blank
import ContractAtlas.Text.Digit

namespace ContractAtlas.Text

/-- Blanks around a number: the information separators do not count. -/
def isNumberBlank (c : Char) : Bool :=
  isBlank c && !(0x1C ≤ c.toNat && c.toNat ≤ 0x1F)

def hexDigitValue? (c : Char) : Option Nat :=
  if 'a' ≤ c ∧ c ≤ 'f' then some (c.toNat - 'a'.toNat + 10)
  else if 'A' ≤ c ∧ c ≤ 'F' then some (c.toNat - 'A'.toNat + 10)
  else digitValue? c

/-- Continues a number with further digits, each perhaps behind a single
underscore. -/
def readDigitsFrom (value? : Char → Option Nat) (base : Nat) :
    Nat → List Char → Option Nat
  | total, [] => some total
  | total, '_' :: c :: rest =>
      match value? c with
      | some digit => readDigitsFrom value? base (total * base + digit) rest
      | none => none
  | total, c :: rest =>
      match value? c with
      | some digit => readDigitsFrom value? base (total * base + digit) rest
      | none => none

def readDigits (value? : Char → Option Nat) (base : Nat) :
    List Char → Option Nat
  | [] => none
  | c :: rest =>
      match value? c with
      | some digit => readDigitsFrom value? base digit rest
      | none => none

/-- The digits behind a zero and a letter that marks their base, perhaps with
an underscore between. -/
def behindMarker? (letters : List Char) : List Char → Option (List Char)
  | zero :: letter :: rest =>
      if digitValue? zero = some 0 ∧ letter ∈ letters then
        match rest with
        | '_' :: digits => some digits
        | digits => some digits
      else none
  | _ => none

def dropHexMarker (text : List Char) : List Char :=
  (behindMarker? ['x', 'X'] text).getD text

def decimalLimit : Nat := 4300

def isOverlong (digits : List Char) : Bool :=
  decimalLimit < digits.countP isDigit

def readDecimalDigits (text : List Char) : Option Nat :=
  if isOverlong text then none else readDigits digitValue? 10 text

def trimNumber (text : List Char) : List Char :=
  ((text.dropWhile isNumberBlank).reverse.dropWhile isNumberBlank).reverse

def readSigned (read : List Char → Option Nat) : List Char → Option Int
  | '-' :: rest => (read rest).map fun value => -(value : Int)
  | '+' :: rest => (read rest).map fun value => (value : Int)
  | text => (read text).map fun value => (value : Int)

def readDecimal (text : List Char) : Option Int :=
  readSigned readDecimalDigits (trimNumber text)

def readHex (text : List Char) : Option Int :=
  readSigned (fun digits => readDigits hexDigitValue? 16 (dropHexMarker digits))
    (trimNumber text)

end ContractAtlas.Text
