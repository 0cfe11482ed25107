/-
Texts that a YAML reader takes for something other than text when they stand
without quotes: truth values, numbers, nulls, dates and the marks of
mappings.
-/

import ContractAtlas.Text.Integer
import ContractAtlas.Text.Split

namespace ContractAtlas.Yaml

def isDecimalDigit (c : Char) : Bool :=
  '0' ≤ c && c ≤ '9'

def isDigitOrBar (c : Char) : Bool :=
  isDecimalDigit c || c = '_'

def truthWords : List String :=
  ["yes", "Yes", "YES", "no", "No", "NO", "true", "True", "TRUE", "false",
    "False", "FALSE", "on", "On", "ON", "off", "Off", "OFF"]

def nullWords : List String :=
  ["", "~", "null", "Null", "NULL"]

def markWords : List String :=
  ["<<", "=", "!", "&", "*"]

def dropSign : List Char → List Char
  | '-' :: rest => rest
  | '+' :: rest => rest
  | text => text

/-- A digit, then digits and bars. -/
def isDigits : List Char → Bool
  | c :: rest => isDecimalDigit c && rest.all isDigitOrBar
  | [] => false

def isPositiveDigits (text : List Char) : Bool :=
  isDigits text && text.head? != some '0'

/-- A number from zero to fifty-nine, in one or two digits. -/
def isSixtieth : List Char → Bool
  | [unit] => isDecimalDigit unit
  | [ten, unit] => '0' ≤ ten && ten ≤ '5' && isDecimalDigit unit
  | _ => false

/-- Digits and at least one group of sixtieths. -/
def isSexagesimal (leading : List Char → Bool) (text : List Char) : Bool :=
  match Text.splitOn ':' text with
  | first :: second :: rest =>
      leading first && (second :: rest).all isSixtieth
  | _ => false

def isUnsignedInteger : List Char → Bool
  | ['0'] => true
  | '0' :: 'b' :: digit :: rest =>
      (digit :: rest).all fun c => c = '0' || c = '1' || c = '_'
  | '0' :: 'x' :: digit :: rest =>
      (digit :: rest).all fun c => (Text.hexDigitValue? c).isSome || c = '_'
  | '0' :: rest => rest.all fun c => ('0' ≤ c && c ≤ '7') || c = '_'
  | text => isPositiveDigits text || isSexagesimal isPositiveDigits text

def readsAsInteger (text : List Char) : Bool :=
  isUnsignedInteger (dropSign text)

def isExponent : List Char → Bool
  | [] => true
  | mark :: sign :: digit :: rest =>
      (mark = 'e' || mark = 'E') && (sign = '-' || sign = '+') &&
        (digit :: rest).all isDecimalDigit
  | _ => false

/-- Digits and bars, then perhaps an exponent. -/
def isFraction (text : List Char) : Bool :=
  isExponent (text.dropWhile isDigitOrBar)

def aroundPoint? (text : List Char) : Option (List Char × List Char) :=
  match text.dropWhile fun c => c != '.' with
  | _ :: fraction => some (text.takeWhile fun c => c != '.', fraction)
  | [] => none

def isPointed (text : List Char) : Bool :=
  match aroundPoint? text with
  | some (whole, fraction) =>
      (isDigits whole && isFraction fraction) ||
        (isSexagesimal isDigits whole && fraction.all isDigitOrBar)
  | none => false

def isPointFirst : List Char → Bool
  | '.' :: digit :: rest => isDecimalDigit digit && isFraction rest
  | _ => false

def readsAsReal (text : List Char) : Bool :=
  let unsigned := dropSign text
  isPointed unsigned || isPointFirst text ||
    [".inf", ".Inf", ".INF"].any (fun word => word.toList == unsigned) ||
    [".nan", ".NaN", ".NAN"].any fun word => word.toList == text

def dropOneOrTwoDigits? : List Char → Option (List Char)
  | first :: second :: rest =>
      if isDecimalDigit first then
        if isDecimalDigit second then some rest else some (second :: rest)
      else none
  | [first] => if isDecimalDigit first then some [] else none
  | [] => none

def dropTwoDigits? : List Char → Option (List Char)
  | first :: second :: rest =>
      if isDecimalDigit first && isDecimalDigit second then some rest else none
  | _ => none

def dropChar? (expected : Char) : List Char → Option (List Char)
  | c :: rest => if c = expected then some rest else none
  | [] => none

def isGap (c : Char) : Bool :=
  c = ' ' || c = '\t'

/-- Between a date and a time: a letter, or blanks. -/
def dropTimeMark? : List Char → Option (List Char)
  | 'T' :: rest => some rest
  | 't' :: rest => some rest
  | c :: rest => if isGap c then some (rest.dropWhile isGap) else none
  | [] => none

/-- Nothing, or an offset from universal time. -/
def isTimeZone (text : List Char) : Bool :=
  match text.dropWhile isGap with
  | [] => text.isEmpty
  | ['Z'] => true
  | sign :: rest =>
      (sign = '-' || sign = '+') &&
        match dropOneOrTwoDigits? rest with
        | some [] => true
        | some (':' :: minutes) => dropTwoDigits? minutes == some []
        | _ => false

def isTimeEnd : List Char → Bool
  | '.' :: rest => isTimeZone (rest.dropWhile isDecimalDigit)
  | rest => isTimeZone rest

def dropYear? (text : List Char) : Option (List Char) := do
  dropChar? '-' (← dropTwoDigits? (← dropTwoDigits? text))

def isDay (text : List Char) : Bool :=
  (do
    let month ← dropYear? text
    let day ← dropChar? '-' (← dropTwoDigits? month)
    dropTwoDigits? day) == some []

def isMoment (text : List Char) : Bool :=
  match (do
    let month ← dropYear? text
    let day ← dropChar? '-' (← dropOneOrTwoDigits? month)
    let hour ← dropTimeMark? (← dropOneOrTwoDigits? day)
    let minute ← dropChar? ':' (← dropOneOrTwoDigits? hour)
    let second ← dropChar? ':' (← dropTwoDigits? minute)
    dropTwoDigits? second) with
  | some rest => isTimeEnd rest
  | none => false

/-- The text would be read as something else without quotes. -/
def readsAsOther (text : List Char) : Bool :=
  (truthWords ++ nullWords ++ markWords).any (fun word => word.toList == text) ||
    readsAsInteger text || readsAsReal text || isDay text || isMoment text

end ContractAtlas.Yaml
