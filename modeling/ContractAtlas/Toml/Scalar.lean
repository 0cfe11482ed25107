/-
Numbers, dates, times and quoted texts of configuration files.
-/

import ContractAtlas.Text.Integer
import ContractAtlas.Text.Split
import ContractAtlas.Toml.Value

namespace ContractAtlas.Toml

open Text

def cut (first last : Nat) (text : List Char) : List Char :=
  (text.take last).drop first

def occurs (piece text : List Char) : Bool :=
  0 < countText piece text

def isPlainDigit (c : Char) : Bool :=
  '0' ≤ c && c ≤ '9'

def isStrictNumber (text : List Char) : Bool :=
  match trim text with
  | [] => false
  | first :: rest =>
      let number := first :: rest
      if first = '_' || number.getLast? == some '_' ||
          occurs ['_', '.'] number || occurs ['.', '_'] number then false
      else
        match rest with
        | [] => true
        | second :: others =>
            if first = '0' && !(['.', 'o', 'b', 'x'].contains second) then false
            else
              let unsigned :=
                if first = '+' || first = '-' then second :: others else number
              let zeroFirst :=
                (first = '+' || first = '-') && !others.isEmpty &&
                  second = '0' && others.head? != some '.'
              !zeroFirst && !occurs ['_', '_'] unsigned

def digitIn? (base : Nat) (c : Char) : Option Nat :=
  match hexDigitValue? c with
  | some digit => if digit < base then some digit else none
  | none => none

def markedBases : List (Nat × List Char) :=
  [(16, ['x', 'X']), (8, ['o', 'O']), (2, ['b', 'B'])]

def readPlain (text : List Char) : Option Nat :=
  match readDecimalDigits text with
  | some value =>
      if text.head?.bind digitValue? = some 0 ∧ value ≠ 0 then none
      else some value
  | none => none

def readLiteral (text : List Char) : Option Nat :=
  match markedBases.findSome? fun (base, letters) =>
      (behindMarker? letters text).map fun digits => (base, digits) with
  | some (base, digits) => readDigits (digitIn? base) base digits
  | none => readPlain text

def readInteger (text : List Char) : Option Int :=
  readSigned readLiteral (trimNumber text)

/-- Drops underscores, which may only stand between digits. -/
def dropUnderscores? (afterDigit : Bool) : List Char → Option (List Char)
  | [] => some []
  | '_' :: rest =>
      match rest with
      | next :: _ =>
          if afterDigit && isDigit next then dropUnderscores? false rest
          else none
      | [] => none
  | c :: rest => (dropUnderscores? (isDigit c) rest).map (c :: ·)

def digitsOf (text : List Char) : List Nat :=
  text.filterMap digitValue?

def valueOf (digits : List Nat) : Nat :=
  digits.foldl (fun total digit => total * 10 + digit) 0

def readExponent? : List Char → Option Int
  | [] => some 0
  | mark :: rest =>
      if mark = 'e' || mark = 'E' then
        readSigned
          (fun digits =>
            if !digits.isEmpty && digits.all isDigit then
              some (valueOf (digitsOf digits))
            else none)
          rest
      else none

def fractionOf : List Char → List Char × List Char
  | '.' :: rest => (rest.takeWhile isDigit, rest.dropWhile isDigit)
  | rest => ([], rest)

def readMagnitude? (text : List Char) : Option Decimal := do
  let whole := text.takeWhile isDigit
  let (fraction, rest) := fractionOf (text.dropWhile isDigit)
  if whole.isEmpty && fraction.isEmpty then none
  let exponent ← readExponent? rest
  return {
    digits := valueOf (digitsOf (whole ++ fraction))
    exponent := exponent - (fraction.length : Int) }

def readUnsignedReal? (negative : Bool) (text : List Char) : Option Binary64 :=
  let word := String.ofList (text.map Char.toLower)
  if word == "inf" || word == "infinity" then some (.infinity negative)
  else if word == "nan" then some .notANumber
  else (readMagnitude? text).map (Binary64.ofDecimal negative)

def readReal? (text : List Char) : Option Binary64 := do
  match ← dropUnderscores? false (trimNumber text) with
  | '-' :: rest => readUnsignedReal? true rest
  | '+' :: rest => readUnsignedReal? false rest
  | rest => readUnsignedReal? false rest

def isLeapYear (year : Int) : Bool :=
  year % 4 == 0 && (year % 100 != 0 || year % 400 == 0)

def daysIn (year month : Int) : Int :=
  if month = 2 then (if isLeapYear year then 29 else 28)
  else if month = 4 ∨ month = 6 ∨ month = 9 ∨ month = 11 then 30
  else 31

def isFieldWithin (text : List Char) (first last : Nat) (low high : Int) :
    Bool :=
  match readDecimal (cut first last text) with
  | some value => low ≤ value && value ≤ high
  | none => false

def hasDate (text : List Char) : Bool :=
  match readDecimal (cut 0 4 text), readDecimal (cut 5 7 text) with
  | some year, some month =>
      1 ≤ year && year ≤ 9999 && 1 ≤ month && month ≤ 12 &&
        isFieldWithin text 8 10 1 (daysIn year month)
  | _, _ => false

def splitFraction (text : List Char) : List Char × Option (List Char) :=
  match text.getLast? with
  | some 'Z' => (text.dropLast, some ['Z'])
  | some 'z' => (text.dropLast, some ['Z'])
  | _ =>
      let sign :=
        if text.contains '+' then some '+'
        else if text.contains '-' then some '-'
        else none
      match sign with
      | some sign =>
          (text.takeWhile fun c => c != sign,
            some (text.dropWhile fun c => c != sign))
      | none => (text, none)

def isZone (text : List Char) : Bool :=
  text == ['Z'] ||
    ((readDecimal (cut 1 3 text)).isSome && (readDecimal (cut 4 6 text)).isSome)

/-- A fraction of a second in millionths.  Up to six digits are exact; more
of them are scaled down as a binary number. -/
def millionths (digits : List Char) : Except Flaw Int :=
  match readDecimal digits with
  | none => .ok 0
  | some value =>
      if digits.length ≤ 6 then
        .ok (value * (Nat.pow 10 (6 - digits.length) : Nat))
      else
        match Binary64.scaledDown value (digits.length - 6) with
        | some scaled => .ok scaled
        | none => .error .overflow

/-- The fraction of a second behind a moment.  It counts as zero next to a
time zone that is none. -/
def fractionOfSecond (text : List Char) : Except Flaw Int :=
  match text.drop 19 with
  | '.' :: rest =>
      match splitFraction rest with
      | (digits, some zone) => if isZone zone then millionths digits else .ok 0
      | (digits, none) => millionths digits
  | _ => .ok 0

/-- A date, with the time of day unless it is ten characters long. -/
def isDate (text : List Char) : Except Flaw Bool := do
  let fraction ← fractionOfSecond text
  return (text.drop 1).contains '-' && hasDate text &&
    (text.length = 10 ||
      (isFieldWithin text 11 13 0 23 && isFieldWithin text 14 16 0 59 &&
        isFieldWithin text 17 19 0 59 && 0 ≤ fraction && fraction < 1000000))

def startsWithTime (text : List Char) : Bool :=
  match text with
  | a :: b :: ':' :: c :: d :: ':' :: e :: f :: _ =>
      [a, b, c, d, e, f].all isPlainDigit
  | _ => false

def isTimeValid (text : List Char) : Bool :=
  isFieldWithin text 0 2 0 23 && isFieldWithin text 3 5 0 59 &&
    isFieldWithin text 6 8 0 59

def escapes : List (Char × Char) :=
  [('0', '\x00'), ('b', '\x08'), ('f', '\x0C'), ('n', '\n'), ('r', '\r'),
    ('t', '\t'), ('"', '"')]

def unescape : List Char → Except Flaw (List Char)
  | [] => .ok []
  | ['\\'] => .ok ['\\']
  | '\\' :: c :: rest =>
      match escapes.lookup c with
      | some replaced => do return replaced :: (← unescape rest)
      | none =>
          if c = '\\' then do return '\\' :: (← unescape rest)
          else if c = 'u' || c = 'U' then do
            return '\\' :: c :: (← unescape rest)
          else .error .malformed
  | c :: rest => do return c :: (← unescape rest)

def endsEscaping (text : List Char) : Bool :=
  (text.reverse.takeWhile fun c => c = '\\').length % 2 == 1

def readCodePoint (width : Nat) (text : List Char) :
    Except Flaw (Char × List Char) :=
  let digits := (text.take width).map Char.toLower
  let rest := text.drop width
  if !digits.all fun c => isPlainDigit c || ('a' ≤ c && c ≤ 'f') then
    .error .malformed
  else
    match digits with
    | [] => .error .truncated
    | ['d'] => .error .truncated
    | first :: others =>
        let code := (first :: others).foldl
          (fun total c => total * 16 + (hexDigitValue? c).getD 0) 0
        if first = 'd' && others.head?.any fun c => !('0' ≤ c && c ≤ '7') then
          .error .malformed
        else if code < 0x110000 then .ok (Char.ofNat code, rest)
        else if code < 0x80000000 then .error .malformed
        else .error .overflow

/-- Replaces the Unicode escapes among the pieces behind their markers; a
marker may itself be escaped. -/
def joinCodePoints (marker : List Char) (width : Nat) (escaped : Bool) :
    List (List Char) → Except Flaw (List Char)
  | [] => .ok []
  | piece :: rest =>
      if escaped then do
        return marker ++ piece ++
          (← joinCodePoints marker width (endsEscaping piece) rest)
      else do
        let (c, others) ← readCodePoint width piece
        return c :: others ++ (← joinCodePoints marker width false rest)

def replaceCodePoints (marker : List Char) (width : Nat) (text : List Char) :
    Except Flaw (List Char) :=
  match splitOnText marker text with
  | before :: rest => do
      return before ++
        (← joinCodePoints marker width (endsEscaping before) rest)
  | [] => .ok text

def checkEscapes (escaped : Bool) : List (List Char) → Bool
  | [] => true
  | [] :: rest => checkEscapes (!escaped) rest
  | (c :: _) :: rest =>
      ((escapes.lookup c).isSome || c = 'u' || c = 'U' || escaped) &&
        checkEscapes false rest

/-- State of the check that a text is closed once: whether it is closed, and
the quotes in a row since the last character. -/
structure Closing where
  closed : Bool := false
  quotes : Nat := 0

def Closing.step (triple : Bool) (state : Closing) (piece : List Char) :
    Except Flaw Closing :=
  if piece.isEmpty then
    if triple then .ok { state with quotes := state.quotes + 1 }
    else .ok { state with closed := true }
  else if endsEscaping piece then .ok state
  else if state.closed then .error .malformed
  else if !triple || 1 < state.quotes then .ok { state with closed := true }
  else .ok { state with quotes := 0 }

/-- Nothing follows the quote that closes a text. -/
def checkClosing (quote : Char) (inside : List Char) : Except Flaw Unit := do
  let pieces := splitOn quote inside
  match pieces with
  | [] :: [] :: rest =>
      let _ ← rest.foldlM (Closing.step true) {}
      return ()
  | _ =>
      let _ ← pieces.foldlM (Closing.step false) {}
      return ()

def replaceEscapes (text : List Char) : Except Flaw (List Char) := do
  if !checkEscapes false ((splitOn '\\' text).drop 1) then throw .malformed
  let short ← replaceCodePoints ['\\', 'u'] 4 text
  let long ← replaceCodePoints ['\\', 'U'] 8 short
  unescape long

def dropEnds (count : Nat) (text : List Char) : List Char :=
  (text.take (text.length - count)).drop count

def stripQuotes (quote : Char) (text : List Char) : List Char :=
  match text with
  | [_, second] => if second = quote then [] else dropEnds 1 text
  | _ :: second :: third :: _ =>
      if second = quote && third = quote then dropEnds 1 (dropEnds 2 text)
      else dropEnds 1 text
  | _ => dropEnds 1 text

def readQuoted (quote : Char) (inside : List Char) :
    Except Flaw (List Char) := do
  checkClosing quote inside
  let text := quote :: inside
  let plain ← if quote = '"' then replaceEscapes text else pure text
  return stripQuotes quote plain

end ContractAtlas.Toml
