/-
Reading JSON text.

The reader works on the characters and returns what is left.  Each call
consumes at least one character, so as many steps as there are characters
suffice.  Within an object a repeated key keeps its first place and its last
value.  The words `NaN` and `Infinity` are numbers.  There may be limits on
the digits of an integer and on the depth of a document.
-/

import ContractAtlas.Json.Basic
import ContractAtlas.Text.Integer

namespace ContractAtlas.Json

inductive Flaw where
  | malformed
  | overlong (digits : Nat)
  | tooDeep
deriving DecidableEq

/-- Limits on what is read; nothing stands for no limit. -/
structure Limits where
  digits : Option Nat := none
  depth : Option Nat := none

/-- The limits inside one more list or object, if there may be one. -/
def Limits.inside? (limits : Limits) : Option Limits :=
  match limits.depth with
  | none => some limits
  | some 0 => none
  | some (depth + 1) => some { limits with depth := some depth }

@[simp] theorem Limits.inside?_unlimited :
    ({} : Limits).inside? = some {} := rfl

def isSpace (c : Char) : Bool :=
  c == ' ' || c == '\n' || c == '\t' || c == '\r'

def skipSpace (text : List Char) : List Char :=
  text.dropWhile isSpace

def readUnit? : List Char → Option (Nat × List Char)
  | a :: b :: c :: d :: rest => do
      let digit := fun (ch : Char) =>
        if ch.toNat < 0x80 then Text.hexDigitValue? ch else none
      let first ← digit a
      let second ← digit b
      let third ← digit c
      let fourth ← digit d
      some (first * 0x1000 + second * 0x100 + third * 0x10 + fourth, rest)
  | _ => none

/-- Joins the two halves of a character beyond the basic plane. -/
def joinUnits? (high : Nat) (text : List Char) : Option (Char × List Char) :=
  match text with
  | '\\' :: 'u' :: more =>
      match readUnit? more with
      | some (low, rest) =>
          if 0xDC00 ≤ low ∧ low < 0xE000 then
            some
              (Char.ofNat (0x10000 + (high - 0xD800) * 0x400 + (low - 0xDC00)),
                rest)
          else none
      | none => none
  | _ => none

/-- The character of an escape, behind its backslash.  Half of a character
without its partner is replaced. -/
def readEscape? : List Char → Option (Char × List Char)
  | '"' :: rest => some ('"', rest)
  | '\\' :: rest => some ('\\', rest)
  | '/' :: rest => some ('/', rest)
  | 'b' :: rest => some ('\x08', rest)
  | 'f' :: rest => some ('\x0C', rest)
  | 'n' :: rest => some ('\n', rest)
  | 'r' :: rest => some ('\r', rest)
  | 't' :: rest => some ('\t', rest)
  | 'u' :: more =>
      match readUnit? more with
      | some (unit, rest) =>
          if 0xD800 ≤ unit ∧ unit < 0xDC00 then
            some ((joinUnits? unit rest).getD ('�', rest))
          else if 0xDC00 ≤ unit ∧ unit < 0xE000 then some ('�', rest)
          else some (Char.ofNat unit, rest)
      | none => none
  | _ => none

def readStringRest? : Nat → List Char → Option (List Char × List Char)
  | 0, _ => none
  | fuel + 1, text =>
      match text with
      | '"' :: rest => some ([], rest)
      | '\\' :: more =>
          match readEscape? more with
          | some (c, rest) =>
              (readStringRest? fuel rest).map fun (chars, left) =>
                (c :: chars, left)
          | none => none
      | c :: rest =>
          if c.toNat < 0x20 then none
          else
            (readStringRest? fuel rest).map fun (chars, left) =>
              (c :: chars, left)
      | [] => none

def isAsciiDigit (c : Char) : Bool :=
  '0' ≤ c && c ≤ '9'

def digitsValue (digits : List Char) : Nat :=
  digits.foldl (fun total c => total * 10 + (c.toNat - '0'.toNat)) 0

/-- The digits before the point: a zero alone, or digits without a leading
zero. -/
def readWhole? : List Char → Option (List Char × List Char)
  | '0' :: rest => some (['0'], rest)
  | c :: rest =>
      if isAsciiDigit c then
        some (c :: rest.takeWhile isAsciiDigit, rest.dropWhile isAsciiDigit)
      else none
  | [] => none

def readFraction (text : List Char) : Option (List Char) × List Char :=
  match text with
  | '.' :: c :: rest =>
      if isAsciiDigit c then
        (some (c :: rest.takeWhile isAsciiDigit), rest.dropWhile isAsciiDigit)
      else (none, text)
  | _ => (none, text)

def readPower (text : List Char) : Option Int × List Char :=
  match text with
  | e :: more =>
      if e = 'e' ∨ e = 'E' then
        let (negative, digits) :=
          match more with
          | '-' :: rest => (true, rest)
          | '+' :: rest => (false, rest)
          | rest => (false, rest)
        if (digits.takeWhile isAsciiDigit).isEmpty then (none, text)
        else
          let size : Int := digitsValue (digits.takeWhile isAsciiDigit)
          (some (if negative then -size else size),
            digits.dropWhile isAsciiDigit)
      else (none, text)
  | [] => (none, text)

def readInteger (limits : Limits) (negative : Bool) (digits : List Char) :
    Except Flaw Json :=
  if limits.digits.any fun bound => bound < digits.length then
    .error (.overlong digits.length)
  else
    let size : Int := digitsValue digits
    .ok (int (if negative then -size else size))

def readNumber (limits : Limits) (text : List Char) :
    Except Flaw (Json × List Char) :=
  let (negative, unsigned) :=
    match text with
    | '-' :: rest => (true, rest)
    | rest => (false, rest)
  match readWhole? unsigned with
  | none => .error .malformed
  | some (whole, afterWhole) =>
      let (fraction, afterFraction) := readFraction afterWhole
      let (power, rest) := readPower afterFraction
      match fraction, power with
      | none, none =>
          match readInteger limits negative whole with
          | .ok value => .ok (value, rest)
          | .error flaw => .error flaw
      | _, _ =>
          let behind := fraction.getD []
          let decimal : Decimal :=
            { digits := digitsValue (whole ++ behind)
              exponent := power.getD 0 - behind.length }
          .ok (real (Binary64.ofDecimal negative decimal), rest)

def dropWord? : List Char → List Char → Option (List Char)
  | [], text => some text
  | _ :: _, [] => none
  | w :: word, c :: text => if w = c then dropWord? word text else none

def words : List (List Char × Json) :=
  [("null".toList, null), ("true".toList, bool true),
    ("false".toList, bool false), ("NaN".toList, real Binary64.notANumber),
    ("Infinity".toList, real (Binary64.infinity false)),
    ("-Infinity".toList, real (Binary64.infinity true))]

def readWord? (text : List Char) : Option (Json × List Char) :=
  words.findSome? fun (word, value) =>
    (dropWord? word text).map fun rest => (value, rest)

/-- Adds an entry: a repeated key keeps its place and takes the new value. -/
def putEntry (key : String) (value : Json) :
    List (String × Json) → List (String × Json)
  | [] => [(key, value)]
  | (other, old) :: rest =>
      if other = key then (key, value) :: rest
      else (other, old) :: putEntry key value rest

def settleEntries (entries : List (String × Json)) : List (String × Json) :=
  entries.foldl (fun settled entry => putEntry entry.1 entry.2 settled) []

def readString (fuel : Nat) (text : List Char) :
    Except Flaw (String × List Char) :=
  match readStringRest? fuel text with
  | some (chars, rest) => .ok (String.ofList chars, rest)
  | none => .error .malformed

mutual

def readValue (limits : Limits) :
    Nat → List Char → Except Flaw (Json × List Char)
  | 0, _ => .error .malformed
  | fuel + 1, text =>
      match text with
      | '"' :: rest =>
          match readString fuel rest with
          | .error flaw => .error flaw
          | .ok (value, left) => .ok (str value, left)
      | '[' :: more =>
          match limits.inside? with
          | none => .error .tooDeep
          | some inner =>
              match skipSpace more with
              | ']' :: rest => .ok (arr [], rest)
              | items =>
                  match readItems inner fuel items with
                  | .error flaw => .error flaw
                  | .ok (values, left) => .ok (arr values, left)
      | '\x7b' :: more =>
          match limits.inside? with
          | none => .error .tooDeep
          | some inner =>
              match skipSpace more with
              | '\x7d' :: rest => .ok (obj [], rest)
              | entries =>
                  match readEntries inner fuel entries with
                  | .error flaw => .error flaw
                  | .ok (pairs, left) => .ok (obj (settleEntries pairs), left)
      | _ =>
          match readWord? text with
          | some found => .ok found
          | none => readNumber limits text

def readItems (limits : Limits) :
    Nat → List Char → Except Flaw (List Json × List Char)
  | 0, _ => .error .malformed
  | fuel + 1, text =>
      match readValue limits fuel text with
      | .error flaw => .error flaw
      | .ok (value, afterValue) =>
          match skipSpace afterValue with
          | ']' :: rest => .ok ([value], rest)
          | ',' :: more =>
              match readItems limits fuel (skipSpace more) with
              | .error flaw => .error flaw
              | .ok (values, left) => .ok (value :: values, left)
          | _ => .error .malformed

def readEntries (limits : Limits) :
    Nat → List Char → Except Flaw (List (String × Json) × List Char)
  | 0, _ => .error .malformed
  | fuel + 1, text =>
      match text with
      | '"' :: more =>
          match readString fuel more with
          | .error flaw => .error flaw
          | .ok (key, afterKey) =>
              match skipSpace afterKey with
              | ':' :: beforeValue =>
                  match readValue limits fuel (skipSpace beforeValue) with
                  | .error flaw => .error flaw
                  | .ok (value, afterValue) =>
                      match skipSpace afterValue with
                      | '\x7d' :: rest => .ok ([(key, value)], rest)
                      | ',' :: next =>
                          match readEntries limits fuel (skipSpace next) with
                          | .error flaw => .error flaw
                          | .ok (pairs, left) =>
                              .ok ((key, value) :: pairs, left)
                      | _ => .error .malformed
              | _ => .error .malformed
      | _ => .error .malformed

end

def readWithin (limits : Limits) (text : String) : Except Flaw Json :=
  let chars := text.toList
  match readValue limits (chars.length + 1) (skipSpace chars) with
  | .error flaw => .error flaw
  | .ok (value, rest) =>
      if (skipSpace rest).isEmpty then .ok value else .error .malformed

def read? (text : String) : Option Json :=
  (readWithin {} text).toOption

end ContractAtlas.Json
