/-
Type texts as the compiler prints them.

A type text may carry data locations such as ` storage ref`; they say nothing
about the type and are stripped.  Array types end in dimensions, the
outermost one last.
-/

import ContractAtlas.Fault

namespace ContractAtlas.TypeName

open Text

def locationSuffixes : List (List Char) :=
  [" storage ref".toList, " storage pointer".toList, " storage".toList,
    " memory".toList, " calldata".toList, " pointer".toList, " ref".toList]

/-- The text without this suffix and the blanks before it, if it ends so. -/
def stripSuffix (text suffix : List Char) : List Char :=
  match dropEnding? suffix text with
  | some rest => trimEnd rest
  | none => text

def stripPass (text : List Char) : List Char :=
  locationSuffixes.foldl stripSuffix text

def stripLocations (text : List Char) : List Char :=
  let next := stripPass text
  if next.length < text.length then stripLocations next else text
termination_by text.length

def normalize (text : List Char) : List Char :=
  stripLocations (trim text)

def startsWith (text start : List Char) : Bool :=
  start.isPrefixOf text

def endsWith (text ending : List Char) : Bool :=
  (dropEnding? ending text).isSome

def occursIn (piece : List Char) : List Char → Bool
  | [] => piece.isEmpty
  | c :: rest => piece.isPrefixOf (c :: rest) || occursIn piece rest

def isMapping (normal : List Char) : Bool :=
  startsWith normal "mapping(".toList

def isArray (text : List Char) : Bool :=
  let normal := normalize text
  !isMapping normal && endsWith normal [']']

def isStruct (text : List Char) : Bool :=
  let normal := normalize text
  startsWith normal "struct ".toList && !isArray normal

/-- The digits of the last dimension and the text before it.  One line feed
at the very end is ignored. -/
def lastDimension? (text : List Char) : Option (List Char × List Char) :=
  let backwards :=
    match text.reverse with
    | '\n' :: rest => rest
    | rest => rest
  match backwards with
  | ']' :: more =>
      match more.dropWhile isDigit with
      | '[' :: rest => some ((more.takeWhile isDigit).reverse, rest.reverse)
      | _ => none
  | _ => none

def digitsValue (digits : List Char) : Nat :=
  digits.foldl (fun total c => total * 10 + (digitValue? c).getD 0) 0

/-- Multiplies the static dimensions at the end of the text onto a product.
A product of zero counts as none. -/
def lengthFrom (product : Option Nat) (text : List Char) : Option Nat :=
  match lastDimension? text with
  | some (digits, rest) =>
      if digits.isEmpty then product
      else if rest.length < text.length then
        let factor :=
          match product with
          | none => 1
          | some 0 => 1
          | some value => value
        lengthFrom (some (factor * digitsValue digits)) rest
      else product
  | none => product
termination_by text.length

/-- Elements of a fixed-size array: the product of the static dimensions from
the outermost inwards, up to the first dynamic one. -/
def staticLength? (text : List Char) : Option Nat :=
  let normal := normalize text
  if isMapping normal then none else lengthFrom none normal

/-- Digits of the first static dimension, from the outermost inwards, that is
longer than a decimal number may be. -/
def overlongDimension? (text : List Char) : Option Nat :=
  match lastDimension? text with
  | some (digits, rest) =>
      if digits.isEmpty then none
      else if isOverlong digits then some digits.length
      else if rest.length < text.length then overlongDimension? rest
      else none
  | none => none
termination_by text.length

def dimensionFault? (text : List Char) : Option Fault :=
  let normal := normalize text
  if isMapping normal then none
  else (overlongDimension? normal).map .numberTooLong

def readLength (text : List Char) : Except Fault (Option Nat) :=
  match dimensionFault? text with
  | some fault => .error fault
  | none => .ok (staticLength? text)

end ContractAtlas.TypeName
