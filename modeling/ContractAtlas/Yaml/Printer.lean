/-
YAML text of documents, in block style.

Lists under a key are not indented further than the key.  A key that is long,
empty or has line breaks is written after a question mark, and its value after
a colon on a line of its own.
-/

import ContractAtlas.Json.Spelling
import ContractAtlas.Yaml.Anchored
import ContractAtlas.Yaml.Scalar

namespace ContractAtlas.Yaml

def step : Nat := 2

def newLine (indent : Nat) : List Char :=
  '\n' :: List.replicate indent ' '

/-- A number with an exponent has a point as well. -/
def pointedReal (text : List Char) : List Char :=
  if text.contains '.' then text
  else
    text.flatMap fun c => if c = 'e' then ['.', '0', 'e'] else [c]

def realText (value : Binary64) : List Char :=
  if value.isFinite then pointedReal value.finiteText.toList
  else if value.isNaN then ".nan".toList
  else if value.isNegative then "-.inf".toList
  else ".inf".toList

def scalar (frame : Frame) (column : Nat) : Json → List Char
  | .null => "null".toList
  | .bool true => "true".toList
  | .bool false => "false".toList
  | .int value => (toString value).toList
  | .real value => realText value
  | .str text => textScalar frame column text.toList
  | .arr _ => ['[', ']']
  | .obj _ => ['\x7b', '\x7d']

def scalarAfter (indent column : Nat) (value : Json) : List Char :=
  ' ' :: scalar { indent := indent + step, folded := true } (column + 1) value

def simpleKey (key : Json) : List Char :=
  scalar { indent := 0, folded := false } 0 key

/-- The length of the tag that a key counts with, though it is not written. -/
def tagLength : Json → Nat
  | .null => "!!null".length
  | .bool _ => "!!bool".length
  | .int _ => "!!int".length
  | .real _ => "!!float".length
  | .str _ => "!!str".length
  | .arr _ => "!!seq".length
  | .obj _ => "!!map".length

def keyChars : Json → List Char
  | .str text => text.toList
  | key => simpleKey key

def isSimpleKey (key : Json) : Bool :=
  let chars := keyChars key
  !chars.isEmpty && !chars.any isBreak &&
    tagLength key + chars.length < simpleKeyLimit

/-- Where a value starts: after the dash of an item, after a question mark or
the colon on a line of its own, or after a key that ends at a column. -/
inductive Placement where
  | afterDash
  | afterMark
  | afterKey (column : Nat)

def Placement.column (indent : Nat) : Placement → Nat
  | afterDash => indent + 1
  | afterMark => indent + 1
  | afterKey column => column

def keyText (indent : Nat) (key : Json) : List Char :=
  if isSimpleKey key then simpleKey key ++ [':']
  else '?' :: scalarAfter indent (indent + 1) key ++ newLine indent ++ [':']

def placementAfter (indent : Nat) (key : Json) : Placement :=
  if isSimpleKey key then .afterKey (indent + (simpleKey key).length + 1)
  else .afterMark

def anchorName (number : Nat) : List Char :=
  let digits := (toString number).toList
  'i' :: 'd' :: List.replicate (3 - digits.length) '0' ++ digits

def anchorText : Option Nat → List Char
  | some number => ' ' :: '&' :: anchorName number
  | none => []

/-- What stands before the lines of a list, and their indentation: they start
on the line of a mark unless there is an anchor, and they are not indented
below a key. -/
def listStart (indent : Nat) (anchor : Option Nat) :
    Placement → List Char × Nat
  | .afterKey _ => (anchorText anchor ++ newLine indent, indent)
  | .afterDash =>
      match anchor with
      | none => ([' '], indent + step)
      | some _ => (anchorText anchor ++ newLine (indent + step), indent + step)
  | .afterMark =>
      match anchor with
      | none => ([' '], indent + step)
      | some _ => (anchorText anchor ++ newLine indent, indent)

/-- What stands before the lines of a mapping, which are always indented. -/
def recordStart (indent : Nat) (anchor : Option Nat) :
    Placement → List Char
  | .afterKey _ => anchorText anchor ++ newLine (indent + step)
  | _ =>
      match anchor with
      | none => [' ']
      | some _ => anchorText anchor ++ newLine (indent + step)

mutual

def listLines (indent : Nat) : List Anchored → List Char
  | [] => []
  | [item] => '-' :: valueText indent .afterDash item
  | item :: rest =>
      '-' :: valueText indent .afterDash item ++ newLine indent ++
        listLines indent rest

def recordLines (indent : Nat) : List (Json × Anchored) → List Char
  | [] => []
  | [(key, value)] =>
      keyText indent key ++ valueText indent (placementAfter indent key) value
  | (key, value) :: rest =>
      keyText indent key ++ valueText indent (placementAfter indent key) value ++
        newLine indent ++ recordLines indent rest

def valueText (indent : Nat) (placement : Placement) : Anchored → List Char
  | .reference number => ' ' :: '*' :: anchorName number
  | .scalar value => scalarAfter indent (placement.column indent) value
  | .list anchor [] => anchorText anchor ++ [' ', '[', ']']
  | .list anchor (item :: rest) =>
      let (start, inner) := listStart indent anchor placement
      start ++ listLines inner (item :: rest)
  | .record anchor [] => anchorText anchor ++ [' ', '\x7b', '\x7d']
  | .record anchor (entry :: rest) =>
      recordStart indent anchor placement ++
        recordLines (indent + step) (entry :: rest)

end

def render (document : Document) : String :=
  let lines :=
    match anchored document with
    | .list _ (item :: rest) => listLines 0 (item :: rest)
    | .record _ (entry :: rest) => recordLines 0 (entry :: rest)
    | .list _ [] => ['[', ']']
    | .record _ [] => ['\x7b', '\x7d']
    | .scalar value => scalar { indent := step, folded := true } 0 value
    | .reference _ => []
  String.ofList (lines ++ ['\n'])

end ContractAtlas.Yaml
