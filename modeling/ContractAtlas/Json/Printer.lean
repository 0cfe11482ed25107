/-
JSON text.

Every character outside printable ASCII is written as an escape, characters
beyond the basic plane as a pair of escapes.  Documents are written on one
line, or one item per line with two spaces per level.
-/

import ContractAtlas.Json.Basic
import ContractAtlas.Text.Quoted

namespace ContractAtlas.Json

def unitEscape (unit : Nat) : List Char :=
  '\\' :: 'u' :: Text.paddedHex 4 unit

def escapedChar (c : Char) : List Char :=
  if c = '"' then ['\\', '"']
  else if c = '\\' then ['\\', '\\']
  else if c = '\n' then ['\\', 'n']
  else if c = '\r' then ['\\', 'r']
  else if c = '\t' then ['\\', 't']
  else if c = '\x0C' then ['\\', 'f']
  else if c = '\x08' then ['\\', 'b']
  else if 0x20 ≤ c.toNat ∧ c.toNat < 0x7F then [c]
  else if c.toNat < 0x10000 then unitEscape c.toNat
  else
    let offset := c.toNat - 0x10000
    unitEscape (0xD800 + offset / 0x400) ++ unitEscape (0xDC00 + offset % 0x400)

def stringText (text : String) : List Char :=
  '"' :: text.toList.flatMap escapedChar ++ ['"']

def integerText (value : Int) : List Char :=
  (toString value).toList

def realText (value : Binary64) : List Char :=
  if value.isFinite then value.finiteText.toList
  else if value.isNaN then "NaN".toList
  else if value.isNegative then "-Infinity".toList
  else "Infinity".toList

def scalarText : Json → List Char
  | null => "null".toList
  | bool true => "true".toList
  | bool false => "false".toList
  | int value => integerText value
  | real value => realText value
  | str value => stringText value
  | arr _ => []
  | obj _ => []

mutual

def lineChars : Json → List Char
  | arr items => '[' :: lineItems items ++ [']']
  | obj entries => '\x7b' :: lineEntries entries ++ ['\x7d']
  | value => scalarText value

def lineItems : List Json → List Char
  | [] => []
  | [item] => lineChars item
  | item :: rest => lineChars item ++ ',' :: ' ' :: lineItems rest

def lineEntries : List (String × Json) → List Char
  | [] => []
  | [(key, value)] => stringText key ++ ':' :: ' ' :: lineChars value
  | (key, value) :: rest =>
      stringText key ++ ':' :: ' ' :: lineChars value ++
        ',' :: ' ' :: lineEntries rest

end

def lineStart (level : Nat) : List Char :=
  '\n' :: List.replicate (2 * level) ' '

mutual

/-- The document with one item per line, its first line at a level. -/
def blockChars (level : Nat) : Json → List Char
  | arr [] => ['[', ']']
  | arr (item :: rest) =>
      '[' :: blockItems (level + 1) (item :: rest) ++ lineStart level ++ [']']
  | obj [] => ['\x7b', '\x7d']
  | obj (entry :: rest) =>
      '\x7b' :: blockEntries (level + 1) (entry :: rest) ++ lineStart level ++
        ['\x7d']
  | value => scalarText value

def blockItems (level : Nat) : List Json → List Char
  | [] => []
  | [item] => lineStart level ++ blockChars level item
  | item :: rest =>
      lineStart level ++ blockChars level item ++ ',' :: blockItems level rest

def blockEntries (level : Nat) : List (String × Json) → List Char
  | [] => []
  | [(key, value)] =>
      lineStart level ++ stringText key ++ ':' :: ' ' :: blockChars level value
  | (key, value) :: rest =>
      lineStart level ++ stringText key ++ ':' :: ' ' :: blockChars level value ++
        ',' :: blockEntries level rest

end

def line (value : Json) : String :=
  String.ofList value.lineChars

def block (value : Json) : String :=
  String.ofList (value.blockChars 0)

end ContractAtlas.Json
