/-
The spelling of values inside labels and messages.

Text stands bare when it is the whole value and quoted inside a list or an
object; the other values have words or signs of their own.
-/

import ContractAtlas.Json.Basic
import ContractAtlas.Text.Quoted

namespace ContractAtlas.Json

def Shape.name : Shape → String
  | .null => "NoneType"
  | .bool => "bool"
  | .int => "int"
  | .real => "float"
  | .str => "str"
  | .arr => "list"
  | .obj => "dict"

def spelledReal (value : Binary64) : String :=
  if value.isFinite then value.finiteText
  else if value.isNaN then "nan"
  else if value.isNegative then "-inf"
  else "inf"

mutual

def quotedSpelling : Json → String
  | null => "None"
  | bool true => "True"
  | bool false => "False"
  | int value => toString value
  | real value => spelledReal value
  | str value => Text.quoted value
  | arr items => "[" ++ quotedItems items ++ "]"
  | obj entries => "\x7b" ++ quotedEntries entries ++ "\x7d"

def quotedItems : List Json → String
  | [] => ""
  | [item] => quotedSpelling item
  | item :: rest => quotedSpelling item ++ ", " ++ quotedItems rest

def quotedEntries : List (String × Json) → String
  | [] => ""
  | [(key, value)] => Text.quoted key ++ ": " ++ quotedSpelling value
  | (key, value) :: rest =>
      Text.quoted key ++ ": " ++ quotedSpelling value ++ ", " ++
        quotedEntries rest

end

/-- The spelling with text standing bare. -/
def spelling : Json → String
  | str value => value
  | value => quotedSpelling value

end ContractAtlas.Json
