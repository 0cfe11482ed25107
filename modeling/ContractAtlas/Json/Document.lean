/-
Documents that are put together from values.

The keys of a record are values without items, and need not be text.
-/

import ContractAtlas.Json.Datum
import ContractAtlas.Json.Printer

namespace ContractAtlas

def Json.keyText : Json → String
  | .str text => text
  | key => String.ofList key.scalarText

inductive Document where
  | value (datum : Datum)
  | list (items : List Document)
  | record (entries : List (Json × Document))
deriving Inhabited

namespace Document

def null : Document :=
  value (.plain .null)

def text (content : String) : Document :=
  value (.text content)

def count (number : Nat) : Document :=
  value (.plain (.ofNat number))

def flag (isSet : Bool) : Document :=
  value (.plain (.bool isSet))

def fields (entries : List (String × Document)) : Document :=
  record (entries.map fun entry => (.str entry.1, entry.2))

mutual

def json : Document → Json
  | value datum => datum.value
  | list items => .arr (jsonItems items)
  | record entries => .obj (jsonEntries entries)

def jsonItems : List Document → List Json
  | [] => []
  | item :: rest => json item :: jsonItems rest

def jsonEntries : List (Json × Document) → List (String × Json)
  | [] => []
  | (key, entry) :: rest => (key.keyText, json entry) :: jsonEntries rest

end

end Document

end ContractAtlas
