/-
Values of configuration files.
-/

import ContractAtlas.Number.Binary64

namespace ContractAtlas.Toml

inductive Value where
  | flag (value : Bool)
  | integer (value : Int)
  | real (value : Binary64)
  | text (value : List Char)
  | moment
  | list (items : List Value)
  | table (entries : List (List Char × Value))

inductive Flaw where
  | malformed
  /-- Text that ends where a character has to follow. -/
  | truncated
  | notTable
  | notList
  /-- A value over several lines under an empty key. -/
  | unnamed
  | overflow
deriving DecidableEq

namespace Value

def empty : Value := table []

/-- A value is given unless it is false, zero or empty. -/
def isGiven : Value → Bool
  | flag value => value
  | integer value => value != 0
  | real value => !value.isZero
  | text value => !value.isEmpty
  | moment => true
  | list items => !items.isEmpty
  | table entries => !entries.isEmpty

/-- Shapes of values; the items of a list are all of one shape. -/
inductive Shape where
  | flag
  | integer
  | real
  | text
  | date
  | time
  | list
  | table
deriving DecidableEq

def putEntry (key : List Char) (value : Value) :
    List (List Char × Value) → List (List Char × Value)
  | [] => [(key, value)]
  | (other, old) :: rest =>
      if other = key then (other, value) :: rest
      else (other, old) :: putEntry key value rest

def changeLast (change : Value → Value) : List Value → List Value
  | [] => []
  | [item] => [change item]
  | item :: rest => item :: changeLast change rest

end Value

/-- One step into a value: to an entry, or to the last item. -/
inductive Step where
  | entry (key : List Char)
  | last

namespace Value

def follow? (step : Step) : Value → Option Value
  | table entries =>
      match step with
      | .entry key => entries.lookup key
      | .last => none
  | list items =>
      match step with
      | .entry _ => none
      | .last => items.getLast?
  | text value =>
      match step with
      | .entry _ => none
      | .last => if value.isEmpty then none else some (text value)
  | _ => none

def at? : List Step → Value → Option Value
  | [], value => some value
  | step :: rest, value => (value.follow? step).bind (at? rest)

def changeAt (change : Value → Value) : List Step → Value → Value
  | [], value => change value
  | .entry key :: rest, table entries =>
      match entries.lookup key with
      | some value => table (putEntry key (changeAt change rest value) entries)
      | none => table entries
  | .last :: rest, list items => list (changeLast (changeAt change rest) items)
  | _ :: _, value => value

end Value

end ContractAtlas.Toml
