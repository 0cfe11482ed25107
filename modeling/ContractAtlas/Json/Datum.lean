/-
Values with the places they were read from.

Equal values of different places are told apart, and a value that is used
several times is known to be one and the same.
-/

import ContractAtlas.Json.Basic

namespace ContractAtlas

/-- A place in what was read: an attribute of a node of a source. -/
structure Origin where
  source : List Char := []
  node : Nat
  key : String
deriving DecidableEq

structure Datum where
  value : Json
  origin : Option Origin := none
deriving Inhabited

namespace Datum

def plain (value : Json) : Datum :=
  { value := value }

def text (value : String) : Datum :=
  plain (.str value)

end Datum

end ContractAtlas
