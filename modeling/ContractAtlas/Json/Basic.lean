/-
JSON documents.

Objects keep their entries in document order.  Integers and binary numbers
are different kinds of value.
-/

import ContractAtlas.Number.Binary64

namespace ContractAtlas

inductive Json where
  | null
  | bool (value : Bool)
  | int (value : Int)
  | real (value : Binary64)
  | str (value : String)
  | arr (items : List Json)
  | obj (entries : List (String × Json))
deriving Inhabited

namespace Json

inductive Shape where
  | null
  | bool
  | int
  | real
  | str
  | arr
  | obj
deriving DecidableEq

def shape : Json → Shape
  | null => .null
  | bool _ => .bool
  | int _ => .int
  | real _ => .real
  | str _ => .str
  | arr _ => .arr
  | obj _ => .obj

/-- A value is given unless it is null, false, zero or empty. -/
def isGiven : Json → Bool
  | null => false
  | bool value => value
  | int value => value != 0
  | real value => !value.isZero
  | str value => !value.isEmpty
  | arr items => !items.isEmpty
  | obj entries => !entries.isEmpty

def givenOr (value fallback : Json) : Json :=
  if value.isGiven then value else fallback

def isObject : Json → Bool
  | obj _ => true
  | _ => false

def isText (text : String) : Json → Bool
  | str value => value == text
  | _ => false

def isOneOf (texts : List String) (value : Json) : Bool :=
  texts.any value.isText

/-- Integers, with truth values counting as one and zero. -/
def toInt? : Json → Option Int
  | bool value => some (if value then 1 else 0)
  | int value => some value
  | _ => none

def ofNat (value : Nat) : Json :=
  int value

/-- What a value is filed under: numbers by their value, whatever their shape,
and text by itself. -/
inductive Key where
  | null
  | number (value : Int)
  | real (value : Binary64)
  | text (value : String)
deriving DecidableEq

def key? : Json → Option Key
  | null => some .null
  | bool value => some (.number (if value then 1 else 0))
  | int value => some (.number value)
  | real value =>
      match value.toInt? with
      | some integer => some (.number integer)
      | none => some (.real value)
  | str value => some (.text value)
  | arr _ => none
  | obj _ => none

end Json

end ContractAtlas
