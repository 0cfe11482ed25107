/-
The index of a compilation: node positions by node id.
-/

import Std.Data.TreeMap
import ContractAtlas.Source.Attributes

namespace ContractAtlas

namespace Json.Key

def rank : Key → Nat
  | null => 0
  | number _ => 1
  | real _ => 2
  | text _ => 3

def integer : Key → Int
  | number value => value
  | _ => 0

def bits : Key → Nat
  | real value => value.bits.toNat
  | _ => 0

def letters : Key → String
  | text value => value
  | _ => ""

def order : Key → Key → Ordering :=
  compareLex (compareOn rank)
    (compareLex (compareOn integer)
      (compareLex (compareOn bits) (compareOn letters)))

instance : Std.TransCmp order := by
  unfold order
  infer_instance

end Json.Key

/-- Positions by id; of several nodes with one id the last one counts. -/
abbrev Index := Std.TreeMap Json.Key Nat Json.Key.order

namespace Index

def empty : Index := ∅

def add (index : Index) (node : Node) : Index :=
  match node.id with
  | .null => index
  | id =>
      match id.key? with
      | some key => index.insert key node.info.position
      | none => index

def ofNodes (nodes : List Node) : Index :=
  nodes.foldl add empty

def position? (index : Index) (key : Json.Key) : Option Nat :=
  index[key]?

/-- The position that an id stands for; lists and objects are no ids. -/
def find? (index : Index) (id : Json) : Except Fault (Option Nat) :=
  match id.key? with
  | some key => .ok (index.position? key)
  | none => .error (.noKey id.shape)

end Index

end ContractAtlas
