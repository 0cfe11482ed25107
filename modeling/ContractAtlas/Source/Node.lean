/-
Syntax nodes.

Every object of the document that has a node type becomes a node.  Its
children are the nodes among its attributes, those of the visiting order
first and the others in document order.  A node knows its number in the
pre-order of the whole compilation, which is its identity.
-/

import ContractAtlas.Fault
import ContractAtlas.Source.Kind

namespace ContractAtlas

structure NodeInfo where
  /-- Number of the node in the pre-order of the compilation. -/
  position : Nat := 0
  parent : Option Nat := none
  /-- Attribute of the enclosing node that holds this one. -/
  field : String := ""
  listed : Bool := false
  kind : Kind
  attributes : List (String × Json)
  target : Option Nat := none
  /-- The contract and its base contracts, most derived first. -/
  bases : List Nat := []

inductive Node where
  | mk (info : NodeInfo) (children : List Node)

namespace Node

def info : Node → NodeInfo
  | mk info _ => info

def children : Node → List Node
  | mk _ children => children

def kind (node : Node) : Kind :=
  node.info.kind

mutual

def size : Node → Nat
  | mk _ children => sizeOfAll children + 1

def sizeOfAll : List Node → Nat
  | [] => 0
  | node :: rest => size node + sizeOfAll rest

end

theorem sizeOfAll_append (left right : List Node) :
    sizeOfAll (left ++ right) = sizeOfAll left + sizeOfAll right := by
  induction left with
  | nil => simp [sizeOfAll]
  | cons node rest inductionHypothesis =>
      simp only [List.cons_append, sizeOfAll, inductionHypothesis]
      omega

theorem size_eq (node : Node) :
    node.size = sizeOfAll node.children + 1 := by
  cases node with
  | mk info below => simp only [size, children]

theorem size_le_of_mem {node : Node} {nodes : List Node}
    (member : node ∈ nodes) : node.size ≤ sizeOfAll nodes := by
  induction nodes with
  | nil => cases member
  | cons head rest inductionHypothesis =>
      simp only [sizeOfAll]
      cases member with
      | head => omega
      | tail _ member =>
          have bound := inductionHypothesis member
          omega

theorem size_lt_of_child {node child : Node}
    (member : child ∈ node.children) : child.size < node.size := by
  have bound := size_le_of_mem member
  rw [size_eq node]
  omega

mutual

def preorder : Node → List Node
  | mk info children => mk info children :: preorderOfAll children

def preorderOfAll : List Node → List Node
  | [] => []
  | node :: rest => preorder node ++ preorderOfAll rest

end

/-- Visits the pending nodes: the first of them, then its children before the
others. -/
def visit : List Node → List Node
  | [] => []
  | node :: pending => node :: visit (node.children ++ pending)
termination_by pending => sizeOfAll pending
decreasing_by
  simp only [sizeOfAll, sizeOfAll_append, size_eq node]
  omega

def walk (node : Node) : List Node :=
  visit [node]

def descendants (node : Node) : List Node :=
  visit node.children

def descendantsOfKind (kind : Kind) (node : Node) : List Node :=
  node.descendants.filter fun descendant => descendant.kind = kind

def field? (key : String) (node : Node) : Option Node :=
  node.children.find? fun child =>
    child.info.field == key && !child.info.listed

/-- The nodes in an attribute, whether it is a list or a single node. -/
def fieldList (key : String) (node : Node) : List Node :=
  node.children.filter fun child => child.info.field == key

theorem size_lt_of_field? {key : String} {node child : Node}
    (found : node.field? key = some child) : child.size < node.size :=
  size_lt_of_child (List.mem_of_find?_eq_some found)

def arrange (order : List String) (children : List Node) : List Node :=
  (order.flatMap fun key =>
      children.filter fun child => child.info.field == key) ++
    children.filter fun child => !order.contains child.info.field

mutual

/-- The node of a value: an object that has a node type. -/
def ofValue? (field : String) (listed : Bool) : Json → Option Node
  | .obj entries =>
      match entries.lookup "nodeType" with
      | some nodeType =>
          some
            (mk
              { field := field
                listed := listed
                kind := Kind.ofNodeType nodeType
                attributes := entries }
              (arrange (visitOrder nodeType) (ofEntries entries)))
      | none => none
  | _ => none

def ofEntries : List (String × Json) → List Node
  | [] => []
  | (key, .arr items) :: rest => ofItems key items ++ ofEntries rest
  | (key, value) :: rest => (ofValue? key false value).toList ++ ofEntries rest

def ofItems (key : String) : List Json → List Node
  | [] => []
  | item :: rest => (ofValue? key true item).toList ++ ofItems key rest

end

mutual

def number (parent : Option Nat) (position : Nat) : Node → Node
  | mk info children =>
      mk { info with position := position, parent := parent }
        (numberAll (some position) (position + 1) children)

def numberAll (parent : Option Nat) (position : Nat) : List Node → List Node
  | [] => []
  | node :: rest =>
      number parent position node ::
        numberAll parent (position + node.size) rest

end

mutual

def mapInfo (change : NodeInfo → Except Fault NodeInfo) :
    Node → Except Fault Node
  | mk info children =>
      match change info with
      | .error fault => .error fault
      | .ok changed =>
          match mapInfoAll change children with
          | .error fault => .error fault
          | .ok below => .ok (mk changed below)

def mapInfoAll (change : NodeInfo → Except Fault NodeInfo) :
    List Node → Except Fault (List Node)
  | [] => .ok []
  | node :: rest =>
      match mapInfo change node with
      | .error fault => .error fault
      | .ok changed =>
          match mapInfoAll change rest with
          | .error fault => .error fault
          | .ok others => .ok (changed :: others)

end

end Node

end ContractAtlas
