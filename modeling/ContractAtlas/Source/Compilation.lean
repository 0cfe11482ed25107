/-
Compilations: source units with their references resolved.

Nodes are numbered in pre-order over all units, and a reference is the number
of the node that it refers to.  Only a node that is found under its own id
has its references resolved.
-/

import ContractAtlas.Source.Index

namespace ContractAtlas

structure SourceUnit where
  root : Node
  content : String

structure Compilation where
  source : List Char := []
  units : List SourceUnit
  nodes : Array Node
  index : Index

namespace Compilation

def baseCandidates (index : Index) :
    List Json → Except Fault (List (Option Nat))
  | [] => .ok []
  | id :: rest =>
      match index.find? id with
      | .error fault => .error fault
      | .ok position =>
          match baseCandidates index rest with
          | .error fault => .error fault
          | .ok others => .ok (position :: others)

def isContractAt (nodes : Array Node) (position : Nat) : Bool :=
  match nodes[position]? with
  | some node => node.kind = .contractDefinition
  | none => false

/-- The base contracts that can be resolved, or the contract alone. -/
def basesOf (index : Index) (nodes : Array Node) (info : NodeInfo) :
    Except Fault (List Nat) :=
  match ((info.attributes.lookup "linearizedBaseContracts").getD
      (.arr [])).items with
  | .error fault => .error fault
  | .ok ids =>
      match baseCandidates index ids with
      | .error fault => .error fault
      | .ok candidates =>
          let bases :=
            (candidates.filterMap fun position => position).filter
              (isContractAt nodes)
          .ok (if bases.isEmpty then [info.position] else bases)

def isIndexed (index : Index) (info : NodeInfo) : Bool :=
  match (info.attributes.lookup "id").getD .null with
  | .null => false
  | id =>
      match id.key? with
      | some key => index.position? key == some info.position
      | none => false

/-- The declaration that an integer reference stands for. -/
def targetOf (index : Index) (info : NodeInfo) : Option Nat :=
  match info.attributes.lookup "referencedDeclaration" with
  | some reference =>
      reference.toInt?.bind fun id => index.position? (.number id)
  | none => none

def link (index : Index) (nodes : Array Node) (info : NodeInfo) :
    Except Fault NodeInfo :=
  if isIndexed index info then
    let linked := { info with target := targetOf index info }
    if info.kind = .contractDefinition then
      match basesOf index nodes info with
      | .error fault => .error fault
      | .ok bases => .ok { linked with bases := bases }
    else .ok linked
  else .ok info

def holder? (index : Index) (nodes : Array Node) (node : Node) : Option Node :=
  match node.id.key? with
  | some key => (index.position? key).bind fun position => nodes[position]?
  | none => none

/-- The first fault of resolving references, going through the ids in the
order in which they are first met. -/
def linkFault? (index : Index) (nodes : Array Node) : List Node → Option Fault
  | [] => none
  | node :: rest =>
      match holder? index nodes node with
      | none => linkFault? index nodes rest
      | some holder =>
          match link index nodes holder.info with
          | .error fault => some fault
          | .ok _ => linkFault? index nodes rest

def linkAll (index : Index) (nodes roots : List Node) :
    Except Fault (List Node) :=
  match linkFault? index nodes.toArray nodes with
  | some fault => .error fault
  | none => Node.mapInfoAll (link index nodes.toArray) roots

def ofUnits (units : List (Node × String)) : Except Fault Compilation :=
  let roots := Node.numberAll none 0 (units.map fun unit => unit.1)
  let nodes := Node.preorderOfAll roots
  let index := Index.ofNodes nodes
  match linkAll index nodes roots with
  | .error fault => .error fault
  | .ok linked =>
      .ok
        { units :=
            linked.zipWith (fun root unit => { root := root, content := unit.2 })
              units
          nodes := (Node.preorderOfAll linked).toArray
          index := index }

abbrev Place (compilation : Compilation) := Fin compilation.nodes.size

def place? (compilation : Compilation) (position : Nat) :
    Option compilation.Place :=
  if inside : position < compilation.nodes.size then some ⟨position, inside⟩
  else none

def node (compilation : Compilation) (place : compilation.Place) : Node :=
  compilation.nodes[place]

def nodeAt? (compilation : Compilation) (position : Nat) : Option Node :=
  compilation.nodes[position]?

def referenced? (compilation : Compilation) (node : Node) :
    Option compilation.Place :=
  node.referencedPosition?.bind compilation.place?

def referencedNode? (compilation : Compilation) (node : Node) : Option Node :=
  (compilation.referenced? node).map compilation.node

/-- The node at a position and those around it, innermost first. -/
def enclosingFrom (compilation : Compilation) (position : Nat) : List Node :=
  match compilation.nodeAt? position with
  | none => []
  | some node =>
      match node.info.parent with
      | some parent =>
          if parent < position then node :: compilation.enclosingFrom parent
          else [node]
      | none => [node]

def enclosing (compilation : Compilation) (node : Node) : List Node :=
  match node.info.parent with
  | some parent => compilation.enclosingFrom parent
  | none => []

def closestParent? (compilation : Compilation) (kind : Kind) (node : Node) :
    Option Node :=
  (compilation.enclosing node).find? fun parent => parent.kind = kind

def contractOf? (compilation : Compilation) (definition : Node) : Option Node :=
  compilation.closestParent? .contractDefinition definition

def unitOf? (compilation : Compilation) (node : Node) : Option Node :=
  if node.kind = .sourceUnit then some node
  else compilation.closestParent? .sourceUnit node

def pathOf (compilation : Compilation) (node : Node) : Json :=
  match compilation.unitOf? node with
  | some unit => unit.textOr "absolutePath" ""
  | none => .str ""

def datum (compilation : Compilation) (node : Node) (key : String)
    (value : Json) : Datum :=
  { value := value
    origin :=
      some
        { source := compilation.source
          node := node.info.position
          key := key } }

def nameOf (compilation : Compilation) (node : Node) : Datum :=
  compilation.datum node "name" node.name

def pathDatum (compilation : Compilation) (node : Node) : Datum :=
  match compilation.unitOf? node with
  | some unit =>
      compilation.datum unit "absolutePath" (unit.textOr "absolutePath" "")
  | none => .text ""

/-- The content of a source unit; empty for a unit inside another one. -/
def contentOf (compilation : Compilation) (unit : Node) : String :=
  match compilation.units.find? fun other =>
      other.root.info.position == unit.info.position with
  | some found => found.content
  | none => ""

/-- The base contracts of a contract, most derived first. -/
def linearizedBases (compilation : Compilation) (contract : Node) : List Node :=
  contract.info.bases.filterMap compilation.nodeAt?

end Compilation

end ContractAtlas
