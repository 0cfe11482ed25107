/-
Small compilations, written down.

A sample is a node twice: as an object of compiler output, and as the node that
the object is read as.  Its id is its position.  Samples under their paths make
a file and a compilation; that the file is read as the compilation is then a
matter of evaluation, once for each file, and what is known of a sample of any
content holds in every file.
-/

import ContractAtlas.Source.Reading

namespace ContractAtlas

/-! ### Objects -/

def nodeEntries (nodeType : String) (id : Json)
    (attributes : List (String × Json)) : List (String × Json) :=
  ("nodeType", .str nodeType) :: ("id", id) :: attributes

def nodeObject (nodeType : String) (id : Json)
    (attributes : List (String × Json)) : Json :=
  .obj (nodeEntries nodeType id attributes)

def typeEntry (type : String) : String × Json :=
  ("typeDescriptions", .obj [("typeString", .str type)])

def identifierObject (id : Json) (reference : Int) : Json :=
  nodeObject "Identifier" id [("referencedDeclaration", .int reference)]

def contractObject (id : Int) (bases : List Int)
    (attributes : List (String × Json)) : Json :=
  nodeObject "ContractDefinition" (.int id)
    (("linearizedBaseContracts", .arr (bases.map .int)) :: attributes)

def unitObject (id : Int) (nodes : List Json) : Json :=
  nodeObject "SourceUnit" (.int id) [("nodes", .arr nodes)]

/-- Build information of one source with its content. -/
def sourceFile (path content : String) (tree : Json) : Json :=
  .obj
    [("input", .obj
        [("sources", .obj [(path, .obj [("content", .str content)])])]),
      ("output", .obj [("sources", .obj [(path, .obj [("ast", tree)])])])]

/-! ### Samples -/

def Kind.nodeType (kind : Kind) : String :=
  ((table.find? fun entry => entry.2 = kind).map Prod.fst).getD ""

/-- The node depends on the place that holds it: the position of the node around
it, the attribute, and whether that is a list. -/
structure Sample where
  entries : List (String × Json)
  node : Option Nat → String → Bool → Node

namespace Sample

def object (sample : Sample) : Json :=
  .obj sample.entries

/-- What an attribute holds. -/
inductive Held where
  | one (sample : Sample)
  | many (samples : List Sample)

def Held.samples : Held → List Sample
  | one sample => [sample]
  | many samples => samples

def Held.isList : Held → Bool
  | one _ => false
  | many _ => true

def Held.value : Held → Json
  | one sample => sample.object
  | many samples => .arr (samples.map object)

/-- A sample with what it holds in the order in which it is visited. -/
def make (kind : Kind) (id : Nat) (attributes : List (String × Json))
    (held : List (String × Held)) (target : Option Nat) (bases : List Nat) :
    Sample :=
  let entries := nodeEntries kind.nodeType (.int id)
    (attributes ++ held.map fun entry => (entry.1, entry.2.value))
  { entries := entries
    node := fun parent field listed =>
      .mk
        { position := id
          parent := parent
          field := field
          listed := listed
          kind := kind
          attributes := entries
          target := target
          bases := bases }
        (held.flatMap fun entry => entry.2.samples.map fun sample =>
          sample.node (some id) entry.1 entry.2.isList) }

def referenceEntry (target : Option Nat) : String × Json :=
  ("referencedDeclaration",
    match target with
    | some id => .int id
    | none => .null)

def identifier (id : Nat) (name type : String) (target : Option Nat) : Sample :=
  make .identifier id
    [("name", .str name), typeEntry type, referenceEntry target] [] target []

def member (id : Nat) (name : String) (target : Option Nat)
    (receiver : Sample) : Sample :=
  make .memberAccess id [("memberName", .str name), referenceEntry target]
    [("expression", .one receiver)] target []

def call (id : Nat) (callee : Sample) : Sample :=
  make .functionCall id [] [("expression", .one callee)] none []

def stateVariable (id : Nat) (name type : String) : Sample :=
  make .variableDeclaration id [("name", .str name), typeEntry type] [] none []

def function (id : Nat) (name mutability : String) (body : List Sample) :
    Sample :=
  make .functionDefinition id
    [("name", .str name), ("stateMutability", .str mutability)]
    [("body", .many body)] none []

def contract (id : Nat) (name : String) (bases : List Nat)
    (nodes : List Sample) : Sample :=
  make .contractDefinition id
    [("name", .str name),
      ("linearizedBaseContracts",
        .arr (bases.map fun (base : Nat) => .int base))]
    [("nodes", .many nodes)] none bases

def unit (id : Nat) (path : Json) (nodes : List Sample) : Sample :=
  make .sourceUnit id [("absolutePath", path)] [("nodes", .many nodes)] none []

/-! ### Files -/

def file (units : List (String × Sample)) : Json :=
  .obj (units.map fun entry => (entry.1, entry.2.object))

def roots (units : List (String × Sample)) : List Node :=
  units.map fun entry => entry.2.node none "" false

def compilation (units : List (String × Sample)) : Compilation where
  units := (roots units).map fun root => { root := root, content := "" }
  nodes := (Node.preorderOfAll (roots units)).toArray
  index := Index.ofNodes (Node.preorderOfAll (roots units))

end Sample

end ContractAtlas
