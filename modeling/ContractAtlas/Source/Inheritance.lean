/-
Declarations along the inheritance chain of a contract, and the signatures
that tell functions apart there.
-/

import ContractAtlas.Source.Compilation

namespace ContractAtlas

def Node.firstOfEach (seen : List Nat) : List Node → List Node
  | [] => []
  | node :: rest =>
      if node.info.position ∈ seen then firstOfEach seen rest
      else node :: firstOfEach (node.info.position :: seen) rest

namespace Compilation

/-- The declarations of a contract and its bases, most-base first, each one
once. -/
def definitions (compilation : Compilation) (declared : Node → List Node)
    (includeSelf : Bool) (contract : Node) : List Node :=
  let bases :=
    (compilation.linearizedBases contract).reverse.filter fun base =>
      includeSelf || base.info.position != contract.info.position
  Node.firstOfEach [] (bases.flatMap declared)

def definitionsOfKind (compilation : Compilation) (kind : Kind)
    (contract : Node) : List Node :=
  compilation.definitions (Node.membersOfKind kind) true contract

end Compilation

structure Signature where
  /-- The name, or the kind of a function without a name. -/
  name : Json
  parameters : String
  visibility : Json
  mutability : Json

structure SignatureKey where
  name : Json.Key
  parameters : String
  visibility : Json.Key
  mutability : Json.Key
deriving DecidableEq

namespace Signature

def parts (signature : Signature) : List Json :=
  [signature.name, .str signature.parameters, signature.visibility,
    signature.mutability]

def keyPart (value : Json) : Except Fault Json.Key :=
  match value.key? with
  | some key => .ok key
  | none => .error (.noKey value.shape)

def key (signature : Signature) : Except Fault SignatureKey := do
  let name ← keyPart signature.name
  let visibility ← keyPart signature.visibility
  let mutability ← keyPart signature.mutability
  return {
    name := name
    parameters := signature.parameters
    visibility := visibility
    mutability := mutability }

/-- The texts among values, which have to be all of them; faults name the
position of the first other value. -/
def textsFrom (position : Nat) : List Json → Except Fault (List String)
  | [] => .ok []
  | .str text :: rest => do return text :: (← textsFrom (position + 1) rest)
  | other :: _ => .error (.notJoinable position other.shape)

def ofFunction (function : Node) : Except Fault Signature := do
  let types ← function.parameters.mapM Node.typeStringOrEmpty
  let texts ← textsFrom 0 types
  return {
    name := function.name.givenOr function.functionKind
    parameters := ",".intercalate texts
    visibility := function.visibility
    mutability := function.stateMutability }

end Signature

end ContractAtlas
